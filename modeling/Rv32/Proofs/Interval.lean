import Rv32.Interval

/-! # The arithmetic of intervals

Addresses are words, and words wrap around. An interval may end at the last
address there is, where the end of an access and the number of all addresses
are no words any more. The lemmas here say what the functions on intervals come
to as numbers, and that no sum or difference formed on the way wraps around.
-/

namespace Rv32

namespace Interval

variable {i : Interval} {a first last size : Word}

theorem contains_iff_toNat (i : Interval) (a : Word) :
    i.contains a = true ↔ i.first.toNat ≤ a.toNat ∧ a.toNat ≤ i.last.toNat := by
  rw [contains_eq_true_iff, BitVec.le_def, BitVec.le_def]

/-! ## Building intervals -/

/-- Every interval can be built from its bounds, and nothing else from them. -/
theorem ofBounds_eq_ok_iff : ofBounds first last = .ok i ↔ i.first = first ∧ i.last = last := by
  unfold ofBounds
  constructor
  · intro h
    split at h
    · cases h
      exact ⟨rfl, rfl⟩
    · cases h
  · rintro ⟨rfl, rfl⟩
    exact dif_pos i.first_le_last

theorem ofSize_eq_ok (h : ofSize first size = .ok i) :
    i.first = first ∧ i.last.toNat + 1 = first.toNat + size.toNat := by
  unfold ofSize at h
  split at h
  · cases h
  · rename_i hfits
    obtain ⟨hfirst, hlast⟩ := ofBounds_eq_ok_iff.mp h
    refine ⟨hfirst, ?_⟩
    have hone : (1 : Word).toNat = 1 := rfl
    have hpositive : 0 < size.toNat := by
      apply Nat.pos_of_ne_zero
      intro hzero
      exact hfits (.inl (BitVec.eq_of_toNat_eq hzero))
    have hsize := size.isLt
    unfold addressCount at hfits
    rw [hlast, BitVec.toNat_add, BitVec.toNat_sub, hone]
    omega

theorem ofSize_of_fits (hsize : 0 < size.toNat)
    (hfits : first.toNat + size.toNat ≤ addressCount) : ∃ i, ofSize first size = .ok i := by
  have hone : (1 : Word).toNat = 1 := rfl
  have hzero : ¬ size = 0 := by
    rintro rfl
    exact Nat.lt_irrefl 0 hsize
  have hend : ¬ (size = 0 ∨ addressCount ≤ first.toNat + (size.toNat - 1)) := by
    rintro (h | h)
    · exact hzero h
    · omega
  have hordered : first ≤ first + (size - 1) := by
    unfold addressCount at hfits
    have hlt := size.isLt
    rw [BitVec.le_def, BitVec.toNat_add, BitVec.toNat_sub, hone]
    omega
  unfold ofSize ofBounds
  rw [if_neg hend, dif_pos hordered]
  exact ⟨_, rfl⟩

theorem ofSize_of_misfit (h : size.toNat = 0 ∨ addressCount < first.toNat + size.toNat) :
    ofSize first size = .error ⟨first, first + size⟩ := by
  unfold ofSize
  refine if_pos ?_
  rcases h with hzero | hlarge
  · exact .inl (BitVec.eq_of_toNat_eq hzero)
  · right
    omega

/-- A size is accepted if there are addresses, and none of them is beyond the address space. -/
theorem exists_ofSize_iff (first size : Word) :
    (∃ i, ofSize first size = .ok i) ↔
      1 ≤ size.toNat ∧ first.toNat + size.toNat ≤ addressCount := by
  constructor
  · rintro ⟨i, h⟩
    obtain ⟨hfirst, hlast⟩ := ofSize_eq_ok h
    have hordered := i.first_le_last
    have hend := i.last.isLt
    rw [hfirst, BitVec.le_def] at hordered
    unfold addressCount
    omega
  · rintro ⟨hsize, hfits⟩
    exact ofSize_of_fits hsize hfits

theorem contains_of_ofSize (h : ofSize first size = .ok i) (a : Word) :
    i.contains a = true ↔ first.toNat ≤ a.toNat ∧ a.toNat ≤ first.toNat + size.toNat - 1 := by
  obtain ⟨hfirst, hlast⟩ := ofSize_eq_ok h
  rw [contains_iff_toNat, hfirst, ← hlast, Nat.add_sub_cancel]

/-- The last address is found without wrapping around. -/
theorem not_overflow_of_ofSize (h : ofSize first size = .ok i) :
    size.usubOverflow 1 = false ∧ first.uaddOverflow (size - 1) = false := by
  obtain ⟨hsize, hfits⟩ := (exists_ofSize_iff first size).mp ⟨i, h⟩
  have hone : (1 : Word).toNat = 1 := rfl
  have hpred : (size - 1).toNat = size.toNat - 1 := BitVec.toNat_sub_of_le hsize
  unfold addressCount at hfits
  constructor
  · rw [BitVec.usubOverflow, decide_eq_false_iff_not, hone]
    omega
  · rw [BitVec.uaddOverflow, decide_eq_false_iff_not, hpred]
    omega

/-! ## Distances -/

/-- The distance from an address of the interval to its end. -/
theorem toNat_last_sub (h : i.contains a = true) : (i.last - a).toNat = i.last.toNat - a.toNat :=
  BitVec.toNat_sub_of_le ((i.contains_eq_true_iff a).mp h).2

theorem not_overflow_last_sub (h : i.contains a = true) : i.last.usubOverflow a = false := by
  have hle := ((i.contains_iff_toNat a).mp h).2
  rw [BitVec.usubOverflow, decide_eq_false_iff_not]
  omega

theorem not_overflow_sub_first (h : i.contains a = true) : a.usubOverflow i.first = false := by
  have hle := ((i.contains_iff_toNat a).mp h).1
  rw [BitVec.usubOverflow, decide_eq_false_iff_not]
  omega

theorem contains_first (i : Interval) : i.contains i.first = true :=
  (i.contains_eq_true_iff _).mpr ⟨Nat.le_refl _, i.first_le_last⟩

/--
An access lies in the interval if it starts there and ends no later than the interval. An empty
access ends where it starts.
-/
theorem containsAccess_iff (i : Interval) (a : Word) (len : Nat) :
    i.containsAccess a len = true ↔
      i.contains a = true ∧ a.toNat + len ≤ i.last.toNat + 1 := by
  unfold containsAccess
  rw [Bool.and_eq_true]
  refine and_congr_right fun hin => ?_
  have hdistance := toNat_last_sub hin
  have hle := ((i.contains_iff_toNat a).mp hin).2
  cases len with
  | zero =>
      simp only [true_iff]
      omega
  | succ delta =>
      simp only [decide_eq_true_eq, hdistance]
      omega

/-! ## Sizes -/

theorem size_eq (i : Interval) : i.size = i.last.toNat - i.first.toNat + 1 := by
  rw [size, delta, toNat_last_sub i.contains_first]

theorem size_le (i : Interval) : i.size ≤ addressCount := by
  have hlast := i.last.isLt
  rw [size_eq, addressCount]
  omega

/-- Only the whole address space has as many addresses as there are. -/
theorem size_eq_addressCount_iff (i : Interval) : i.size = addressCount ↔ i = full := by
  constructor
  · intro h
    have hlast := i.last.isLt
    rw [size_eq, addressCount] at h
    have hfirst : i.first = 0 := BitVec.eq_of_toNat_eq (show i.first.toNat = 0 by omega)
    have hend : i.last = BitVec.allOnes 32 := by
      apply BitVec.eq_of_toNat_eq
      rw [BitVec.toNat_allOnes]
      omega
    cases i
    simp_all only [full]
  · rintro rfl
    rfl

end Interval

end Rv32
