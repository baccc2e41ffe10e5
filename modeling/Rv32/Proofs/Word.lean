import Rv32.Proofs.DoubleWord
import Rv32.Trap.Vector

/-! # Aligned words and masked writes

A resume address is kept as a multiple of four. The lemmas here say which words
are, and that neither a masked write of an aligned value nor a step to the next
instruction changes the distance from the last multiple of four.
-/

namespace Rv32

/-! ## Single bits -/

def withBit {n : Nat} (k : Nat) (level : Bool) (w : BitVec n) : BitVec n :=
  if level then w ||| BitVec.twoPow n k else w &&& ~~~BitVec.twoPow n k

theorem getLsbD_withBit {n k : Nat} (w : BitVec n) (hk : k < n) (level : Bool) (j : Nat) :
    (withBit k level w).getLsbD j = if j = k then level else w.getLsbD j := by
  unfold withBit
  by_cases hj : j = k
  · subst hj
    cases level <;> simp [hk]
  · by_cases hwidth : j < n
    · cases level
      · simp [hj, hwidth]
      · simp [BitVec.getLsbD_twoPow, hj, Ne.symm hj]
    · cases level <;> simp [hj, BitVec.getLsbD_of_ge _ _ (Nat.le_of_not_lt hwidth)]

theorem getLsbD_setWidth_of_lt {n m k : Nat} (w : BitVec n) (hk : k < m) :
    (w.setWidth m).getLsbD k = w.getLsbD k := by
  rw [BitVec.getLsbD_setWidth, decide_eq_true hk, Bool.true_and]

/-- A bit is tested by masking it out. -/
theorem and_bit_ne_zero_iff {n k : Nat} (w : BitVec n) (hk : k < n) :
    w &&& (1#n <<< k) ≠ 0#n ↔ w.getLsbD k = true := by
  rw [← BitVec.twoPow_eq, BitVec.and_twoPow]
  split
  · rename_i hset
    refine iff_of_true ?_ hset
    intro hzero
    have hclear := BitVec.getLsbD_twoPow k k (w := n)
    rw [hzero, BitVec.getLsbD_zero] at hclear
    simp [hk] at hclear
  · rename_i hclear
    exact iff_of_false (fun hzero => hzero rfl) hclear

namespace Word

def IsAligned (w : Word) : Prop :=
  w.toNat % 4 = 0

instance (w : Word) : Decidable w.IsAligned :=
  inferInstanceAs (Decidable (w.toNat % 4 = 0))

theorem alignDown_eq_shift (w : Word) : w.alignDown = w >>> 2 <<< 2 := by
  apply BitVec.eq_of_getLsbD_eq
  intro i hi
  have hthree : (3#32).getLsbD i = decide (i < 2) := by
    have hmask : 3#32 = BitVec.setWidth 32 (BitVec.allOnes 2) := by decide
    rw [hmask, BitVec.getLsbD_setWidth, BitVec.getLsbD_allOnes]
    simp [hi]
  simp only [alignDown, BitVec.getLsbD_and, BitVec.getLsbD_not, hthree, BitVec.getLsbD_shiftLeft,
    BitVec.getLsbD_ushiftRight, hi, decide_true, Bool.true_and]
  by_cases hlow : i < 2
  · simp [hlow]
  · simp [hlow, show 2 + (i - 2) = i by omega]

theorem toNat_alignDown (w : Word) : w.alignDown.toNat = w.toNat / 4 * 4 := by
  have hw := w.isLt
  rw [alignDown_eq_shift, BitVec.toNat_shiftLeft, BitVec.toNat_ushiftRight,
    Nat.shiftRight_eq_div_pow, Nat.shiftLeft_eq]
  omega

theorem isAligned_alignDown (w : Word) : w.alignDown.IsAligned := by
  unfold IsAligned
  rw [toNat_alignDown]
  omega

theorem alignDown_eq_self_iff (w : Word) : w.alignDown = w ↔ w.IsAligned := by
  constructor
  · intro h
    rw [← h]
    exact w.isAligned_alignDown
  · intro h
    unfold IsAligned at h
    apply BitVec.eq_of_toNat_eq
    rw [toNat_alignDown]
    omega

theorem isAligned_zero : (0 : Word).IsAligned := rfl

/-- The next instruction is as far from a multiple of four as this one. -/
theorem isAligned_add_four (w : Word) : (w + 4).IsAligned ↔ w.IsAligned := by
  have hfour : (4 : Word).toNat = 4 := rfl
  unfold IsAligned
  rw [BitVec.toNat_add, hfour]
  omega

theorem ne_add_four (w : Word) : w ≠ w + 4 := by
  intro h
  have hnat := congrArg BitVec.toNat h
  have hfour : (4 : Word).toNat = 4 := rfl
  have hw := w.isLt
  rw [BitVec.toNat_add, hfour] at hnat
  omega

theorem isAligned_iff_bits (w : Word) :
    w.IsAligned ↔ w.getLsbD 0 = false ∧ w.getLsbD 1 = false := by
  rw [← alignDown_eq_self_iff]
  constructor
  · intro h
    rw [← h]
    simp [alignDown]
  · rintro ⟨h0, h1⟩
    rw [alignDown_eq_shift]
    apply BitVec.eq_of_getLsbD_eq
    intro i hi
    simp only [BitVec.getLsbD_shiftLeft, BitVec.getLsbD_ushiftRight, hi, decide_true, Bool.true_and]
    by_cases hlow : i < 2
    · obtain rfl | rfl : i = 0 ∨ i = 1 := by omega
      · simpa using h0.symm
      · simpa using h1.symm
    · simp [hlow, show 2 + (i - 2) = i by omega]

/-- A masked write of an aligned value keeps an aligned word aligned, whatever the mask. -/
theorem isAligned_merge {old value : Word} (mask : Word) (hold : old.IsAligned)
    (hvalue : value.IsAligned) : (merge old value mask).IsAligned := by
  rw [isAligned_iff_bits] at *
  simp only [getLsbD_merge, hold, hvalue, ite_self, and_self]

/-! ## Offsets -/

/-- The address `offset` bytes from `w`. The offset is signed, and addresses wrap around. -/
def displaced (w offset : Word) : Word :=
  BitVec.ofInt 32 (w.toNat + offset.toInt)

theorem displaced_eq (w offset : Word) : w.displaced offset = w + offset := by
  rw [displaced, BitVec.ofInt_add, BitVec.ofInt_natCast, BitVec.ofInt_toInt, BitVec.ofNat_toNat,
    BitVec.setWidth_eq]

theorem displaced_zero (w : Word) : w.displaced 0 = w :=
  (w.displaced_eq 0).trans (BitVec.add_zero w)

/-! ## Words within a mask -/

def Within (w mask : Word) : Prop :=
  w &&& mask = w

instance (w mask : Word) : Decidable (w.Within mask) :=
  inferInstanceAs (Decidable (w &&& mask = w))

theorem within_iff {w mask : Word} :
    w.Within mask ↔ ∀ i, w.getLsbD i = true → mask.getLsbD i = true := by
  constructor
  · intro h i hi
    rw [← h, BitVec.getLsbD_and, Bool.and_eq_true] at hi
    exact hi.2
  · intro h
    apply BitVec.eq_of_getLsbD_eq
    intro i _
    rw [BitVec.getLsbD_and]
    cases hw : w.getLsbD i with
    | false => rfl
    | true => rw [h i hw, Bool.and_self]

theorem within_zero (mask : Word) : (0 : Word).Within mask :=
  BitVec.zero_and

/-- A write that reaches only bits of the mask keeps a word within it. -/
theorem within_merge {old mask : Word} (value written : Word) (hold : old.Within mask) :
    (merge old value (written &&& mask)).Within mask := by
  rw [within_iff] at *
  intro i hi
  rw [getLsbD_merge] at hi
  split at hi
  · rename_i hmask
    rw [BitVec.getLsbD_and, Bool.and_eq_true] at hmask
    exact hmask.2
  · exact hold i hi

theorem Within.trans {w a b : Word} (hw : w.Within a) (ha : a.Within b) : w.Within b := by
  rw [within_iff] at *
  exact fun i hi => ha i (hw i hi)

/-- Words that differ only within a mask agree on every field that the mask leaves out. -/
theorem extractLsb'_eq_of_within {w v mask : Word} {lo n : Nat} (h : (w ^^^ v).Within mask)
    (hclear : mask.extractLsb' lo n = 0#n) : w.extractLsb' lo n = v.extractLsb' lo n := by
  have hxor : (w ^^^ v).extractLsb' lo n = 0#n := by
    rw [← h, BitVec.extractLsb'_and, hclear, BitVec.and_zero]
  rw [BitVec.extractLsb'_xor] at hxor
  exact BitVec.xor_eq_zero_iff.mp hxor

/-! ## Fields of masked writes -/

/-- A field of a masked write is the masked write of the field. -/
theorem extractLsb'_merge (old value mask : Word) (lo n : Nat) :
    (merge old value mask).extractLsb' lo n =
      (old.extractLsb' lo n &&& ~~~mask.extractLsb' lo n)
        ||| (value.extractLsb' lo n &&& mask.extractLsb' lo n) := by
  apply BitVec.eq_of_getLsbD_eq
  intro i hi
  simp only [BitVec.getLsbD_extractLsb', hi, decide_true, Bool.true_and, getLsbD_merge,
    BitVec.getLsbD_or, BitVec.getLsbD_and, BitVec.getLsbD_not]
  cases mask.getLsbD (lo + i) <;> simp

theorem extractLsb'_merge_of_clear (old value : Word) {mask : Word} {lo n : Nat}
    (hmask : mask.extractLsb' lo n = 0) :
    (merge old value mask).extractLsb' lo n = old.extractLsb' lo n := by
  rw [extractLsb'_merge, hmask]
  simp

end Word

theorem TrapVector.isAligned_base (v : TrapVector) : v.base.IsAligned := by
  rw [Word.IsAligned, TrapVector.base, Word.toNat_append, BitVec.toNat_zero, Nat.add_zero]
  exact Nat.mul_mod_left _ 4

end Rv32
