import Mathlib.Algebra.Group.Int.Defs
import Mathlib.Algebra.Group.Nat.Defs
import Rv32.Instruction.Encoding
import Rv32.Proofs.DoubleWord

/-! # Fields in their places

An instruction word is a union of fields, each moved up to its place. A field is
read back where it was put, nothing of it is read elsewhere, and fields of one
word that stand side by side join. Below that: a value fits in a field if it is
the extension of a field of that width.
-/

namespace Rv32

namespace Word

theorem getLsbD_place {n : Nat} (v : BitVec n) (position i : Nat) :
    (place v position).getLsbD i =
      (decide (i < 32) && decide (position ≤ i) && v.getLsbD (i - position)) := by
  rw [place, BitVec.getLsbD_shiftLeft, BitVec.getLsbD_setWidth]
  by_cases hi : i < 32
  · have hsub : i - position < 32 := by omega
    by_cases hp : position ≤ i
    · simp [hi, hsub, hp]
    · have hlt : i < position := by omega
      simp [hp, hlt]
  · simp [hi]

theorem extractLsb'_place {n : Nat} (v : BitVec n) {position : Nat} (h : position + n ≤ 32) :
    (place v position).extractLsb' position n = v := by
  apply BitVec.eq_of_getLsbD_eq
  intro i hi
  have hin : position + i < 32 := by omega
  have hsub : position + i - position = i := by omega
  have hle : position ≤ position + i := by omega
  rw [BitVec.getLsbD_extractLsb', getLsbD_place, hsub]
  simp only [hi, hin, hle, decide_true, Bool.true_and]

theorem extractLsb'_place_of_le {n : Nat} (v : BitVec n) {position lo k : Nat}
    (h : position + n ≤ lo) : (place v position).extractLsb' lo k = 0#k := by
  apply BitVec.eq_of_getLsbD_eq
  intro i hi
  have hout : v.getLsbD (lo + i - position) = false := BitVec.getLsbD_of_ge v _ (by omega)
  simp [getLsbD_place, BitVec.getLsbD_extractLsb', hout]

theorem extractLsb'_place_of_add_le {n : Nat} (v : BitVec n) {position lo k : Nat}
    (h : lo + k ≤ position) : (place v position).extractLsb' lo k = 0#k := by
  apply BitVec.eq_of_getLsbD_eq
  intro i hi
  have hbelow : ¬ position ≤ lo + i := by omega
  simp [getLsbD_place, BitVec.getLsbD_extractLsb', hbelow]

theorem place_setWidth {n k : Nat} (v : BitVec n) (position : Nat) (h : n ≤ k) :
    place (v.setWidth k) position = place v position := by
  have hwide : ¬ (k < n ∧ k < 32) := by omega
  rw [place, place, BitVec.setWidth_setWidth hwide]

theorem place_or_place (w : Word) {hi lo n m : Nat} (h : hi = lo + m) :
    place (w.extractLsb' hi n) hi ||| place (w.extractLsb' lo m) lo =
      place (w.extractLsb' lo (m + n)) lo := by
  subst h
  apply BitVec.eq_of_getLsbD_eq
  intro i hi
  simp only [BitVec.getLsbD_or, getLsbD_place, BitVec.getLsbD_extractLsb', hi, decide_true,
    Bool.true_and]
  by_cases hlo : lo ≤ i
  · by_cases hm : lo + m ≤ i
    · have hhigh : i - (lo + m) < n ↔ i - lo < m + n := by omega
      have hlow : ¬ i - lo < m := by omega
      simp [hlo, hm, hhigh, hlow]
    · have hlow : i - lo < m := by omega
      have hall : i - lo < m + n := by omega
      simp [hlo, hm, hlow, hall]
  · have hm : ¬ lo + m ≤ i := by omega
    simp [hlo, hm]

theorem append_extractLsb' {k : Nat} (v : BitVec k) {hi lo n m : Nat} (h : hi = lo + m) :
    v.extractLsb' hi n ++ v.extractLsb' lo m = v.extractLsb' lo (n + m) := by
  subst h
  apply BitVec.eq_of_getLsbD_eq
  intro i hi
  simp only [BitVec.getLsbD_append, BitVec.getLsbD_extractLsb', hi, decide_true, Bool.true_and]
  by_cases hm : i < m
  · simp [hm]
  · have hhigh : i - m < n := by omega
    have hpos : lo + m + (i - m) = lo + i := by omega
    simp [hm, hhigh, hpos]

theorem extractLsb'_extractLsb' {k : Nat} (v : BitVec k) {lo n start len : Nat}
    (h : start + len ≤ n) :
    (v.extractLsb' lo n).extractLsb' start len = v.extractLsb' (lo + start) len := by
  apply BitVec.eq_of_getLsbD_eq
  intro i hi
  have hin : start + i < n := by omega
  simp only [BitVec.getLsbD_extractLsb', hi, hin, decide_true, Bool.true_and, Nat.add_assoc]

theorem place_zero (w : Word) : place w 0 = w := by
  rw [place, BitVec.setWidth_eq, BitVec.shiftLeft_zero]

/-! ## Values that fit -/

theorem setWidth_setWidth_self {n k : Nat} (v : BitVec n) (h : n ≤ k) :
    (v.setWidth k).setWidth n = v := by
  rw [BitVec.setWidth_setWidth_of_le v h, BitVec.setWidth_eq]

theorem toNat_setWidth_lt {n : Nat} (v : BitVec n) (k : Nat) : (v.setWidth k).toNat < 2 ^ n := by
  rw [BitVec.toNat_setWidth]
  exact Nat.lt_of_le_of_lt (Nat.mod_le _ _) v.isLt

theorem exists_setWidth_of_lt {n : Nat} {b : Byte} (h : b.toNat < 2 ^ n) :
    ∃ v : BitVec n, v.setWidth 8 = b := by
  refine ⟨b.setWidth n, BitVec.eq_of_toNat_eq ?_⟩
  rw [BitVec.toNat_setWidth, BitVec.toNat_setWidth, Nat.mod_eq_of_lt h, Nat.mod_eq_of_lt b.isLt]

theorem toInt_signExtend_bounds {n : Nat} (v : BitVec n) (hn : n ≤ 32) :
    -2 ^ (n - 1) ≤ (v.signExtend 32).toInt ∧ (v.signExtend 32).toInt < 2 ^ (n - 1) := by
  rw [BitVec.toInt_signExtend_of_le hn]
  exact ⟨BitVec.le_toInt v, BitVec.toInt_lt⟩

/-- A word in the signed range of `n` bits is the sign extension of its low bits. -/
theorem signExtend_setWidth_of_bounds {w : Word} {n : Nat} (hpos : 0 < n) (hn : n ≤ 32)
    (hlo : -2 ^ (n - 1) ≤ w.toInt) (hhi : w.toInt < 2 ^ (n - 1)) :
    (w.setWidth n).signExtend 32 = w := by
  have hlow : (w.setWidth n).toInt = w.toInt.bmod (2 ^ n) := by
    rw [← BitVec.signExtend_eq_setWidth_of_le w hn,
      BitVec.toInt_signExtend_eq_toInt_bmod_of_le w hn]
  have hhalf : (2 : Int) ^ n = 2 * 2 ^ (n - 1) := by
    rw [← Int.pow_succ', Nat.sub_add_cancel hpos]
  apply BitVec.eq_of_toInt_eq
  rw [BitVec.toInt_signExtend_of_le hn, hlow]
  apply Int.bmod_eq_of_le
  · push_cast
    omega
  · push_cast
    omega

theorem extractLsb'_signExtend {n lo k : Nat} (v : BitVec n) (h : lo + k ≤ n) (hn : n ≤ 32) :
    (v.signExtend 32).extractLsb' lo k = v.extractLsb' lo k := by
  apply BitVec.eq_of_getLsbD_eq
  intro i hi
  have hin : lo + i < n := by omega
  have hword : lo + i < 32 := by omega
  rw [BitVec.getLsbD_extractLsb', BitVec.getLsbD_extractLsb', BitVec.getLsbD_signExtend]
  simp only [hi, hin, hword, decide_true, Bool.true_and, if_true]

theorem setWidth_signExtend {n : Nat} (v : BitVec n) (hn : n ≤ 32) :
    (v.signExtend 32).setWidth n = v := by
  rw [BitVec.setWidth_eq_extractLsb' hn, extractLsb'_signExtend v (by omega) hn,
    BitVec.extractLsb'_eq_self]

/-! ## Low bits that are clear -/

theorem toNat_append_zero {n : Nat} (v : BitVec n) (k : Nat) :
    (v ++ 0#k).toNat = v.toNat * 2 ^ k := by
  rw [toNat_append, BitVec.toNat_zero, Nat.add_zero]

theorem exists_append_zero {n k : Nat} {v : BitVec (n + k)} (h : v.toNat % 2 ^ k = 0) :
    ∃ u : BitVec n, u ++ 0#k = v := by
  refine ⟨v.extractLsb' k n, BitVec.eq_of_toNat_eq ?_⟩
  have hdiv := Nat.div_mul_cancel (Nat.dvd_of_mod_eq_zero h)
  have hlt : v.toNat / 2 ^ k < 2 ^ n := by
    apply Nat.div_lt_of_lt_mul
    rw [Nat.mul_comm, ← Nat.pow_add]
    exact v.isLt
  rw [toNat_append_zero, BitVec.extractLsb'_toNat, Nat.shiftRight_eq_div_pow,
    Nat.mod_eq_of_lt hlt, hdiv]

theorem toNat_signExtend_mod {n k : Nat} (v : BitVec n) (hk : k ≤ n) (hn : n ≤ 32) :
    (v.signExtend 32).toNat % 2 ^ k = v.toNat % 2 ^ k := by
  have hlow := extractLsb'_signExtend v (show 0 + k ≤ n by omega) hn
  have hnat := congrArg BitVec.toNat hlow
  rwa [BitVec.extractLsb'_toNat, BitVec.extractLsb'_toNat, Nat.shiftRight_zero,
    Nat.shiftRight_zero] at hnat

theorem toInt_mod_two (w : Word) : w.toInt % 2 = (w.toNat % 2 : Nat) := by
  rw [BitVec.toInt_eq_toNat_cond]
  split <;> omega

/-- An even word in the signed range of `n + 1` bits is the extension of `n` bits and a zero. -/
theorem exists_even {w : Word} {n : Nat} (hn : n + 1 ≤ 32) (hlo : -2 ^ n ≤ w.toInt)
    (hhi : w.toInt < 2 ^ n) (heven : w.toNat % 2 = 0) :
    ∃ u : BitVec n, (u ++ 0#1).signExtend 32 = w := by
  have hext : (w.setWidth (n + 1)).signExtend 32 = w :=
    signExtend_setWidth_of_bounds (Nat.succ_pos n) hn hlo hhi
  have hlow : (w.setWidth (n + 1)).toNat % 2 ^ 1 = 0 := by
    rw [← toNat_signExtend_mod _ (Nat.le_add_left 1 n) hn, hext]
    exact heven
  obtain ⟨u, hu⟩ := exists_append_zero hlow
  exact ⟨u, by rw [hu, hext]⟩

/-- Such an extension is even, so the top of the range is left out. -/
theorem even_offset {n : Nat} (v : BitVec n) (hpos : 0 < n) (hn : n + 1 ≤ 32) :
    -2 ^ n ≤ ((v ++ 0#1).signExtend 32).toInt ∧ ((v ++ 0#1).signExtend 32).toInt ≤ 2 ^ n - 2
      ∧ ((v ++ 0#1).signExtend 32).toNat % 2 = 0 := by
  obtain ⟨hlo, hhi⟩ := toInt_signExtend_bounds (v ++ 0#1) hn
  have heven : ((v ++ 0#1).signExtend 32).toNat % 2 = 0 := by
    have hlow := toNat_signExtend_mod (v ++ 0#1) (Nat.le_add_left 1 n) hn
    rw [toNat_append_zero] at hlow
    omega
  have hint := toInt_mod_two ((v ++ 0#1).signExtend 32)
  have htop : (2 : Int) ^ n % 2 = 0 := by
    obtain ⟨m, rfl⟩ := Nat.exists_eq_add_of_lt hpos
    rw [Int.pow_succ]
    exact Int.mul_emod_left _ 2
  rw [Nat.add_sub_cancel] at hlo hhi
  exact ⟨hlo, by omega, heven⟩

end Word

end Rv32
