import Mathlib.Algebra.Group.Int.Defs
import Mathlib.Algebra.Group.Nat.Defs
import Rv32.Proofs.DoubleWord
import Rv32.Proofs.Hart.StraightLine

/-! # Products and quotients are exact

The multiplications and divisions compute on words, but what they leave is a
statement about integers: the two halves of a product are the product of the
integers that the operands stand for, and a quotient and its remainder are those
of the division that rounds towards zero. A product of two words fits into a
double word and no division is made by zero, so nothing that is computed on the
way is cut off or undefined.
-/

namespace Rv32

/-! ## Halves of a product -/

namespace DoubleWord

theorem half_low (v : DoubleWord) : v.half .low = v.setWidth 32 :=
  (BitVec.setWidth_eq_extractLsb' (by decide)).symm

theorem toInt_halves (v : DoubleWord) :
    (v.half .high).toInt * 2 ^ 32 + (v.half .low).toNat = v.toInt := by
  have happend := congrArg BitVec.toInt v.high_append_low
  rw [BitVec.toInt_append, if_neg (by decide), Int.mul_comm] at happend
  exact happend

/-- The low half of a product depends on the low halves of the factors only. -/
theorem low_mul (v w : DoubleWord) : (v * w).half .low = v.half .low * w.half .low := by
  rw [half_low, half_low, half_low, BitVec.setWidth_mul v w (by decide)]

/-- A signed word times a word of either kind fits into a signed double word. -/
theorem smulOverflow_eq_false {v w : DoubleWord} (hv : v.toInt.natAbs ≤ 2 ^ 31)
    (hw : w.toInt.natAbs ≤ 2 ^ 32 - 1) : v.smulOverflow w = false := by
  have hprod : (v.toInt * w.toInt).natAbs ≤ 2 ^ 31 * (2 ^ 32 - 1) := by
    rw [Int.natAbs_mul]
    exact Nat.mul_le_mul hv hw
  rw [BitVec.smulOverflow, Bool.or_eq_false_iff, decide_eq_false_iff_not, decide_eq_false_iff_not]
  omega

theorem umulOverflow_eq_false {v w : DoubleWord} (hv : v.toNat ≤ 2 ^ 32 - 1)
    (hw : w.toNat ≤ 2 ^ 32 - 1) : v.umulOverflow w = false := by
  have hprod : v.toNat * w.toNat ≤ (2 ^ 32 - 1) * (2 ^ 32 - 1) := Nat.mul_le_mul hv hw
  rw [BitVec.umulOverflow, decide_eq_false_iff_not]
  omega

end DoubleWord

namespace Word

@[simp] theorem low_signExtend_64 (a : Word) : DoubleWord.half (a.signExtend 64) .low = a := by
  rw [DoubleWord.half_low]
  apply BitVec.eq_of_getLsbD_eq
  intro i hi
  rw [BitVec.getLsbD_setWidth, BitVec.getLsbD_signExtend]
  simp [hi, show i < 64 by omega]

@[simp] theorem low_setWidth_64 (a : Word) : DoubleWord.half (a.setWidth 64) .low = a := by
  rw [DoubleWord.half_low, BitVec.setWidth_setWidth_of_le a (by decide), BitVec.setWidth_eq]

theorem toInt_signExtend_64 (a : Word) : (a.signExtend 64).toInt = a.toInt :=
  BitVec.toInt_signExtend_of_le (by decide)

theorem toNat_setWidth_64 (a : Word) : (a.setWidth 64).toNat = a.toNat :=
  BitVec.toNat_setWidth_of_le (by decide)

theorem toInt_setWidth_64 (a : Word) : (a.setWidth 64).toInt = a.toNat := by
  have hbound := a.isLt
  have hsame := a.toNat_setWidth_64
  rw [BitVec.toInt_eq_toNat_of_lt (by omega), hsame]

theorem natAbs_toInt_le (a : Word) : a.toInt.natAbs ≤ 2 ^ 31 := by
  have hlo := BitVec.le_toInt a
  have hhi := BitVec.toInt_lt (x := a)
  omega

end Word

theorem toInt_highProduct {v w : DoubleWord} (hfit : v.smulOverflow w = false) :
    (highProduct v w).toInt * 2 ^ 32 + (v.half .low * w.half .low).toNat =
      v.toInt * w.toInt := by
  rw [← DoubleWord.low_mul, highProduct, DoubleWord.toInt_halves]
  exact BitVec.toInt_mul_of_not_smulOverflow (Bool.eq_false_iff.mp hfit)

theorem toNat_highProduct {v w : DoubleWord} (hfit : v.umulOverflow w = false) :
    (highProduct v w).toNat * 2 ^ 32 + (v.half .low * w.half .low).toNat =
      v.toNat * w.toNat := by
  rw [← DoubleWord.low_mul, highProduct, DoubleWord.toNat_halves]
  exact BitVec.toNat_mul_of_not_umulOverflow (Bool.eq_false_iff.mp hfit)

namespace MulDivOp

/-- The high results, each with the low one below it, are the products of the operands. -/
structure ExactProducts (a b : Word) (result : MulDivOp → Word) : Prop where
  mulh : (result .mulh).toInt * 2 ^ 32 + (result .mul).toNat = a.toInt * b.toInt
  mulhsu : (result .mulhsu).toInt * 2 ^ 32 + (result .mul).toNat = a.toInt * b.toNat
  mulhu : (result .mulhu).toNat * 2 ^ 32 + (result .mul).toNat = a.toNat * b.toNat

/-- `q` and `r` are quotient and remainder of `a` by `b`, both signed, rounded towards zero. -/
structure SignedDivision (a b q r : Word) : Prop where
  exact : b ≠ 0 → ¬ (a.toInt = -2 ^ 31 ∧ b.toInt = -1) →
    a.toInt = b.toInt * q.toInt + r.toInt ∧ r.toInt.natAbs < b.toInt.natAbs ∧
      (r = 0 ∨ r.toInt.sign = a.toInt.sign)
  byZero : b = 0 → q = .allOnes 32 ∧ r = a
  overflow : a.toInt = -2 ^ 31 → b.toInt = -1 → q.toInt = -2 ^ 31 ∧ r = 0
  wraps : q * b + r = a

structure UnsignedDivision (a b q r : Word) : Prop where
  exact : b ≠ 0 → a.toNat = b.toNat * q.toNat + r.toNat ∧ r.toNat < b.toNat
  byZero : b = 0 → q = .allOnes 32 ∧ r = a
  wraps : q * b + r = a

/-! ## Products -/

section

variable (a b : Word)

theorem fits_mulh : BitVec.smulOverflow (a.signExtend 64) (b.signExtend 64) = false := by
  apply DoubleWord.smulOverflow_eq_false
  · rw [a.toInt_signExtend_64]
    exact a.natAbs_toInt_le
  · rw [b.toInt_signExtend_64]
    have hbound := b.natAbs_toInt_le
    omega

theorem fits_mulhsu : BitVec.smulOverflow (a.signExtend 64) (b.setWidth 64) = false := by
  apply DoubleWord.smulOverflow_eq_false
  · rw [a.toInt_signExtend_64]
    exact a.natAbs_toInt_le
  · rw [b.toInt_setWidth_64]
    have hbound := b.isLt
    omega

theorem fits_mulhu : BitVec.umulOverflow (a.setWidth 64) (b.setWidth 64) = false := by
  have ha := a.isLt
  have hb := b.isLt
  apply DoubleWord.umulOverflow_eq_false
  · rw [a.toNat_setWidth_64]
    omega
  · rw [b.toNat_setWidth_64]
    omega

theorem exactProducts : ExactProducts a b (·.eval a b) where
  mulh := by
    have hproduct := toInt_highProduct (fits_mulh a b)
    rw [a.low_signExtend_64, b.low_signExtend_64, a.toInt_signExtend_64,
      b.toInt_signExtend_64] at hproduct
    exact hproduct
  mulhsu := by
    have hproduct := toInt_highProduct (fits_mulhsu a b)
    rw [a.low_signExtend_64, b.low_setWidth_64, a.toInt_signExtend_64,
      b.toInt_setWidth_64] at hproduct
    exact hproduct
  mulhu := by
    have hproduct := toNat_highProduct (fits_mulhu a b)
    rw [a.low_setWidth_64, b.low_setWidth_64, a.toNat_setWidth_64,
      b.toNat_setWidth_64] at hproduct
    exact hproduct

/-- The signed operand is negative and the top bit of the unsigned one is set. -/
example : mulhsu.eval (-3) 0x80000000 = 0xFFFFFFFE := by decide

end

/-! ## Divisions -/

section

variable {a b : Word}

theorem eq_intMin_of_toInt (h : a.toInt = -2 ^ 31) : a = .intMin 32 :=
  BitVec.eq_of_toInt_eq h

theorem eq_neg_one_of_toInt (h : b.toInt = -1) : b = -1#32 :=
  BitVec.eq_of_toInt_eq h

theorem toInt_divide (hsafe : ¬ (a.toInt = -2 ^ 31 ∧ b.toInt = -1)) :
    a.toInt = b.toInt * (a.sdiv b).toInt + (a.srem b).toInt := by
  have hquotient : (a.sdiv b).toInt = a.toInt.tdiv b.toInt := by
    apply BitVec.toInt_sdiv_of_ne_or_ne
    rw [← Decidable.not_and_iff_not_or_not]
    rintro ⟨rfl, rfl⟩
    exact hsafe ⟨rfl, rfl⟩
  rw [hquotient, BitVec.toInt_srem, Int.mul_tdiv_add_tmod]

theorem natAbs_srem_lt (a : Word) (hb : b ≠ 0) : (a.srem b).toInt.natAbs < b.toInt.natAbs := by
  have hpos : 0 < b.toInt.natAbs :=
    Int.natAbs_pos.mpr fun hzero => hb (BitVec.eq_of_toInt_eq hzero)
  rw [BitVec.toInt_srem, Int.natAbs_tmod]
  exact Nat.mod_lt _ hpos

/-- A remainder that is not zero has the sign of the dividend. -/
theorem sign_srem (a b : Word) : a.srem b = 0 ∨ (a.srem b).toInt.sign = a.toInt.sign := by
  have hsign := Int.sign_tmod a.toInt b.toInt
  rw [← BitVec.toInt_srem] at hsign
  split at hsign
  · left
    exact BitVec.eq_of_toInt_eq (Int.sign_eq_zero_iff_zero.mp hsign)
  · exact .inr hsign

/-- What holds of the integers holds of the words, on which sums and products wrap. -/
theorem wraps_of_toInt {q r : Word} (h : a.toInt = b.toInt * q.toInt + r.toInt) :
    q * b + r = a := by
  have hword := congrArg (BitVec.ofInt 32) h
  rw [BitVec.ofInt_add, BitVec.ofInt_mul] at hword
  simp only [BitVec.ofInt_toInt] at hword
  rw [hword, BitVec.mul_comm]

end

theorem wraps_of_zero (a : Word) : BitVec.allOnes 32 * 0#32 + a = a := by
  rw [BitVec.mul_zero, BitVec.zero_add]

theorem signedDivision (a b : Word) : SignedDivision a b (div.eval a b) (rem.eval a b) := by
  by_cases hzero : b = 0
  · subst hzero
    exact
      { exact := fun hb => absurd rfl hb
        byZero := fun _ => ⟨rfl, rfl⟩
        overflow := fun _ hb => absurd hb (by decide)
        wraps := wraps_of_zero a }
  · have hdiv : div.eval a b = a.sdiv b := if_neg hzero
    have hrem : rem.eval a b = a.srem b := if_neg hzero
    rw [hdiv, hrem]
    have hoverflow (ha : a.toInt = -2 ^ 31) (hb : b.toInt = -1) :
        a.sdiv b = .intMin 32 ∧ a.srem b = 0 := by
      rw [eq_intMin_of_toInt ha, eq_neg_one_of_toInt hb]
      decide
    refine
      { exact := fun _ hsafe => ⟨toInt_divide hsafe, natAbs_srem_lt a hzero, sign_srem a b⟩
        byZero := fun hb => absurd hb hzero
        overflow := fun ha hb => ?_
        wraps := ?_ }
    · obtain ⟨hq, hr⟩ := hoverflow ha hb
      rw [hq, hr]
      exact ⟨rfl, rfl⟩
    · by_cases hsafe : a.toInt = -2 ^ 31 ∧ b.toInt = -1
      · obtain ⟨hq, hr⟩ := hoverflow hsafe.1 hsafe.2
        rw [hq, hr, eq_intMin_of_toInt hsafe.1, eq_neg_one_of_toInt hsafe.2]
        decide
      · exact wraps_of_toInt (toInt_divide hsafe)

theorem unsignedDivision (a b : Word) : UnsignedDivision a b (divu.eval a b) (remu.eval a b) := by
  by_cases hzero : b = 0
  · subst hzero
    exact
      { exact := fun hb => absurd rfl hb
        byZero := fun _ => ⟨rfl, rfl⟩
        wraps := wraps_of_zero a }
  · have hdiv : divu.eval a b = a / b := if_neg hzero
    have hrem : remu.eval a b = a % b := if_neg hzero
    have hpos : 0 < b.toNat := Nat.pos_of_ne_zero fun h => hzero (BitVec.eq_of_toNat_eq h)
    have hnat : b.toNat * (a / b).toNat + (a % b).toNat = a.toNat := by
      rw [BitVec.toNat_udiv, BitVec.toNat_umod, Nat.div_add_mod]
    rw [hdiv, hrem]
    refine
      { exact := fun _ => ⟨hnat.symm, Nat.mod_lt _ hpos⟩
        byZero := fun hb => absurd hb hzero
        wraps := ?_ }
    have hword := congrArg (BitVec.ofNat 32) hnat
    rw [BitVec.ofNat_add, BitVec.ofNat_mul] at hword
    simp only [BitVec.ofNat_toNat, BitVec.setWidth_eq] at hword
    rw [BitVec.mul_comm, hword]

/-! ## Steps that may fail -/

def signedProduct? (v w : DoubleWord) : Option DoubleWord :=
  if v.smulOverflow w then none else some (v * w)

def unsignedProduct? (v w : DoubleWord) : Option DoubleWord :=
  if v.umulOverflow w then none else some (v * w)

def divided? (divide : Word → Word → Word) (a b : Word) : Option Word :=
  if b = 0 then none else some (divide a b)

/--
The value of the operation as it is computed, step by step. A product that does
not fit into a double word and a division by zero have no value.
-/
def checked? (op : MulDivOp) (a b : Word) : Option Word :=
  match op with
  | mul => some (a * b)
  | mulh => (signedProduct? (a.signExtend 64) (b.signExtend 64)).map (DoubleWord.half · .high)
  | mulhsu => (signedProduct? (a.signExtend 64) (b.setWidth 64)).map (DoubleWord.half · .high)
  | mulhu => (unsignedProduct? (a.setWidth 64) (b.setWidth 64)).map (DoubleWord.half · .high)
  | div => if b = 0 then some (.allOnes 32) else divided? BitVec.sdiv a b
  | divu => some ((divided? (· / ·) a b).getD (.allOnes 32))
  | rem => if b = 0 then some a else divided? BitVec.srem a b
  | remu => some ((divided? (· % ·) a b).getD a)

theorem signedProduct?_eq {v w : DoubleWord} (hfit : v.smulOverflow w = false) :
    signedProduct? v w = some (v * w) := by
  rw [signedProduct?, hfit, if_neg Bool.false_ne_true]

theorem unsignedProduct?_eq {v w : DoubleWord} (hfit : v.umulOverflow w = false) :
    unsignedProduct? v w = some (v * w) := by
  rw [unsignedProduct?, hfit, if_neg Bool.false_ne_true]

/-- A zero that is looked for first is never divided by. -/
theorem guarded_divided? (divide : Word → Word → Word) (a b v : Word) :
    (if b = 0 then some v else divided? divide a b) = some (if b = 0 then v else divide a b) := by
  unfold divided?
  split
  · rfl
  · rfl

theorem getD_divided? (divide : Word → Word → Word) (a b v : Word) :
    (divided? divide a b).getD v = if b = 0 then v else divide a b := by
  unfold divided?
  split
  · rfl
  · rfl

/-- No step of the computation fails. -/
theorem checked?_eq (op : MulDivOp) (a b : Word) : op.checked? a b = some (op.eval a b) := by
  cases op with
  | mul => rfl
  | mulh =>
      rw [checked?, signedProduct?_eq (fits_mulh a b)]
      rfl
  | mulhsu =>
      rw [checked?, signedProduct?_eq (fits_mulhsu a b)]
      rfl
  | mulhu =>
      rw [checked?, unsignedProduct?_eq (fits_mulhu a b)]
      rfl
  | div => exact guarded_divided? _ a b _
  | rem => exact guarded_divided? _ a b _
  | divu => exact congrArg some (getD_divided? _ a b _)
  | remu => exact congrArg some (getD_divided? _ a b _)

end MulDivOp

namespace Machine

open MulDivOp

variable {β : Type} [Bus β]

/-- What `m` does with `op` on `rs1` and `rs2` completes and leaves `v` in its destination. -/
def Yields (m : Machine β) (op : MulDivOp) (rs1 rs2 : Register) (v : Word) : Prop :=
  ∀ x : RType, x.operation? = some (.mulDiv op) → x.rs1 = rs1 → x.rs2 = rs2 →
    m.execute (.r x) = .ok (.completed, { m with hart := m.hart.writeBack x.rd v }) ∧
      m.hart.Receives x.rd v (m.hart.writeBack x.rd v)

theorem yields_eval (m : Machine β) (op : MulDivOp) (rs1 rs2 : Register) :
    m.Yields op rs1 rs2 (op.eval (m.hart.x rs1) (m.hart.x rs2)) := by
  rintro x hop rfl rfl
  exact ⟨m.execute_reg hop, m.hart.receives_writeBack x.rd _⟩

/--
Multiplications and divisions of registers complete without a step that fails,
and are exact: a high result together with the low one is the product of the
integers that the operands stand for, and quotient and remainder are those of
the division that rounds towards zero, with the values of the two cases in which
there is no such division or no word for its quotient. Quotient times divisor
plus remainder is the dividend in every case, as words.
-/
theorem mulDiv_exact (m : Machine β) (rs1 rs2 : Register) :
    let a := m.hart.x rs1
    let b := m.hart.x rs2
    (∀ op : MulDivOp, op.checked? a b = some (op.eval a b) ∧ m.Yields op rs1 rs2 (op.eval a b)) ∧
      ExactProducts a b (·.eval a b) ∧
      SignedDivision a b (MulDivOp.div.eval a b) (MulDivOp.rem.eval a b) ∧
      UnsignedDivision a b (MulDivOp.divu.eval a b) (MulDivOp.remu.eval a b) := by
  intro a b
  refine ⟨fun op => ⟨op.checked?_eq a b, m.yields_eval op rs1 rs2⟩, ?_, ?_, ?_⟩
  · exact exactProducts a b
  · exact signedDivision a b
  · exact unsignedDivision a b

end Machine

end Rv32
