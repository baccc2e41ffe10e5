import Rv32.Proofs.Hart.StraightLine
import Rv32.Proofs.Instruction.RoundTrip

/-! # Operations on integers

The operations of the base group compute on words, and each has a meaning for the
integers that its operands stand for: a sum or a difference modulo 2^32, a
comparison, a product with a power of two or the floor of a quotient, or an
operation on each bit. The forms with an immediate mean the same for the operand
that the instruction word holds, which is a shift amount or a signed number.
-/

namespace Rv32

namespace ArithOp

/-- `v` is what the operation makes of `a` and `b`, in terms of the integers they stand for. -/
def Computes (op : ArithOp) (a b v : Word) : Prop :=
  match op with
  | add => v.toNat = (a.toNat + b.toNat) % 2 ^ 32
  | sub => (v.toNat : Int) = ((a.toNat : Int) - b.toNat) % 2 ^ 32
  | sll => v.toNat = a.toNat * 2 ^ (b.toNat % 32) % 2 ^ 32
  | slt => v.toNat = if a.toInt < b.toInt then 1 else 0
  | sltu => v.toNat = if a.toNat < b.toNat then 1 else 0
  | xor => ∀ i < 32, v.getLsbD i = (a.getLsbD i ^^ b.getLsbD i)
  | srl => v.toNat = a.toNat / 2 ^ (b.toNat % 32)
  | sra => v.toInt = a.toInt.fdiv (2 ^ (b.toNat % 32))
  | or => ∀ i < 32, v.getLsbD i = (a.getLsbD i || b.getLsbD i)
  | and => ∀ i < 32, v.getLsbD i = (a.getLsbD i && b.getLsbD i)

end ArithOp

theorem Word.toNat_ofBool (b : Bool) : (Word.ofBool b).toNat = if b then 1 else 0 := by
  cases b <;> rfl

/-- The value of a right shift that keeps the sign is rounded down, not towards zero. -/
theorem Word.toInt_sshiftRight (a : Word) (k : Nat) :
    (a.sshiftRight k).toInt = a.toInt.fdiv (2 ^ k) := by
  have hpos : (0 : Int) ≤ 2 ^ k := Int.pow_nonneg (by decide)
  rw [BitVec.toInt_sshiftRight, Int.shiftRight_eq_div_pow, Int.fdiv_eq_ediv_of_nonneg _ hpos]
  norm_cast

theorem ArithOp.computes_eval (op : ArithOp) (a b : Word) : op.Computes a b (op.eval a b) := by
  cases op with
  | add => exact BitVec.toNat_add a b
  | sub =>
      have ha := a.isLt
      have hb := b.isLt
      simp only [Computes, eval, BitVec.toNat_sub]
      omega
  | sll => simp only [Computes, eval, BitVec.toNat_shiftLeft, Nat.shiftLeft_eq]
  | slt => simp only [Computes, eval, Word.toNat_ofBool, BitVec.slt_iff_toInt_lt]
  | sltu => simp only [Computes, eval, Word.toNat_ofBool, BitVec.ult_iff_toNat_lt]
  | xor => exact fun i _ => BitVec.getLsbD_xor
  | srl => simp only [Computes, eval, BitVec.toNat_ushiftRight, Nat.shiftRight_eq_div_pow]
  | sra => exact a.toInt_sshiftRight _
  | or => exact fun i _ => BitVec.getLsbD_or
  | and => exact fun i _ => BitVec.getLsbD_and

/-! ## Immediate forms -/

def ImmArithOp.isShift : ImmArithOp → Bool
  | slli => true
  | srli => true
  | srai => true
  | _ => false

/-- The operand of the immediate form `op`, which the register form has in its second register. -/
def IType.operand (x : IType) (op : ImmArithOp) : Word :=
  if op.isShift then x.shamt.setWidth 32 else x.imm

namespace Machine

variable {β : Type} [Bus β]

end Machine

end Rv32
