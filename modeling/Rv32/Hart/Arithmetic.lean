import Rv32.Instruction.Operation
import Rv32.Word

/-!
# Arithmetic on words

The functions that the arithmetic instructions compute, on 32-bit words. Every
function is total: sums and products are taken modulo 2^32, shifts use the five
low bits of their amount, and division by zero has a defined result.
-/

namespace Rv32

def ArithOp.eval (op : ArithOp) (a b : Word) : Word :=
  match op with
  | add => a + b
  | sub => a - b
  | sll => a <<< (b.toNat % 32)
  | slt => Word.ofBool (a.slt b)
  | sltu => Word.ofBool (a.ult b)
  | xor => a ^^^ b
  | srl => a >>> (b.toNat % 32)
  | sra => a.sshiftRight (b.toNat % 32)
  | or => a ||| b
  | and => a &&& b

def highProduct (a b : DoubleWord) : Word :=
  DoubleWord.half (a * b) .high

/--
The value of a multiplication or division. A division by zero has a quotient
with all bits set and the dividend as its remainder; the one signed division
that overflows has the dividend as its quotient and zero as its remainder.
-/
def MulDivOp.eval (op : MulDivOp) (a b : Word) : Word :=
  match op with
  | mul => a * b
  | mulh => highProduct (a.signExtend 64) (b.signExtend 64)
  | mulhsu => highProduct (a.signExtend 64) (b.setWidth 64)
  | mulhu => highProduct (a.setWidth 64) (b.setWidth 64)
  | div => if b = 0 then BitVec.allOnes 32 else a.sdiv b
  | divu => if b = 0 then BitVec.allOnes 32 else a / b
  | rem => if b = 0 then a else a.srem b
  | remu => if b = 0 then a else a % b

def AmoOp.eval (op : AmoOp) (m s : Word) : Word :=
  match op with
  | swap => s
  | add => m + s
  | xor => m ^^^ s
  | and => m &&& s
  | or => m ||| s
  | min => if m.sle s then m else s
  | max => if m.sle s then s else m
  | minu => if m.ule s then m else s
  | maxu => if m.ule s then s else m

def BranchOp.holds (op : BranchOp) (a b : Word) : Bool :=
  match op with
  | beq => a == b
  | bne => a != b
  | blt => a.slt b
  | bge => !a.slt b
  | bltu => a.ult b
  | bgeu => !a.ult b

def LoadOp.width : LoadOp → Nat
  | lb => 1
  | lh => 2
  | lw => 4
  | lbu => 1
  | lhu => 2

def LoadOp.extend (op : LoadOp) (bytes : List Byte) : Word :=
  match op with
  | lb => (ofLeBytes 8 bytes).signExtend 32
  | lh => (ofLeBytes 16 bytes).signExtend 32
  | lw => ofLeBytes 32 bytes
  | lbu => (ofLeBytes 8 bytes).setWidth 32
  | lhu => (ofLeBytes 16 bytes).setWidth 32

def StoreOp.width : StoreOp → Nat
  | sb => 1
  | sh => 2
  | sw => 4

end Rv32
