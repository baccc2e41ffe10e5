import Rv32.Bus

/-! # Accesses

What an access asks for, and the bytes that it gets. Of these only a read gets
any, and a read that reaches nothing gets zeros.
-/

namespace Rv32

namespace Access

variable {β : Type}

def address : Access → Word
  | read address _ => address
  | write address _ => address

def size : Access → Nat
  | read _ size => size
  | write _ bytes => bytes.length

def movedTo (place : Word) : Access → Access
  | read _ size => read place size
  | write _ bytes => write place bytes

def answer [Bus β] (bus : β) : Access → List Byte
  | read address size => (Bus.read bus address size).1
  | write _ _ => []

/-- The bytes that a read gets which reaches nothing. -/
def zeros : Access → List Byte
  | read _ size => zeroBytes size
  | write _ _ => []

end Access

end Rv32
