import Rv32.Word

/-!
# Keys

The bytes that a terminal sends for a key. Modifier keys other than control
make no difference to them.
-/

namespace Rv32

inductive Key where
  | char (c : Char)
  | enter
  | backspace
  | tab
  | escape
  | up
  | down
  | left
  | right
  | silent
  deriving DecidableEq, Repr

namespace Key

def escapeByte : Byte := 0x1B

/-- The bytes for a character together with the control key: letters have codes of their own. -/
def controlBytes (c : Char) : List Byte :=
  if c.isAlpha then [BitVec.ofNat 8 c.toNat &&& 0x1F] else []

def charBytes (c : Char) : List Byte :=
  (String.utf8EncodeChar c).map UInt8.toBitVec

def bytes (control : Bool) : Key → List Byte
  | char c => if control then controlBytes c else charBytes c
  | enter => [0x0D]
  | backspace => [0x7F]
  | tab => [0x09]
  | escape => [escapeByte]
  | up => [escapeByte, 0x5B, 0x41]
  | down => [escapeByte, 0x5B, 0x42]
  | right => [escapeByte, 0x5B, 0x43]
  | left => [escapeByte, 0x5B, 0x44]
  | silent => []

end Key

end Rv32
