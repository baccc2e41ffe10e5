import Rv32.Numeral
import Rv32.Word

/-!
# Contents of ELF files

The bytes of a file, the pieces that can be taken out of it, the numbers that
stand in them, and the reasons for which a file is refused.
-/

namespace Rv32.Elf

/-- The contents of a file, or of a piece of it. -/
abbrev Content := Array Byte

/-- The number of addresses and offsets of the wider class of files. -/
def addressLimit : Nat := 0x10000000000000000

/-- Why a file is refused. -/
inductive ParseError where
  | tooSmall
  | badMagic
  | badClass (code : Nat)
  | badByteOrder (code : Nat)
  | beyondEnd (offset size : Nat)
  | tooMany (count : Nat) (table : String)
  | badAddress (address length : Nat)
  | badNames (offset : Nat)
  | emptyHash (offset : Nat)
  deriving DecidableEq, Repr

def ParseError.message : ParseError → String
  | tooSmall => "Malformed entity: Too small"
  | badMagic => "invalid magic number"
  | badClass code => s!"invalid file class {code}"
  | badByteOrder code => s!"invalid byte order {code}"
  | beyondEnd offset size =>
      let offset := Numeral.hex offset
      s!"{size} bytes at offset {offset} extend past the end of the file"
  | tooMany count table => s!"file is too short for {count} entries of the {table} table"
  | badAddress address length =>
      let address := Numeral.address address
      s!"section of {length} bytes at {address} extends past the end of memory"
  | badNames offset =>
      let offset := Numeral.hex offset
      s!"names at offset {offset} are not valid text"
  | emptyHash offset =>
      let offset := Numeral.hex offset
      s!"hash table at offset {offset} is empty"

/-! ## Pieces -/

/-- The `size` bytes from `offset` on. A piece without bytes may stand at the end of the file. -/
def Content.piece (file : Content) (offset size : Nat) : Except ParseError Content :=
  if offset + size ≤ file.size then .ok (file.extract offset (offset + size))
  else .error (.beyondEnd offset size)

/-- The `size` bytes from `offset` on, where no bytes may stand anywhere. -/
def Content.bytesAt (file : Content) (offset size : Nat) : Except ParseError Content :=
  if size = 0 then .ok #[] else file.piece offset size

/-- The first `count` records of `size` bytes each. -/
def Content.cut (bytes : Content) (size count : Nat) : List Content :=
  (List.range count).map fun i => bytes.extract (size * i) (size * i + size)

/-- The `count` records of `size` bytes each from `offset` on. -/
def Content.records (file : Content) (table : String) (offset size count : Nat) :
    Except ParseError (List Content) :=
  if file.size / size < count then .error (.tooMany count table)
  else (List.range count).mapM fun i => file.piece (offset + size * i) size

/-! ## Numbers -/

inductive ByteOrder where
  | leastFirst
  | mostFirst
  deriving DecidableEq, Repr

def ByteOrder.number (order : ByteOrder) (bytes : Content) : Nat :=
  let ascending :=
    match order with
    | leastFirst => bytes.toList
    | mostFirst => bytes.toList.reverse
  (ofLeBytes (8 * bytes.size) ascending).toNat

def Content.numberAt (file : Content) (order : ByteOrder) (offset size : Nat) :
    Except ParseError Nat :=
  order.number <$> file.piece offset size

end Rv32.Elf
