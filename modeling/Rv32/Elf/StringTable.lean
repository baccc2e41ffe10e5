import Rv32.Elf.Record

/-!
# Names in ELF files

A table of names that are found by their offset, each of them ended by a zero
byte. The names have to be text.
-/

namespace Rv32.Elf

/-- Names that are found by their offset, each of them ended by a zero byte. -/
structure StringTable where
  bytes : Content
  deriving DecidableEq

namespace StringTable

def empty : StringTable :=
  ⟨#[]⟩

/-- Bytes as text, if they are the encoding of one. -/
def decode? (bytes : Content) : Option String :=
  String.fromUTF8? ⟨bytes.map UInt8.ofBitVec⟩

/--
The name at `offset`, which may be the end of a longer one. There is none
behind the last name of the table.
-/
def nameAt? (t : StringTable) (offset : Nat) : Option String :=
  let ended := t.bytes.size = 0 ∨ t.bytes.back? = some 0
  if offset < t.bytes.size ∨ offset = t.bytes.size ∧ ¬ ended then
    decode? ((t.bytes.extract offset t.bytes.size).takeWhile (· ≠ 0))
  else none

def ofFile (file : Content) (offset length : Nat) : Except ParseError StringTable :=
  let bytes := file.extract offset (offset + length)
  if file.size < offset + length then .error (.beyondEnd offset length)
  else if (decode? bytes).isNone then .error (.badNames offset)
  else .ok ⟨bytes⟩

/-- The section number that stands for the number kept as the link of the first section. -/
def indirectSection : Nat := 0xFFFF

/-- The table in section number `i`, or an empty one if there is no such section. -/
def ofSection (file : Content) (sections : List Section) (i : Nat) :
    Except ParseError StringTable :=
  let first := (sections.head?.map Section.link).getD sections.length
  let index := if i = indirectSection then first else i
  match sections[index]? with
  | none => .ok empty
  | some s => do
      s.checkBounds file
      ofFile file s.offset s.length

end StringTable

end Rv32.Elf
