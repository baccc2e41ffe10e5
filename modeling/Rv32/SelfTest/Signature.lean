import Rv32.Elf.File
import Rv32.Memory.Ram
import Rv32.Numeral

/-!
# Signatures of self-test programs

A self-test program may leave words in memory that are compared with those of
another machine. Two symbols enclose them: the last symbol of each name counts,
the words start at a multiple of sixteen and end at a multiple of four.
-/

namespace Rv32.Signature

def beginName : String := "begin_signature"

def endName : String := "end_signature"

/-- The value, as an address, of the last symbol with the given name. -/
def lastValue? (symbols : List Elf.Symbol) (name : String) : Option Word :=
  (symbols.reverse.find? fun s => s.name? == some name).map fun s => BitVec.ofNat 32 s.value

def wordAt (ram : Ram) (a : Word) : Word :=
  ofLeBytes 32 (ram.read a 4)

/-- The words from `first` up to `last`, or nothing if the bounds are out of order or unaligned. -/
def wordsBetween? (ram : Ram) (first last : Word) : Option (List Word) :=
  if first.toNat % 16 = 0 ∧ last.toNat % 4 = 0 ∧ first ≤ last then
    some ((List.range ((last.toNat - first.toNat) / 4)).map fun i =>
      wordAt ram (first + BitVec.ofNat 32 (4 * i)))
  else none

/-- The signature that the symbols enclose, if they enclose one. -/
def extract? (symbols : List Elf.Symbol) (ram : Ram) : Option (List Word) :=
  match lastValue? symbols beginName, lastValue? symbols endName with
  | some first, some last => wordsBetween? ram first last
  | _, _ => none

def text (words : List Word) : String :=
  String.join (words.map fun w => Numeral.bareHex 8 w.toNat ++ "\n")

end Rv32.Signature
