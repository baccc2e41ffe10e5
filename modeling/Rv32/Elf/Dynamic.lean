import Rv32.Elf.StringTable
import Rv32.Log

/-!
# Dynamic linking of ELF files

What the dynamic segment of a file says about its names, its relocations and
its symbols. Programs are loaded without it, but a file is refused if a part
that the segment points at does not lie in the file.
-/

namespace Rv32.Elf

/-- The tags and values of the dynamic segment, up to the entry that ends it. -/
structure Dynamic where
  entries : List (Nat × Nat)
  deriving DecidableEq, Repr

namespace Dynamic

/-! ## Tags -/

/-- The tag that ends the entries. -/
def endTag : Nat := 0

/-- The offset of the name of a library that the file needs, in the names. -/
def libraryTag : Nat := 1

/-- The size of the relocations of the jump table. -/
def jumpSizeTag : Nat := 2

/-- The address of the plain hash table of the symbols. -/
def hashTag : Nat := 4

/-- The address of the names. -/
def namesTag : Nat := 5

/-- The address of the symbols. -/
def symbolsTag : Nat := 6

/-- The address of the relocations with addends. -/
def addendRelocationsTag : Nat := 7

/-- The size of the relocations with addends. -/
def addendRelocationsSizeTag : Nat := 8

/-- The size of the names. -/
def namesSizeTag : Nat := 10

/-- The address of the relocations without addends. -/
def relocationsTag : Nat := 17

/-- The size of the relocations without addends. -/
def relocationsSizeTag : Nat := 18

/-- The tag of those relocations that those of the jump table are like. -/
def jumpKindTag : Nat := 20

/-- The address of the relocations of the jump table. -/
def jumpTag : Nat := 23

/-- The address of the filtered hash table of the symbols. -/
def filteredHashTag : Nat := 0x6FFFFEF5

/-! ## Entries -/

/-- The dynamic segment of a file, if it has one. Of several the first counts. -/
def ofFile (format : Format) (file : Content) (segments : List Segment) :
    Except ParseError (Option Dynamic) :=
  match segments.find? fun s => s.kind == Segment.dynamicKind with
  | none => .ok none
  | some s => do
      let layout := format.fileClass.dynamic
      let bytes ← file.bytesAt s.offset s.fileSize
      let entries := (bytes.cut layout.size (s.fileSize / layout.size)).map fun record =>
        (layout.tag.value format.order record, layout.value.value format.order record)
      return some ⟨entries.takeWhile fun e => e.1 != endTag⟩

/-- The value of the last entry with the tag. -/
def value? (d : Dynamic) (tag : Nat) : Option Nat :=
  d.entries.reverse.lookup tag

/-- The value of the last entry with the tag, or zero without such an entry. -/
def value (d : Dynamic) (tag : Nat) : Nat :=
  (d.value? tag).getD 0

/-- Where the byte that is loaded to `address` stands in the file. -/
def fileOffset? (segments : List Segment) (address : Nat) : Option Nat :=
  let holds := fun (s : Segment) =>
    s.isLoaded && decide (s.virtualAddress ≤ address) &&
      decide (address - s.virtualAddress < s.memorySize)
  match segments.find? holds with
  | none => none
  | some s =>
      let offset := s.offset + (address - s.virtualAddress)
      if offset < addressLimit then some offset else none

/-- Where the part that the entry with the tag points at stands in the file. -/
def offset? (d : Dynamic) (segments : List Segment) (tag : Nat) : Option Nat :=
  d.value? tag >>= fileOffset? segments

/-- Where the part stands in the file, or zero if it is not loaded. -/
def offset (d : Dynamic) (segments : List Segment) (tag : Nat) : Nat :=
  (d.offset? segments tag).getD 0

end Dynamic

/-! ## Libraries -/

namespace Dynamic

def names (d : Dynamic) (file : Content) (segments : List Segment) :
    Except ParseError StringTable :=
  StringTable.ofFile file (d.offset segments namesTag) (d.value namesSizeTag)

/-- The offsets of needed libraries at which there is no name. -/
def unnamedLibraries (d : Dynamic) (names : StringTable) : List Nat :=
  (d.entries.filter fun e => e.1 == libraryTag && (names.nameAt? e.2).isNone).map Prod.snd

def notices (d : Dynamic) (names : StringTable) : List Message :=
  (d.unnamedLibraries names).map fun offset => ⟨.warn, s!"Invalid DT_NEEDED {offset}"⟩

end Dynamic

/-! ## Relocations -/

def relocatedSymbols (format : Format) (file : Content) (offset size : Nat)
    (withAddend : Bool) : Except ParseError (List Nat) := do
  let layout := format.fileClass.relocation
  let step := if withAddend then layout.sizeWithAddend else layout.size
  let bytes ← file.bytesAt offset size
  return (bytes.cut step (size / step)).map fun record =>
    layout.info.value format.order record / layout.kinds

/-! ## Counts of symbols -/

/-- The machines of which the plain hash tables have double words in files of the wider class. -/
def wideHashMachines : List Nat := [22, 41]

/-- The number of symbols in a plain hash table, the second of its numbers. -/
def hashCount (format : Format) (machine : Nat) (file : Content) (offset : Nat) :
    Except ParseError Nat :=
  let isWide := format.fileClass == .bits64 && wideHashMachines.contains machine
  file.numberAt format.order (offset + 4) (if isWide then 8 else 4)

/-- The length of the chain at `offset`, of which the first odd number is the last. -/
def chainLength (order : ByteOrder) (file : Content) (offset : Nat) : Except ParseError Nat :=
  if offset + 4 ≤ file.size then
    if order.number (file.extract offset (offset + 4)) % 2 = 1 then .ok 1
    else (· + 1) <$> chainLength order file (offset + 4)
  else .error (.beyondEnd offset 4)
termination_by file.size - offset

/--
The number of symbols in a filtered hash table. Each bucket starts a chain of
symbols, so the table ends with the chain that starts last.
-/
def filteredHashCount (format : Format) (file : Content) (offset : Nat) :
    Except ParseError Nat := do
  let number := fun offset => file.numberAt format.order offset 4
  let buckets ← number offset
  let first ← number (offset + 4)
  let filter ← number (offset + 8)
  if buckets = 0 ∨ first = 0 ∨ filter = 0 then throw (.emptyHash offset)
  let bucketsOffset := offset + 16 + filter * format.fileClass.filterWordSize
  let starts ← file.piece bucketsOffset (4 * buckets)
  let last := ((starts.cut 4 buckets).map format.order.number).foldl max 0
  if last < first then return 0
  let chainOffset := bucketsOffset + 4 * buckets + 4 * (last - first)
  return last + (← chainLength format.order file chainOffset)

/-! ## Check -/

namespace Dynamic

/-- The number of symbols that the hash table of the file counts. -/
def hashedCount (d : Dynamic) (format : Format) (machine : Nat) (file : Content)
    (segments : List Segment) : Except ParseError Nat :=
  match d.offset? segments filteredHashTag, d.offset? segments hashTag with
  | some offset, _ => filteredHashCount format file offset
  | none, some offset => hashCount format machine file offset
  | none, none => .ok 0

/-- The numbers of the symbols that the relocations of the file are for. -/
def relocated (d : Dynamic) (format : Format) (file : Content) (segments : List Segment) :
    Except ParseError (List Nat) := do
  let symbols := fun tag sizeTag =>
    relocatedSymbols format file (d.offset segments tag) (d.value sizeTag)
  let withAddend ← symbols addendRelocationsTag addendRelocationsSizeTag true
  let withoutAddend ← symbols relocationsTag relocationsSizeTag false
  let ofJumps ← symbols jumpTag jumpSizeTag (d.value jumpKindTag == addendRelocationsTag)
  return withAddend ++ withoutAddend ++ ofJumps

/-- Refuses a file in which relocations or symbols are missing that its segment points at. -/
def check (d : Dynamic) (format : Format) (machine : Nat) (file : Content)
    (segments : List Segment) : Except ParseError Unit := do
  let last := (← d.relocated format file segments).foldl max 0
  let hashed ← d.hashedCount format machine file segments
  let count := if last = 0 then hashed else max hashed (last + 1)
  let _ ← file.piece (d.offset segments symbolsTag) (count * format.fileClass.symbol.size)

end Dynamic

end Rv32.Elf
