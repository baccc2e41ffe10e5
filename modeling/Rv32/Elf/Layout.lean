import Rv32.Elf.Content

/-!
# Layout of ELF files

Where the fields that this library needs stand in the records of an ELF file,
for the 32-bit and the 64-bit class.
-/

namespace Rv32.Elf

/-- The place of a number in a record. -/
structure Field where
  offset : Nat
  size : Nat
  deriving DecidableEq, Repr

def Field.value (f : Field) (order : ByteOrder) (record : Content) : Nat :=
  order.number (record.extract f.offset (f.offset + f.size))

/-- The class of a file, which says how wide its addresses are. -/
inductive FileClass where
  | bits32
  | bits64
  deriving DecidableEq, Repr

/-- How the records of a file are written. -/
structure Format where
  fileClass : FileClass
  order : ByteOrder
  deriving DecidableEq, Repr

structure HeaderLayout where
  size : Nat
  machine : Field
  entry : Field
  segmentOffset : Field
  sectionOffset : Field
  segmentCount : Field
  sectionCount : Field
  nameSection : Field

structure SegmentLayout where
  size : Nat
  kind : Field
  offset : Field
  virtualAddress : Field
  address : Field
  fileSize : Field
  memorySize : Field

structure SectionLayout where
  size : Nat
  name : Field
  kind : Field
  flags : Field
  address : Field
  offset : Field
  length : Field
  link : Field
  entrySize : Field

structure SymbolLayout where
  size : Nat
  name : Field
  value : Field

structure DynamicLayout where
  size : Nat
  tag : Field
  value : Field

structure RelocationLayout where
  size : Nat
  sizeWithAddend : Nat
  -- The number of a symbol times `kinds`, and the kind of the relocation below that.
  info : Field
  kinds : Nat

namespace FileClass

def header : FileClass → HeaderLayout
  | bits32 =>
      { size := 52
        machine := ⟨18, 2⟩
        entry := ⟨24, 4⟩
        segmentOffset := ⟨28, 4⟩
        sectionOffset := ⟨32, 4⟩
        segmentCount := ⟨44, 2⟩
        sectionCount := ⟨48, 2⟩
        nameSection := ⟨50, 2⟩ }
  | bits64 =>
      { size := 64
        machine := ⟨18, 2⟩
        entry := ⟨24, 8⟩
        segmentOffset := ⟨32, 8⟩
        sectionOffset := ⟨40, 8⟩
        segmentCount := ⟨56, 2⟩
        sectionCount := ⟨60, 2⟩
        nameSection := ⟨62, 2⟩ }

def segment : FileClass → SegmentLayout
  | bits32 =>
      { size := 32
        kind := ⟨0, 4⟩
        offset := ⟨4, 4⟩
        virtualAddress := ⟨8, 4⟩
        address := ⟨12, 4⟩
        fileSize := ⟨16, 4⟩
        memorySize := ⟨20, 4⟩ }
  | bits64 =>
      { size := 56
        kind := ⟨0, 4⟩
        offset := ⟨8, 8⟩
        virtualAddress := ⟨16, 8⟩
        address := ⟨24, 8⟩
        fileSize := ⟨32, 8⟩
        memorySize := ⟨40, 8⟩ }

def section_ : FileClass → SectionLayout
  | bits32 =>
      { size := 40
        name := ⟨0, 4⟩
        kind := ⟨4, 4⟩
        flags := ⟨8, 4⟩
        address := ⟨12, 4⟩
        offset := ⟨16, 4⟩
        length := ⟨20, 4⟩
        link := ⟨24, 4⟩
        entrySize := ⟨36, 4⟩ }
  | bits64 =>
      { size := 64
        name := ⟨0, 4⟩
        kind := ⟨4, 4⟩
        flags := ⟨8, 8⟩
        address := ⟨16, 8⟩
        offset := ⟨24, 8⟩
        length := ⟨32, 8⟩
        link := ⟨40, 4⟩
        entrySize := ⟨56, 8⟩ }

def symbol : FileClass → SymbolLayout
  | bits32 => { size := 16, name := ⟨0, 4⟩, value := ⟨4, 4⟩ }
  | bits64 => { size := 24, name := ⟨0, 4⟩, value := ⟨8, 8⟩ }

def dynamic : FileClass → DynamicLayout
  | bits32 => { size := 8, tag := ⟨0, 4⟩, value := ⟨4, 4⟩ }
  | bits64 => { size := 16, tag := ⟨0, 8⟩, value := ⟨8, 8⟩ }

def relocation : FileClass → RelocationLayout
  | bits32 => { size := 8, sizeWithAddend := 12, info := ⟨4, 4⟩, kinds := 0x100 }
  | bits64 => { size := 16, sizeWithAddend := 24, info := ⟨8, 8⟩, kinds := 0x100000000 }

/-- The size of a word of the filter in front of a filtered hash table. -/
def filterWordSize : FileClass → Nat
  | bits32 => 4
  | bits64 => 8

end FileClass

end Rv32.Elf
