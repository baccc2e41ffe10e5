import Rv32.Elf.Layout

/-!
# Records of ELF files

The header of a file, its segments and its sections, each made from the bytes
of its record.
-/

namespace Rv32.Elf

structure Header where
  machine : Nat
  entry : Nat
  segmentOffset : Nat
  segmentCount : Nat
  sectionOffset : Nat
  sectionCount : Nat
  nameSection : Nat
  deriving DecidableEq, Repr

/-- A part of the file that is loaded into memory as a whole, at `address`. The parts of the file
refer to each other by virtual addresses. -/
structure Segment where
  kind : Nat
  offset : Nat
  virtualAddress : Nat
  address : Nat
  fileSize : Nat
  memorySize : Nat
  deriving DecidableEq, Repr

/-- A named part of the file. -/
structure Section where
  name : Nat
  kind : Nat
  flags : Nat
  address : Nat
  offset : Nat
  length : Nat
  link : Nat
  entrySize : Nat
  deriving DecidableEq, Repr

/-! ## The format -/

def magic : Content := #[0x7F, 0x45, 0x4C, 0x46]

/-- The number of bytes that say what the file is. -/
def identificationSize : Nat := 16

def FileClass.ofCode? : Nat → Option FileClass
  | 1 => some .bits32
  | 2 => some .bits64
  | _ => none

def ByteOrder.ofCode? : Nat → Option ByteOrder
  | 1 => some .leastFirst
  | 2 => some .mostFirst
  | _ => none

/-- The format of a file, which its identification says. -/
def Format.ofFile (file : Content) : Except ParseError Format :=
  let code := fun i => (file.getD i 0).toNat
  if file.size < identificationSize then .error .tooSmall
  else if file.extract 0 4 ≠ magic then .error .badMagic
  else
    match FileClass.ofCode? (code 4), ByteOrder.ofCode? (code 5) with
    | some c, some order => .ok { fileClass := c, order := order }
    | none, _ => .error (.badClass (code 4))
    | some _, none => .error (.badByteOrder (code 5))

/-! ## The header -/

def Header.ofRecord (format : Format) (record : Content) : Header :=
  let layout := format.fileClass.header
  let value := fun (f : Field) => f.value format.order record
  { machine := value layout.machine
    entry := value layout.entry
    segmentOffset := value layout.segmentOffset
    segmentCount := value layout.segmentCount
    sectionOffset := value layout.sectionOffset
    sectionCount := value layout.sectionCount
    nameSection := value layout.nameSection }

def Header.ofFile (format : Format) (file : Content) : Except ParseError Header :=
  ofRecord format <$> file.piece 0 format.fileClass.header.size

/-! ## Segments -/

namespace Segment

def loadKind : Nat := 1

def dynamicKind : Nat := 2

def isLoaded (s : Segment) : Bool :=
  s.kind == loadKind

def ofRecord (format : Format) (record : Content) : Segment :=
  let layout := format.fileClass.segment
  let value := fun (f : Field) => f.value format.order record
  { kind := value layout.kind
    offset := value layout.offset
    virtualAddress := value layout.virtualAddress
    address := value layout.address
    fileSize := value layout.fileSize
    memorySize := value layout.memorySize }

def ofFile (format : Format) (header : Header) (file : Content) :
    Except ParseError (List Segment) :=
  List.map (ofRecord format) <$>
    file.records "segment" header.segmentOffset format.fileClass.segment.size
      header.segmentCount

end Segment

/-! ## Sections -/

namespace Section

def symbolKind : Nat := 2

/-- The kind of section that takes no place in the file. -/
def emptyKind : Nat := 8

def addendRelocationKind : Nat := 4

/-- The kind of section that holds relocations without addends. -/
def relocationKind : Nat := 9

def versionKinds : List Nat := [0x6FFFFFFF, 0x6FFFFFFD, 0x6FFFFFFE]

def isLoaded (s : Section) : Bool :=
  s.flags.testBit 1 && s.kind != emptyKind

def isRelocation (s : Section) : Bool :=
  s.kind == addendRelocationKind || s.kind == relocationKind

/-- Whether the section has bytes that have to lie in the file. -/
def hasContents (s : Section) : Bool :=
  s.kind != emptyKind && s.length != 0

/-- Refuses a section that does not lie in the file or has addresses beyond the largest one. -/
def checkBounds (s : Section) (file : Content) : Except ParseError Unit :=
  if !s.hasContents then .ok ()
  else if file.size < s.offset + s.length then .error (.beyondEnd s.offset s.length)
  else if addressLimit ≤ s.address + s.length then .error (.badAddress s.address s.length)
  else .ok ()

def ofRecord (format : Format) (record : Content) : Section :=
  let layout := format.fileClass.section_
  let value := fun (f : Field) => f.value format.order record
  { name := value layout.name
    kind := value layout.kind
    flags := value layout.flags
    address := value layout.address
    offset := value layout.offset
    length := value layout.length
    link := value layout.link
    entrySize := value layout.entrySize }

/--
The sections of a file. A table at offset zero is absent, and a count of zero
stands for the count that the first section keeps as its length.
-/
def ofFile (format : Format) (header : Header) (file : Content) :
    Except ParseError (List Section) := do
  let offset := header.sectionOffset
  let size := format.fileClass.section_.size
  if offset = 0 then return []
  let first ← ofRecord format <$> file.piece offset size
  let count := if header.sectionCount = 0 then max 1 first.length else header.sectionCount
  return (← file.records "section" offset size count).map (ofRecord format)

end Section

end Rv32.Elf
