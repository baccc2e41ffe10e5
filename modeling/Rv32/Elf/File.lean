import Rv32.Elf.Dynamic

/-!
# ELF files

The parts of an ELF file from which programs are loaded: the entry point, the
segments, the sections and the symbols with their names. Reading a file is
refused when a part that it describes does not lie in it or when names are no
text, also where nothing is loaded from that part.
-/

namespace Rv32.Elf

/-- A symbol: its name, if it has one, and its value. -/
structure Symbol where
  name? : Option String
  value : Nat
  deriving DecidableEq, Repr

structure File where
  content : Content
  entry : Nat
  segments : List Segment
  sections : List Section
  sectionNames : StringTable
  symbols : List Symbol

/-! ## Symbols -/

def Symbol.ofRecord (format : Format) (names : StringTable) (record : Content) : Symbol :=
  let layout := format.fileClass.symbol
  { name? := names.nameAt? (layout.name.value format.order record)
    value := layout.value.value format.order record }

def Symbol.ofFile (format : Format) (file : Content) (sections : List Section) :
    Except ParseError (List Symbol) :=
  match sections.reverse.find? fun s => s.kind == Section.symbolKind with
  | none => .ok []
  | some s => do
      let size := format.fileClass.symbol.size
      let count := s.length / s.entrySize
      let bytes ← file.piece s.offset (count * size)
      let names ← StringTable.ofSection file sections s.link
      return (bytes.cut size count).map (ofRecord format names)

/-! ## Checks -/

def Section.checkRelocations (s : Section) (file : Content) : Except ParseError Unit := do
  s.checkBounds file
  let _ ← file.bytesAt s.offset s.length

/-- Refuses a file in which the first section of the kind does not lie. -/
def checkFirst (file : Content) (sections : List Section) (kind : Nat) :
    Except ParseError Unit :=
  match sections.find? fun s => s.kind == kind with
  | none => .ok ()
  | some s => do
      let _ ← file.piece s.offset s.length

/-! ## Reading -/

/-- The part of a file that is read before anything is said about it. -/
structure Outline where
  format : Format
  header : Header
  file : File
  dynamic? : Option (Dynamic × StringTable)

/-- Reads a file up to the names of its dynamic segment. -/
def Outline.ofFile (content : Content) : Except ParseError Outline := do
  let format ← Format.ofFile content
  let header ← Header.ofFile format content
  let segments ← Segment.ofFile format header content
  let sections ← Section.ofFile format header content
  let sectionNames ← StringTable.ofSection content sections header.nameSection
  let symbols ← Symbol.ofFile format content sections
  let dynamic? ← (← Dynamic.ofFile format content segments).mapM fun d =>
    return (d, ← d.names content segments)
  return { format := format
           header := header
           file :=
             { content := content, entry := header.entry, segments := segments
               sections := sections, sectionNames := sectionNames, symbols := symbols }
           dynamic? := dynamic? }

/-- Refuses a file of which a part is missing that has not been read yet. -/
def Outline.check (o : Outline) : Except ParseError Unit := do
  let content := o.file.content
  if let some (dynamic, _) := o.dynamic? then
    dynamic.check o.format o.header.machine content o.file.segments
  (o.file.sections.filter Section.isRelocation).forM fun s => s.checkRelocations content
  Section.versionKinds.forM fun kind => checkFirst content o.file.sections kind

def parse (content : Content) : Except ParseError File := do
  let outline ← Outline.ofFile content
  outline.check
  return outline.file

/--
What is said about a file while it is read, also if it is refused afterwards.
The programs around a board do not pass it on.
-/
def readNotices (content : Content) : List Message :=
  match Outline.ofFile content with
  | .error _ => []
  | .ok outline => (outline.dynamic?.map fun (d, names) => d.notices names).getD []

/-- The `size` bytes of the file from `offset` on, if it has them. -/
def File.bytes? (f : File) (offset size : Nat) : Option (List Byte) :=
  if offset + size ≤ f.content.size then
    some (f.content.extract offset (offset + size)).toList
  else none

end Rv32.Elf
