import Rv32.Board.Loading
import Rv32.Elf.File
import Rv32.Text.Quoted

/-!
# Loading of ELF files

The pieces of an ELF file that are copied into memory, either its sections or
its segments. Pieces are loaded in the order of the file, up to the first one
that does not lie in it.
-/

namespace Rv32.Elf

/-- Why a file is not loaded, or not to its end. -/
inductive LoadError where
  | unreadable (e : ParseError)
  | sectionBeyondEnd (address : Nat)
  | segmentBeyondEnd (address : Nat)
  deriving DecidableEq, Repr

def LoadError.message : LoadError → String
  | unreadable e => e.message
  | sectionBeyondEnd address =>
      let address := Numeral.address address
      s!"section at {address} extends past the end of the file"
  | segmentBeyondEnd address =>
      let address := Numeral.address address
      s!"segment at {address} extends past the end of the file"

/-- Bytes for consecutive addresses, and what is said before they are loaded. -/
structure Piece where
  address : Word
  bytes : List Byte
  notice : Message

/-- The pieces to load, and the refusal that ends them, if there is one. -/
structure Plan where
  pieces : List Piece
  refusal : Option LoadError

namespace Plan

def empty : Plan :=
  { pieces := [], refusal := none }

def cons (p : Piece) (rest : Plan) : Plan :=
  { rest with pieces := p :: rest.pieces }

def refused (e : LoadError) : Plan :=
  { pieces := [], refusal := some e }

end Plan

namespace File

def sectionPiece (f : File) (s : Section) (bytes : List Byte) : Piece :=
  let name := Quoted.text ((f.sectionNames.nameAt? s.name).getD "?")
  let first := Numeral.address s.address
  let last := Numeral.address (BitVec.ofNat 64 (s.address + s.length)).toNat
  { address := BitVec.ofNat 32 s.address
    bytes := bytes
    notice := ⟨.debug, s!"loading section {name} into memory from [{first}..{last}]"⟩ }

def planSections (f : File) : List Section → Plan
  | [] => .empty
  | s :: rest =>
      match f.bytes? s.offset s.length with
      | some bytes => .cons (f.sectionPiece s bytes) (f.planSections rest)
      | none => .refused (.sectionBeyondEnd s.address)

def sectionPlan (f : File) : Plan :=
  f.planSections (f.sections.filter Section.isLoaded)

def segmentPiece (s : Segment) (bytes : List Byte) : Piece :=
  let address := Numeral.address s.address
  { address := BitVec.ofNat 32 s.address
    bytes := bytes
    notice := ⟨.debug, s!"loading segment at {address} ({bytes.length} bytes)"⟩ }

def planSegments (f : File) : List Segment → Plan
  | [] => .empty
  | s :: rest =>
      match f.bytes? s.offset s.fileSize with
      | some bytes => .cons (segmentPiece s bytes) (f.planSegments rest)
      | none => .refused (.segmentBeyondEnd s.address)

def segmentPlan (f : File) : Plan :=
  f.planSegments (f.segments.filter Segment.isLoaded)

def entryNotices (f : File) (entry : Word) : List Message :=
  if f.entry = entry.toNat then []
  else
    let found := Numeral.address f.entry
    let used := Numeral.address entry.toNat
    [⟨.warn, s!"ELF entry point {found} differs from the reset vector {used}"⟩]

end File

end Rv32.Elf

namespace Rv32.Board

def loadPieces (b : Board) (pieces : List Elf.Piece) : Board :=
  pieces.foldl (fun b p => b.load p.address p.bytes) b

def pieceNotices (b : Board) (pieces : List Elf.Piece) : List Message :=
  pieces.flatMap fun p => p.notice :: b.loadNotices p.address p.bytes

/-- The board after the sections of a file have been loaded, and the refusal, if there is one. -/
def loadSections (b : Board) (content : Elf.Content) : Option Elf.LoadError × Board :=
  match Elf.parse content with
  | .error e => (some (.unreadable e), b)
  | .ok file => (file.sectionPlan.refusal, b.loadPieces file.sectionPlan.pieces)

def sectionNotices (b : Board) (content : Elf.Content) (entry : Word) : List Message :=
  match Elf.parse content with
  | .error _ => []
  | .ok file => file.entryNotices entry ++ b.pieceNotices file.sectionPlan.pieces

end Rv32.Board
