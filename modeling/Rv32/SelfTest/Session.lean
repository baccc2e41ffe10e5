import Rv32.CommandLine.Program
import Rv32.Elf.Loading
import Rv32.SelfTest.Options
import Rv32.SelfTest.Signature

/-!
# Sessions of the self-test runner

A session loads the segments of a self-test program, runs it until it gives its
verdict and writes its signature if that is asked for.
-/

namespace Rv32.SelfTest

open CommandLine

def Options.least (o : Options) : Severity :=
  .ofVerbosity o.verbosity

def loadSegments (file : Elf.File) (b : Board) : Boot :=
  let plan := file.segmentPlan
  { said := b.pieceNotices plan.pieces
    result :=
      match plan.refusal with
      | none => .ok (b.loadPieces plan.pieces)
      | some e => .error (.failure e.message) }

def unreadable (o : Options) (e : Elf.ParseError) : Report :=
  .loggedFailure s!"failed to parse elf file: {e.message}"
    s!"failed to parse elf file {o.elf}: {e.message}"

def boot (o : Options) (content : Elf.Content) (console : Console) (clock : DoubleWord) : Boot :=
  match Elf.parse content with
  | .error e => .silent (.error (unreadable o e))
  | .ok file => .on BoardConfig.standard console clock (loadSegments file)

/-- The signature that a program has left in the memory of a board. -/
def signature? (content : Elf.Content) (b : Board) : Option (List Word) :=
  match Elf.parse content with
  | .error _ => none
  | .ok file => Signature.extract? file.symbols b.bus.ram

def noSignature : String :=
  "missing or misaligned `begin_signature`/`end_signature` symbols"

/-- The end of a session with a verdict, with its signature if that is asked for. -/
def conclude (o : Options) (content : Elf.Content) (b : Board) (v : Verdict) : Ending :=
  match o.signature with
  | none => .ofReport (.verdict v)
  | some path =>
      match signature? content b with
      | none => .ofReport (.failure noSignature)
      | some words => { report := .verdict v, files := [(path, Signature.text words)] }

def finish (o : Options) (content : Elf.Content) : Exit → Board → Ending
  | .selfTest v, b => conclude o content b v
  | .fatal f, _ => .ofReport (.loggedFailure f.message f.message)
  | .stepLimit, _ => .ofReport (.silent 1)

def file? (args : List String) : Option String :=
  (Options.ofArgs args).toOption.map Options.elf

def session (o : Options) (content : Elf.Content) (console : Console) (clock : DoubleWord) :
    Program :=
  { least := o.least
    limit := none
    boot := boot o content console clock
    finish := finish o content }

/-- The self-test runner with the given command line and what came of reading its file. -/
def program (args : List String) (content : Except FileError Elf.Content) (console : Console)
    (clock : DoubleWord) : Program :=
  match Options.ofArgs args, content with
  | .error e, _ => .refused .error (.wrongUsage e)
  | .ok o, .error e => .refused o.least (.unusableFile e)
  | .ok o, .ok content => session o content console clock

end Rv32.SelfTest
