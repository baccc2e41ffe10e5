import Rv32.CommandLine.Program
import Rv32.Elf.Loading
import Rv32.Emulator.Options

/-!
# Sessions of the emulator

A session loads an image onto a board and runs it to its end. What is printed
at the end depends on why the run ended.
-/

namespace Rv32.Emulator

open CommandLine

def Options.config (o : Options) : BoardConfig :=
  { BoardConfig.standard with ecallMode := o.ecallMode }

def Options.least (o : Options) : Severity :=
  .ofVerbosity o.verbosity

def refusalText : Elf.LoadError → String
  | .unreadable e => e.message
  | e => s!"Malformed entity: {e.message}"

def loadRaw (o : Options) (image : Elf.Content) (b : Board) : Boot :=
  { said := b.loadNotices o.config.ramBase image.toList
    result := .ok (b.load o.config.ramBase image.toList) }

/-- The start with an ELF file, of which the sections are loaded. -/
def loadElf (o : Options) (image : Elf.Content) (b : Board) : Boot :=
  { said := b.sectionNotices image o.config.ramBase
    result :=
      match b.loadSections image with
      | (none, loaded) => .ok loaded
      | (some e, _) =>
          let text := s!"cannot load {o.image}: {refusalText e}"
          .error (.loggedFailure text text) }

def boot (o : Options) (image : Elf.Content) (console : Console) (clock : DoubleWord) : Boot :=
  .on o.config console clock fun b =>
    if o.isElf then loadElf o image b else loadRaw o image b

def report : Exit → Report
  | .selfTest v => .verdict v
  | .stepLimit => { Report.silent 0 with log := [⟨.info, "step limit reached"⟩] }
  | .fatal f => .loggedFailure f.message f.explanation

def file? (args : List String) : Option String :=
  (Options.ofArgs args).toOption.map Options.image

def session (o : Options) (image : Elf.Content) (console : Console) (clock : DoubleWord) :
    Program :=
  { least := o.least
    limit := o.maxSteps
    boot := boot o image console clock
    finish := fun exit _ => .ofReport (report exit) }

/-- The emulator with the given command line and what came of reading its file. -/
def program (args : List String) (image : Except FileError Elf.Content) (console : Console)
    (clock : DoubleWord) : Program :=
  match Options.ofArgs args, image with
  | .error e, _ => .refused .error (.wrongUsage e)
  | .ok o, .error e => .refused o.least (.unusableFile e)
  | .ok o, .ok image => session o image console clock

end Rv32.Emulator
