import Rv32.Board.Slices
import Rv32.CommandLine.Report

/-!
# Programs around a board

A program gets a board ready, runs it to the end of the run, and then prints a
report and perhaps writes files. It may also end before there is a board.
-/

namespace Rv32.CommandLine

/-- What the start of a program says, and the board or the end that it comes to. -/
structure Boot where
  said : List Message
  result : Except Report Board

namespace Boot

def silent (result : Except Report Board) : Boot :=
  { said := [], result := result }

/-- The start on a board that `config` describes, which `load` gets ready. -/
def on (config : BoardConfig) (console : Console) (clock : DoubleWord)
    (load : Board → Boot) : Boot :=
  match Board.build config console clock with
  | .ok b => load b
  | .error e => silent (.error (.failure s!"Error: {e.message}"))

end Boot

/-- What is printed at the end of a program, and the texts that are written to files. -/
structure Ending where
  report : Report
  files : List (String × String)
  deriving DecidableEq, Repr

def Ending.ofReport (r : Report) : Ending :=
  { report := r, files := [] }

/-- What is printed at the end, after it was tried to write the files. -/
def Ending.reportAfter (e : Ending) : Except FileError Unit → Report
  | .ok () => e.report
  | .error failure => .unusableFile failure

def Ending.reportIn (e : Ending) (t : FileTree) : Report :=
  match e.files.mapM fun f => (f.2, ·) <$> t.target f.1 f.2 with
  | .ok written => written.foldl (fun r w => r.withText w.1 w.2) e.report
  | .error failure => .unusableFile failure

/-- A program with all its choices made. It ends after `limit` steps, and messages below `least`
are not heard. -/
structure Program where
  least : Severity
  limit : Option Nat
  boot : Boot
  finish : Exit → Board → Ending

namespace Program

def refused (least : Severity) (r : Report) : Program :=
  { least := least
    limit := some 0
    boot := .silent (.error r)
    finish := fun _ _ => .ofReport r }

end Program

end Rv32.CommandLine
