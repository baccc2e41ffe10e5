import Rv32.CommandLine.Grammar
import Rv32.FileSystem.Tree
import Rv32.Hart.State
import Rv32.Log

/-!
# How programs end

What a program prints at its end and the code that it exits with. Log messages
that are heard go to the error output before other text does.
-/

namespace Rv32.CommandLine

/-- What is printed at the end of a program, and its exit code. The messages come first on the
error output. -/
structure Report where
  log : List Message
  errors : List String
  lines : List String
  code : Nat
  deriving DecidableEq, Repr

namespace Report

def silent (code : Nat) : Report :=
  { log := [], errors := [], lines := [], code := code }

def failure (line : String) : Report :=
  { silent 1 with errors := [line] }

def loggedFailure (message line : String) : Report :=
  { failure line with log := [⟨.error, message⟩] }

/-- The end of a program that prints a line. -/
def answer (line : String) (code : Nat) : Report :=
  { silent code with lines := [line] }

def verdict (v : Verdict) : Report :=
  answer v.text (if v = .passed then 0 else 1)

def wrongUsage (e : UsageError) : Report :=
  { silent 2 with errors := [s!"error: {e.message}"] }

def unusableFile (e : FileError) : Report :=
  failure s!"Error: {e.text}"

def textOf (lines : List String) : String :=
  String.join (lines.map (· ++ "\n"))

def outputText (r : Report) : String :=
  textOf r.lines

/-- The text on the error output, with the log messages heard down to `least`. -/
def errorText (r : Report) (least : Severity) : String :=
  textOf ((r.log.filter (Message.isHeard least)).map Message.line ++ r.errors)

def withText (r : Report) (text : String) : TextTarget → Report
  | .file => r
  | .output => { r with lines := (text.splitOn "\n").dropLast ++ r.lines }
  | .errorOutput => { r with errors := (text.splitOn "\n").dropLast ++ r.errors }

def after (r : Report) (said : List Message) : Report :=
  { r with log := said ++ r.log }

end Report

end Rv32.CommandLine
