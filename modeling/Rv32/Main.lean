import Rv32.Emulator.Session
import Rv32.Ppm
import Rv32.SelfTest.Session

/-!
# Programs

The emulator, and the self-test runner, which is the same program under a name
that ends in `self-test`. All that is decided here is when the surroundings of
a board get their turn: between slices the wall clock is set, and what the
guest and the log have to say is passed on.
-/

namespace Rv32.CommandLine

def packBytes (bytes : Array Byte) : ByteArray :=
  ⟨bytes.map UInt8.ofBitVec⟩

/-- The number of an error, which some functions give with a minus sign. -/
def errorCode : IO.Error → Nat
  | .noFileOrDirectory _ n _ | .inappropriateType _ n _ | .invalidArgument _ n _
  | .permissionDenied _ n _ | .resourceExhausted _ n _ | .alreadyExists _ n _
  | .noSuchThing _ n _ | .interrupted _ n _ | .otherError n _ | .resourceBusy n _
  | .resourceVanished n _ | .unsupportedOperation n _ | .hardwareFault n _
  | .unsatisfiedConstraints n _ | .illegalOperation n _ | .protocolError n _
  | .timeExpired n _ => n.toInt32.toInt.natAbs
  | .unexpectedEof | .userError _ => 0

def attempt {α : Type} (action : IO α) : IO (Except FileError α) := do
  try
    return .ok (← action)
  catch e => return .error (.ofCode (errorCode e) (toString e))

def readContent (path? : Option String) : IO (Except FileError Elf.Content) := do
  match path? with
  | none => return .error .notFound
  | some path =>
      attempt do return (← IO.FS.readBinFile path).data.map UInt8.toBitVec

def writeText (path text : String) : IO Unit :=
  IO.FS.withFile path .write fun file => do
    file.putStr text
    file.flush

def showLog (least : Severity) (said : List Message) : IO Unit :=
  said.forM fun m => do
    if m.isHeard least then IO.eprintln m.line

/-- Passes on what the guest has transmitted since `shown` bytes had been. -/
def showOutput (shown : Nat) (b : Board) : IO Unit := do
  if shown < b.output.size then
    let out ← IO.getStdout
    out.write (packBytes (b.output.extract shown b.output.size))
    out.flush

def conclude (least : Severity) (r : Report) : IO UInt32 := do
  IO.eprint (r.errorText least)
  IO.print r.outputText
  return r.code.toUInt32

/-- Where the picture is written, how often, and when it is written next. -/
structure Dump where
  path : String
  interval : Nat
  next : Nat

def Dump.ofOptions? (o : Emulator.Options) : Option Dump :=
  o.frameDump.map fun path => { path := path, interval := max 1 o.frameInterval, next := 0 }

def Dump.write (d : Dump) (now : Nat) (least : Severity) (b : Board) : IO Dump := do
  if now < d.next then return d
  try
    IO.FS.writeBinFile d.path (packBytes (Ppm.encode b.frame).toArray)
    showLog least [⟨.debug, s!"wrote frame to {d.path}"⟩]
  catch e =>
    showLog least [⟨.warn, s!"cannot write frame to {d.path}: {e}"⟩]
  return { d with next := now + d.interval }

/-- Makes slices until the run ends. The clock counts the milliseconds since `start?`, if any. -/
partial def runSlices (p : Program) (start? : Option Nat) (dump? : Option Dump) (b : Board) :
    IO (Exit × Board) := do
  let now := (← IO.monoMsNow) - start?.getD 0
  let dump? ← dump?.mapM fun d => d.write now p.least b
  let timed := if start?.isSome then b.withClock (BitVec.ofNat 64 now) else b
  let (exit?, next, said) := timed.sliceHeard p.least p.limit
  showOutput b.output.size next
  showLog p.least said.toList
  match exit? with
  | some exit => return (exit, next)
  | none => runSlices p start? dump? next

def Program.run (p : Program) (start? : Option Nat) (dump? : Option Dump) : IO UInt32 := do
  showLog p.least p.boot.said
  match p.boot.result with
  | .error r => conclude p.least r
  | .ok b =>
      let (exit, last) ← runSlices p start? dump? b
      let ending := p.finish exit last
      let written ← attempt (ending.files.forM fun (path, text) => writeText path text)
      conclude p.least (ending.reportAfter written)

def emulate (args : List String) : IO UInt32 := do
  let image ← readContent (Emulator.file? args)
  let dump? := (Emulator.Options.ofArgs args).toOption.bind Dump.ofOptions?
  (Emulator.program args image (.withInput []) 0).run (some (← IO.monoMsNow)) dump?

/-- The self-test runner, on which the wall clock stands still. -/
def runSelfTest (args : List String) : IO UInt32 := do
  let content ← readContent (SelfTest.file? args)
  (SelfTest.program args content (.withInput []) 0).run none none

end Rv32.CommandLine

/-- Runs the program that the name of the executable stands for. -/
def main (args : List String) : IO UInt32 := do
  let name := (← IO.appPath).toString
  if name.endsWith "self-test" then Rv32.CommandLine.runSelfTest args
  else Rv32.CommandLine.emulate args
