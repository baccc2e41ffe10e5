import Rv32.CommandLine.Grammar
import Rv32.Hart.State

/-!
# Options of the emulator

The choices that the command line of the emulator leaves open.
-/

namespace Rv32.Emulator

open CommandLine

inductive OptionId where
  | verbose
  | elf
  | ecall
  | frameDump
  | frameInterval
  | maxSteps
  deriving DecidableEq, Repr

namespace OptionId

def spec : OptionId → OptionSpec OptionId
  | verbose => { id := verbose, kind := .counter, long := "verbose", short := some 'v' }
  | elf => { id := elf, kind := .flag, long := "elf", short := some 'e' }
  | ecall => { id := ecall, kind := .setting, long := "ecall", short := none }
  | frameDump => { id := frameDump, kind := .setting, long := "frame-dump", short := none }
  | frameInterval =>
      { id := frameInterval, kind := .setting, long := "frame-interval-ms", short := none }
  | maxSteps => { id := maxSteps, kind := .setting, long := "max-steps", short := none }

def all : List OptionId :=
  [verbose, elf, ecall, frameDump, frameInterval, maxSteps]

end OptionId

def ecallMode? : String → Option EcallMode
  | "self-test" => some .selfTest
  | "ignore" => some .ignore
  | "trap" => some .trap
  | _ => none

/-- The choices of one run of the emulator. Every `frameInterval` milliseconds the picture is
written to the file `frameDump`. -/
structure Options where
  verbosity : Nat
  isElf : Bool
  ecallMode : EcallMode
  frameDump : Option String
  frameInterval : Nat
  maxSteps : Option Nat
  image : String
  deriving DecidableEq, Repr

def Options.ofArgs (args : List String) : Except UsageError Options := do
  let given ← parse (OptionId.all.map OptionId.spec) args
  let ecallMode ← readSetting given OptionId.ecall.spec ecallMode?
  let frameDump ← readSetting given OptionId.frameDump.spec path?
  let frameInterval ← readSetting given OptionId.frameInterval.spec number?
  let maxSteps ← readSetting given OptionId.maxSteps.spec number?
  let image ← onlyOperand "IMAGE" given
  return {
    verbosity := count given OptionId.verbose
    isElf := count given OptionId.elf ≠ 0
    ecallMode := ecallMode.getD .selfTest
    frameDump := frameDump
    frameInterval := frameInterval.getD 1000
    maxSteps := maxSteps
    image := image }

end Rv32.Emulator
