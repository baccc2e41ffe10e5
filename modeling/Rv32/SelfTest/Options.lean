import Rv32.CommandLine.Grammar

/-!
# Options of the self-test runner

The choices that the command line of the self-test runner leaves open.
-/

namespace Rv32.SelfTest

open CommandLine

inductive OptionId where
  | verbose
  | signature
  deriving DecidableEq, Repr

namespace OptionId

def spec : OptionId → OptionSpec OptionId
  | verbose => { id := verbose, kind := .counter, long := "verbose", short := some 'v' }
  | signature => { id := signature, kind := .setting, long := "signature", short := some 's' }

def all : List OptionId :=
  [verbose, signature]

end OptionId

/-- The choices of one run of the self-test runner, which may write a signature to a file. -/
structure Options where
  verbosity : Nat
  signature : Option String
  elf : String
  deriving DecidableEq, Repr

def Options.ofArgs (args : List String) : Except UsageError Options := do
  let given ← parse (OptionId.all.map OptionId.spec) args
  let signature ← readSetting given OptionId.signature.spec path?
  let elf ← onlyOperand "ELF" given
  return { verbosity := count given OptionId.verbose, signature := signature, elf := elf }

end Rv32.SelfTest
