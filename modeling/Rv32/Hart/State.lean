import Rv32.Csr.Bank
import Rv32.Register

/-!
# The state of a hart

A hart is its registers, its control registers, its privilege level and the
address it has reserved, together with the two settings it was built with. It
owns no memory: an operation that touches memory works on a machine, which is
a hart wired to a bus.
-/

namespace Rv32

/-- What an environment call does: it ends a self-test program, does nothing, or raises the
exception of the current level. -/
inductive EcallMode where
  | selfTest
  | ignore
  | trap
  deriving DecidableEq, Repr

inductive Verdict where
  | passed
  | failed (test : Word)
  deriving DecidableEq, Repr

def Verdict.text : Verdict → String
  | passed => "Test Succeeded"
  | failed test => s!"Ecall: testId: {test.toNat}, Failed"

/-- The address at which execution starts unless another one is chosen. -/
def defaultResetVector : Word := 0x80000000

structure Hart where
  resetVector : Word
  ecallMode : EcallMode
  registers : RegisterFile
  csrs : CsrBank
  level : Level
  reservation : Option Word
  deriving DecidableEq

namespace Hart

def initial (resetVector : Word) (ecallMode : EcallMode) (clock : DoubleWord) : Hart :=
  { resetVector := resetVector
    ecallMode := ecallMode
    registers := .reset resetVector
    csrs := .initial clock
    level := .atReset
    reservation := none }

def reset (h : Hart) : Hart :=
  { h with
    registers := .reset h.resetVector
    csrs := h.csrs.reset
    level := .atReset
    reservation := none }

def pc (h : Hart) : Word :=
  h.registers.pc

def x (h : Hart) (r : Register) : Word :=
  h.registers.get r

def withClock (h : Hart) (clock : DoubleWord) : Hart :=
  { h with csrs := { h.csrs with clock := clock } }

/-- The hart after an instruction that wrote `v` to register `rd`. -/
def writeBack (h : Hart) (rd : Register) (v : Word) : Hart :=
  { h with registers := (h.registers.set rd v).advance }

def advance (h : Hart) : Hart :=
  { h with registers := h.registers.advance }

def jump (h : Hart) (target : Word) : Hart :=
  { h with registers := h.registers.jump target }

/-- The hart after a jump to `target` that leaves the address of the next instruction in `rd`. -/
def jumpAndLink (h : Hart) (rd : Register) (target : Word) : Hart :=
  { h with registers := (h.registers.jump target).set rd h.registers.nextPc }

end Hart

/-- A hart wired to a bus. -/
structure Machine (β : Type) where
  hart : Hart
  bus : β

end Rv32
