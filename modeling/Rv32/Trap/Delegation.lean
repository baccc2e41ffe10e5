import Rv32.Trap.Cause

/-!
# Delegation of traps

Which exceptions and interrupts are handled by the supervisor instead of the
machine level. Only some bits of the two registers can be set: environment
calls from machine mode are never delegated, and neither are machine-level
interrupts.
-/

namespace Rv32

/-- Which causes are delegated: one bit for each, at the position of its code. -/
structure Delegation where
  exceptions : Word
  interrupts : Word
  deriving DecidableEq, Repr

namespace Delegation

def reset : Delegation :=
  { exceptions := 0, interrupts := 0 }

/-- The exceptions that can be delegated: all but environment calls from machine mode. -/
def exceptionMask : Word := 0xB3FF

/-- The interrupts that can be delegated: those of the supervisor level. -/
def interruptMask : Word := 0x222

def writeExceptions (d : Delegation) (value mask : Word) : Delegation :=
  { d with exceptions := Word.merge d.exceptions value (mask &&& exceptionMask) }

def writeInterrupts (d : Delegation) (value mask : Word) : Delegation :=
  { d with interrupts := Word.merge d.interrupts value (mask &&& interruptMask) }

def delegatesException (d : Delegation) (e : Exception) : Bool :=
  d.exceptions.getLsbD e.code

def delegatesInterrupt (d : Delegation) (i : Interrupt) : Bool :=
  d.interrupts.getLsbD i.code

def delegates (d : Delegation) : Cause → Bool
  | .exception e => d.delegatesException e
  | .interrupt i => d.delegatesInterrupt i

end Delegation

end Rv32
