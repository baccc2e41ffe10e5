import Rv32.Hart.State
import Rv32.Log
import Rv32.Numeral

/-!
# Trap entry

What a hart does when a trap is taken: it saves where it was, switches to the
level of the handler and jumps to the handler's base address, in either vector
mode. Traps never lower the level.
-/

namespace Rv32

namespace Hart

/-- Whether a trap for `c` goes to supervisor mode. Traps from machine mode never do. -/
def isDelegated (h : Hart) (c : Cause) : Bool :=
  decide (h.level ≠ .machine) && h.csrs.delegation.delegates c

def handlerLevel (h : Hart) (c : Cause) : Level :=
  if h.isDelegated c then .supervisor else .machine

def statusInHandler (s : Status) (level origin : Level) : Status :=
  match level with
  | .supervisor => s.enterSupervisor origin
  | _ => s.enterMachine origin

def interruptsInHandler (s : Interrupts) : Cause → Interrupts
  | .exception _ => s
  | .interrupt i => s.clearPending i

/--
The hart after a trap for `c`. The address of the current instruction is saved
as the resume address: for an exception it still is that of the instruction
that raised it, for an interrupt that of the next one.
-/
def trap (h : Hart) (c : Cause) : Hart :=
  let level := h.handlerLevel c
  let saved := ((h.csrs.setEpc level h.pc).setCause level c.value).setTval level 0
  let csrs :=
    { saved with
      status := statusInHandler h.csrs.status level h.level
      interrupts := interruptsInHandler h.csrs.interrupts c }
  { h with
    registers := h.registers.jump (h.csrs.trapVector level).base
    csrs := csrs
    level := level }

def trapNotices (h : Hart) (c : Cause) : List Message :=
  let level := h.handlerLevel c
  let vector := h.csrs.trapVector level
  let base := Numeral.address vector.base.toNat
  let epc := Numeral.address h.pc.toNat
  let vectored := s!"vectored trap mode is not supported, jumping to base {base}"
  let taken :=
    s!"trap: {c.text} from {h.level.name} to {level.name}, epc {epc}, handler {base}"
  match vector.mode with
  | .direct => [⟨.debug, taken⟩]
  | .vectored => [⟨.warn, vectored⟩, ⟨.debug, taken⟩]

def nextInterrupt? (h : Hart) : Option Interrupt :=
  h.csrs.interrupts.next? h.level h.csrs.status h.csrs.delegation

def takeInterrupt (h : Hart) : Option Interrupt × Hart :=
  match h.nextInterrupt? with
  | none => (none, h)
  | some i => (some i, h.trap (.interrupt i))

def interruptNotices (h : Hart) : List Message :=
  match h.nextInterrupt? with
  | none => []
  | some i => h.trapNotices (.interrupt i)

end Hart

end Rv32
