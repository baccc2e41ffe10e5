import Rv32.Csr.Status
import Rv32.Trap.Delegation

/-!
# Pending and enabled interrupts

The registers `mip` and `mie`, the supervisor's views of them, and the choice
of the interrupt that a hart takes. The supervisor external interrupt has two
sources, the line of the interrupt controller and a bit that software writes;
`mip` shows whether one of them is up, and which of them is hidden.
-/

namespace Rv32

/-- What is pending and what is enabled. Software writes `ssip`, `stip`, `seipSoftware` and `mie`.
The others are lines of devices, of which `seipLine` shares a pending bit with `seipSoftware`. -/
structure Interrupts where
  ssip : Bool
  stip : Bool
  seipSoftware : Bool
  seipLine : Bool
  msip : Bool
  mtip : Bool
  meip : Bool
  mie : Word
  deriving DecidableEq, Repr

namespace Interrupts

def reset : Interrupts :=
  { ssip := false, stip := false, seipSoftware := false, seipLine := false
    msip := false, mtip := false, meip := false, mie := 0 }

def seip (s : Interrupts) : Bool :=
  s.seipLine || s.seipSoftware

def isPending (s : Interrupts) : Interrupt → Bool
  | .supervisorSoftware => s.ssip
  | .machineSoftware => s.msip
  | .supervisorTimer => s.stip
  | .machineTimer => s.mtip
  | .supervisorExternal => s.seip
  | .machineExternal => s.meip

def isEnabled (s : Interrupts) (i : Interrupt) : Bool :=
  s.mie.getLsbD i.code

/-! ## Device lines -/

def setMachineExternal (s : Interrupts) (level : Bool) : Interrupts :=
  { s with meip := level }

def setSupervisorExternal (s : Interrupts) (level : Bool) : Interrupts :=
  { s with seipLine := level }

def setMachineTimer (s : Interrupts) (level : Bool) : Interrupts :=
  { s with mtip := level }

def setMachineSoftware (s : Interrupts) (level : Bool) : Interrupts :=
  { s with msip := level }

/--
The pending bit of interrupt `i` taken down because its trap is being taken.
A device that still asserts its line raises it again at the next sampling.
-/
def clearPending (s : Interrupts) : Interrupt → Interrupts
  | .supervisorSoftware => { s with ssip := false }
  | .machineSoftware => { s with msip := false }
  | .supervisorTimer => { s with stip := false }
  | .machineTimer => { s with mtip := false }
  | .supervisorExternal => { s with seipSoftware := false, seipLine := false }
  | .machineExternal => { s with meip := false }

/-! ## Registers -/

def mip (s : Interrupts) : Word :=
  (BitVec.ofBool s.meip ++ 0#1 ++ BitVec.ofBool s.seip ++ 0#1
    ++ BitVec.ofBool s.mtip ++ 0#1 ++ BitVec.ofBool s.stip ++ 0#1
    ++ BitVec.ofBool s.msip ++ 0#1 ++ BitVec.ofBool s.ssip ++ 0#1).setWidth 32

/--
A write of the bits selected by `mask` to the pending register. The
machine-level bits follow the devices and are not written.
-/
def writeMip (s : Interrupts) (value mask : Word) : Interrupts :=
  { s with
    seipSoftware := if mask.getLsbD 9 then value.getLsbD 9 else s.seipSoftware
    stip := if mask.getLsbD 5 then value.getLsbD 5 else s.stip
    ssip := if mask.getLsbD 1 then value.getLsbD 1 else s.ssip }

/-- The bits of the enable register that exist. -/
def enableMask : Word := 0xAAA

def writeMie (s : Interrupts) (value mask : Word) : Interrupts :=
  { s with mie := Word.merge s.mie value (mask &&& enableMask) }

def sip (s : Interrupts) (d : Delegation) : Word :=
  s.mip &&& d.interrupts

/-- The bits of the supervisor's view of the pending register that it may write. -/
def supervisorPendingMask : Word := 0x2

def writeSip (s : Interrupts) (value mask : Word) (d : Delegation) : Interrupts :=
  s.writeMip value (mask &&& d.interrupts &&& supervisorPendingMask)

def sie (s : Interrupts) (d : Delegation) : Word :=
  s.mie &&& d.interrupts

def writeSie (s : Interrupts) (value mask : Word) (d : Delegation) : Interrupts :=
  s.writeMie value (mask &&& d.interrupts)

/-! ## Choice of the interrupt to take -/

/-- The order in which interrupts that are due at the same time are taken. -/
def priority : List Interrupt :=
  [.machineExternal, .machineSoftware, .machineTimer, .supervisorExternal, .supervisorSoftware,
    .supervisorTimer]

/--
Whether a hart at `level` accepts interrupts of the level that handles `i`: a
lower level always does, and the handling level itself when its enable bit is
set. A hart above the handling level does not.
-/
def accepts (level : Level) (status : Status) (d : Delegation) (i : Interrupt) : Bool :=
  if d.delegatesInterrupt i then
    decide (level < .supervisor) || (decide (level = .supervisor) && status.sie)
  else decide (level < .machine) || status.mie

def isDue (s : Interrupts) (level : Level) (status : Status) (d : Delegation)
    (i : Interrupt) : Bool :=
  s.isPending i && s.isEnabled i && accepts level status d i

def next? (s : Interrupts) (level : Level) (status : Status) (d : Delegation) :
    Option Interrupt :=
  priority.find? (s.isDue level status d)

end Interrupts

end Rv32
