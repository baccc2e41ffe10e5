import Rv32.Privilege
import Rv32.Word

/-!
# The machine status register

The fields of `mstatus`, the register encoding of the fields, and the rules
that a written value has to pass. `sstatus` is the part of the same register
that the supervisor may see and write.
-/

namespace Rv32

inductive ContextStatus where
  | off
  | initial
  | clean
  | dirty
  deriving DecidableEq, Repr

namespace ContextStatus

def bits : ContextStatus → BitVec 2
  | off => 0
  | initial => 1
  | clean => 2
  | dirty => 3

def ofBits (b : BitVec 2) : ContextStatus :=
  match b with
  | 0 => off
  | 1 => initial
  | 2 => clean
  | _ => dirty

@[simp] theorem ofBits_bits (s : ContextStatus) : ofBits s.bits = s := by
  cases s <;> rfl

theorem bits_ofBits (b : BitVec 2) : (ofBits b).bits = b := by
  revert b
  decide

end ContextStatus

/-- The fields of the machine status register. Interrupts are enabled by `sie` and `mie`, and the
last trap to each of the two levels has saved what it found in `spie` and `spp`, or in `mpie` and
`mpp`. -/
structure Status where
  sie : Bool
  mie : Bool
  spie : Bool
  ube : Bool
  mpie : Bool
  spp : Bool
  vs : ContextStatus
  mpp : LevelField
  fs : ContextStatus
  xs : ContextStatus
  mprv : Bool
  sum : Bool
  mxr : Bool
  tvm : Bool
  tw : Bool
  tsr : Bool
  sd : Bool
  deriving DecidableEq, Repr

namespace Status

def pack (s : Status) : Word :=
  BitVec.ofBool s.sd ++ 0#8
    ++ BitVec.ofBool s.tsr ++ BitVec.ofBool s.tw ++ BitVec.ofBool s.tvm
    ++ BitVec.ofBool s.mxr ++ BitVec.ofBool s.sum ++ BitVec.ofBool s.mprv
    ++ s.xs.bits ++ s.fs.bits ++ s.mpp.bits ++ s.vs.bits
    ++ BitVec.ofBool s.spp ++ BitVec.ofBool s.mpie ++ BitVec.ofBool s.ube
    ++ BitVec.ofBool s.spie ++ 0#1 ++ BitVec.ofBool s.mie ++ 0#1
    ++ BitVec.ofBool s.sie ++ 0#1

/-- The fields of a register value. Bits that belong to no field are dropped. -/
def unpack (w : Word) : Status :=
  { sie := w.getLsbD 1
    mie := w.getLsbD 3
    spie := w.getLsbD 5
    ube := w.getLsbD 6
    mpie := w.getLsbD 7
    spp := w.getLsbD 8
    vs := .ofBits (w.extractLsb' 9 2)
    mpp := .ofBits (w.extractLsb' 11 2)
    fs := .ofBits (w.extractLsb' 13 2)
    xs := .ofBits (w.extractLsb' 15 2)
    mprv := w.getLsbD 17
    sum := w.getLsbD 18
    mxr := w.getLsbD 19
    tvm := w.getLsbD 20
    tw := w.getLsbD 21
    tsr := w.getLsbD 22
    sd := w.getLsbD 31 }

def reset : Status :=
  unpack 0

/--
The legal register contents nearest to the fields `s`, where `old` was held
before: the reserved level is not stored, memory stays little-endian, there
are no further extensions, and the summary bit says whether a context is dirty.
-/
def legalize (s old : Status) : Status :=
  { s with
    mpp := if s.mpp.isReserved then old.mpp else s.mpp
    ube := false
    xs := .off
    sd := s.fs = .dirty || s.vs = .dirty }

def write (s : Status) (value mask : Word) : Status :=
  (unpack (Word.merge s.pack value mask)).legalize s

/-- The bits of the register that the supervisor may see and write. -/
def supervisorMask : Word := 0xFF8DE777

def supervisorView (s : Status) : Word :=
  s.pack &&& supervisorMask

/-- The register after a write through the supervisor's view. -/
def writeSupervisor (s : Status) (value mask : Word) : Status :=
  s.write value (mask &&& supervisorMask)

/-! ## Previous levels -/

/-- The level to which a return from machine mode goes. The reserved level counts as user. -/
def mppLevel (s : Status) : Level :=
  match s.mpp with
  | .user => .user
  | .supervisor => .supervisor
  | .reserved => .user
  | .machine => .machine

/-- The level to which a return from supervisor mode goes. -/
def sppLevel (s : Status) : Level :=
  if s.spp then .supervisor else .user

def withMpp (s : Status) (level : Level) : Status :=
  { s with mpp := level.field }

/--
The register with `level` as the previous level of supervisor mode. Machine
counts as supervisor.
-/
def withSpp (s : Status) (level : Level) : Status :=
  { s with spp := level ≠ .user }

/-! ## Traps and trap returns -/

def enterSupervisor (s : Status) (origin : Level) : Status :=
  { s with spie := s.sie, sie := false }.withSpp origin

def enterMachine (s : Status) (origin : Level) : Status :=
  { s with mpie := s.mie, mie := false }.withMpp origin

def leaveSupervisor (s : Status) : Status :=
  { s with sie := s.spie, spie := true, mprv := false }.withSpp .user

def leaveMachine (s : Status) : Status :=
  { s with
    mie := s.mpie
    mpie := true
    mprv := if s.mppLevel = Level.machine then s.mprv else false }.withMpp .user

end Status

end Rv32
