import Rv32.Bus
import Rv32.Numeral

/-!
# The core-local interruptor

The timer and the software interrupt of the hart. The timer counts the wall
clock of the platform from an origin that software may move, so `mtime` is the
clock plus an offset modulo 2^64. Registers are words at fixed offsets; the
two 64-bit ones can also be accessed whole.
-/

namespace Rv32

/-- The timer and software interrupt unit. Its time is the wall clock of the platform plus
`offset`, and the timer interrupt is raised from `mtimecmp` on. -/
structure Clint where
  clock : DoubleWord
  offset : DoubleWord
  mtimecmp : DoubleWord
  msip : Bool
  deriving DecidableEq

namespace Clint

inductive AccessError where
  | unsupported (offset : Word) (size : Nat)
  | unmapped (offset : Word)
  deriving DecidableEq, Repr

def AccessError.message : AccessError → String
  | unsupported offset size =>
      let offset := Numeral.hex offset.toNat
      s!"unsupported access of {size} bytes at offset {offset}"
  | unmapped offset =>
      let offset := Numeral.hex offset.toNat
      s!"no register mapped to offset {offset}"

inductive Register where
  | msip
  | mtimecmp (h : Half)
  | mtime (h : Half)
  deriving DecidableEq, Repr

def Register.ofOffset? (offset : Word) : Option Register :=
  match offset.toNat with
  | 0x0000 => some msip
  | 0x4000 => some (mtimecmp .low)
  | 0x4004 => some (mtimecmp .high)
  | 0xBFF8 => some (mtime .low)
  | 0xBFFC => some (mtime .high)
  | _ => none

inductive WideRegister where
  | mtimecmp
  | mtime
  deriving DecidableEq, Repr

def WideRegister.ofOffset? (offset : Word) : Option WideRegister :=
  match offset.toNat with
  | 0x4000 => some mtimecmp
  | 0xBFF8 => some mtime
  | _ => none

/-- The unit after reset. The timer interrupt is due at the last moment there is. -/
def reset (clock : DoubleWord) : Clint :=
  { clock := clock, offset := 0, mtimecmp := BitVec.allOnes 64, msip := false }

def mtime (c : Clint) : DoubleWord :=
  c.clock + c.offset

def setMtime (c : Clint) (v : DoubleWord) : Clint :=
  { c with offset := v - c.clock }

theorem mtime_setMtime (c : Clint) (v : DoubleWord) : (c.setMtime v).mtime = v := by
  simp only [mtime, setMtime]
  rw [BitVec.add_comm, BitVec.sub_add_cancel]

def softwareLine (c : Clint) : Bool :=
  c.msip

def timerLine (c : Clint) : Bool :=
  c.mtimecmp ≤ c.mtime

/-! ## Register accesses -/

def readWord (c : Clint) (offset : Word) : Except AccessError Word :=
  match Register.ofOffset? offset with
  | some .msip => .ok (Word.ofBool c.msip)
  | some (.mtimecmp h) => .ok (DoubleWord.half c.mtimecmp h)
  | some (.mtime h) => .ok (DoubleWord.half c.mtime h)
  | none => .error (.unmapped offset)

def writeWord (c : Clint) (offset v : Word) : Except AccessError Clint :=
  match Register.ofOffset? offset with
  | some .msip => .ok { c with msip := v.getLsbD 0 }
  | some (.mtimecmp h) => .ok { c with mtimecmp := DoubleWord.withHalf c.mtimecmp h v }
  | some (.mtime h) => .ok (c.setMtime (DoubleWord.withHalf c.mtime h v))
  | none => .error (.unmapped offset)

def readDouble (c : Clint) (offset : Word) : Except AccessError DoubleWord :=
  match WideRegister.ofOffset? offset with
  | some .mtimecmp => .ok c.mtimecmp
  | some .mtime => .ok c.mtime
  | none => .error (.unsupported offset 8)

def writeDouble (c : Clint) (offset : Word) (v : DoubleWord) : Except AccessError Clint :=
  match WideRegister.ofOffset? offset with
  | some .mtimecmp => .ok { c with mtimecmp := v }
  | some .mtime => .ok (c.setMtime v)
  | none => .error (.unsupported offset 8)

/-! ## Bus accesses -/

/-- The bytes that a bus read of `size` bytes gets: a naturally aligned word or double word. -/
def fetch (c : Clint) (offset : Word) (size : Nat) : Except AccessError (List Byte) :=
  if size = 4 ∧ offset.toNat % 4 = 0 then (c.readWord offset).map (leBytes 4)
  else if size = 8 ∧ offset.toNat % 8 = 0 then (c.readDouble offset).map (leBytes 8)
  else .error (.unsupported offset size)

/-- The unit after a bus write of a naturally aligned word or double word. -/
def store (c : Clint) (offset : Word) (bytes : List Byte) : Except AccessError Clint :=
  if bytes.length = 4 ∧ offset.toNat % 4 = 0 then c.writeWord offset (ofLeBytes 32 bytes)
  else if bytes.length = 8 ∧ offset.toNat % 8 = 0 then c.writeDouble offset (ofLeBytes 64 bytes)
  else .error (.unsupported offset bytes.length)

instance : AudibleBus Clint where
  read c offset size :=
    match c.fetch offset size with
    | .ok bytes => (bytes, c)
    | .error _ => (zeroBytes size, c)
  write c offset bytes :=
    match c.store offset bytes with
    | .ok c => c
    | .error _ => c
  readNotices c offset size :=
    match c.fetch offset size with
    | .ok _ => []
    | .error e => [⟨.warn, s!"clint: read: {e.message}"⟩]
  writeNotices c offset bytes :=
    match c.store offset bytes with
    | .ok _ => []
    | .error e => [⟨.warn, s!"clint: write: {e.message}"⟩]

end Clint

end Rv32
