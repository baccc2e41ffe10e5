import Rv32.Proofs.Device.Uart.Divisor
import Rv32.Proofs.Word

/-! # A line status register that is stored

`Uart` keeps a flag for the byte in its receiver and computes the line status
from it. An interface can as well store the register, set its bits one at a time
and test them where they matter: the receiver's bit when it polls, and the
transmitter's when its interrupt is enabled. The transmitter's bits are set from
reset on and nothing takes them down, so both forms go through the same states.
-/

namespace Rv32

/-! ## The stored form -/

structure StoredUart where
  console : Console
  received : Byte
  ier : Byte
  lcr : Byte
  mcr : Byte
  lsr : Byte
  scratch : Byte
  fifoEnabled : Bool
  divisor : Vector Byte 3
  transmitDue : Bool

namespace StoredUart

open Uart (AccessError InterruptId)

def reset (console : Console) : StoredUart :=
  { console := console
    received := 0
    ier := 0
    lcr := 0x03
    mcr := 0
    lsr := 0x60
    scratch := 0
    fifoEnabled := false
    divisor := Vector.replicate 3 0
    transmitDue := false }

def divisorSelected (c : StoredUart) : Bool :=
  c.lcr.getLsbD 7

def dataReady (c : StoredUart) : Bool :=
  c.lsr.getLsbD 0

def setDataReady (c : StoredUart) (level : Bool) : StoredUart :=
  { c with lsr := withBit 0 level c.lsr }

def holdingEmpty (c : StoredUart) : Bool :=
  c.lsr.getLsbD 5

def receiveEnabled (c : StoredUart) : Bool :=
  c.ier.getLsbD 0

def transmitEnabled (c : StoredUart) : Bool :=
  c.ier.getLsbD 1

def interruptId (c : StoredUart) : InterruptId :=
  if c.receiveEnabled && c.dataReady then .receivedData
  else if c.transmitEnabled && c.transmitDue then .transmitterEmpty
  else .none

def poll (c : StoredUart) : StoredUart :=
  if c.dataReady then c
  else
    match c.console.input with
    | [] => c
    | b :: rest =>
        { c with console := { c.console with input := rest }, received := b }.setDataReady true

def arrive (c : StoredUart) (bytes : List Byte) : StoredUart :=
  { c with console := c.console.arrive bytes }

def readReceiver (c : StoredUart) : Byte × StoredUart :=
  (c.received, c.setDataReady false)

def readLineStatus (c : StoredUart) : Byte × StoredUart :=
  (c.poll.lsr, c.poll)

def readIdentification (c : StoredUart) : Byte × StoredUart :=
  let id := c.interruptId
  let next := if id = .transmitterEmpty then { c with transmitDue := false } else c
  (if next.fifoEnabled then id.code ||| 0xC0 else id.code, next)

/-- The holding register and the transmitter are empty again as soon as a byte is written. -/
def transmit (c : StoredUart) (b : Byte) : StoredUart :=
  { c with
    console := c.console.emit b
    lsr := withBit 6 true (withBit 5 true c.lsr)
    transmitDue := true }

/-- Enabling the interrupt of the transmitter raises it if the holding register is empty. -/
def writeEnable (c : StoredUart) (v : Byte) : StoredUart :=
  let next := { c with ier := v &&& 0x0F }
  if !c.transmitEnabled && next.transmitEnabled && next.holdingEmpty then
    { next with transmitDue := true }
  else next

def latch? (c : StoredUart) (offset : Word) : Option (Fin 3) :=
  if c.divisorSelected then if h : offset.toNat < 3 then some ⟨offset.toNat, h⟩ else none
  else none

def readRegister (c : StoredUart) (offset : Word) : Except AccessError (Byte × StoredUart) :=
  match c.latch? offset with
  | some k => .ok (c.divisor.get k, c)
  | none =>
      match offset.toNat with
      | 0 => .ok c.readReceiver
      | 1 => .ok (c.ier, c)
      | 2 => .ok c.readIdentification
      | 3 => .ok (c.lcr, c)
      | 4 => .ok (c.mcr, c)
      | 5 => .ok c.readLineStatus
      | 6 => .ok (Uart.modemStatus, c)
      | 7 => .ok (c.scratch, c)
      | _ => .error (.unmapped offset)

def writeRegister (c : StoredUart) (offset : Word) (v : Byte) : Except AccessError StoredUart :=
  match c.latch? offset with
  | some k => .ok { c with divisor := c.divisor.set k.val v k.isLt }
  | none =>
      match offset.toNat with
      | 0 => .ok (c.transmit v)
      | 1 => .ok (c.writeEnable v)
      | 2 => .ok { c with fifoEnabled := v.getLsbD 0 }
      | 3 => .ok { c with lcr := v }
      | 4 => .ok { c with mcr := v }
      | 5 => .error (.readOnly "Line Status Register")
      | 6 => .error (.readOnly "Modem Status Register")
      | 7 => .ok { c with scratch := v }
      | _ => .error (.unmapped offset)

def after (c : StoredUart) : Uart.Event → StoredUart
  | .read offset =>
      match c.readRegister offset with
      | .ok (_, next) => next
      | .error _ => c
  | .write offset v =>
      match c.writeRegister offset v with
      | .ok next => next
      | .error _ => c
  | .poll => c.poll
  | .arrival bytes => c.arrive bytes

def play (c : StoredUart) : List Uart.Event → StoredUart
  | [] => c
  | e :: rest => (c.after e).play rest

end StoredUart

/-! ## One operation -/

namespace Uart

def stored (u : Uart) : StoredUart :=
  { console := u.console
    received := u.received
    ier := u.ier
    lcr := u.lcr
    mcr := u.mcr
    lsr := u.lineStatus
    scratch := u.scratch
    fifoEnabled := u.fifoEnabled
    divisor := u.divisor
    transmitDue := u.transmitDue }

theorem stored_reset (console : Console) : (reset console).stored = .reset console := rfl

theorem dataReady_stored (u : Uart) : u.stored.dataReady = u.dataReady := by
  change u.lineStatus.getLsbD 0 = u.dataReady
  unfold lineStatus
  cases u.dataReady <;> rfl

theorem holdingEmpty_stored (u : Uart) : u.stored.holdingEmpty = true := by
  change u.lineStatus.getLsbD 5 = true
  unfold lineStatus
  cases u.dataReady <;> rfl

theorem setDataReady_stored (u : Uart) (level : Bool) :
    u.stored.setDataReady level = { u with dataReady := level }.stored := by
  have hlsr : withBit 0 level u.lineStatus = if level then 0x61 else 0x60 := by
    unfold lineStatus
    cases u.dataReady <;> cases level <;> decide
  unfold StoredUart.setDataReady
  rw [show u.stored.lsr = u.lineStatus from rfl, hlsr]
  rfl

theorem interruptId_stored (u : Uart) : u.stored.interruptId = u.interruptId := by
  unfold StoredUart.interruptId
  rw [u.dataReady_stored]
  rfl

theorem poll_stored (u : Uart) : u.stored.poll = u.poll.stored := by
  unfold StoredUart.poll poll
  rw [u.dataReady_stored, show u.stored.console = u.console from rfl]
  split
  · rfl
  · cases u.console.input with
    | nil => rfl
    | cons b rest =>
        exact setDataReady_stored
          { u with console := { u.console with input := rest }, received := b } true

theorem readIdentification_stored (u : Uart) :
    u.stored.readIdentification = (u.identification, u.acknowledge.stored) := by
  unfold StoredUart.readIdentification identification acknowledge
  rw [u.interruptId_stored]
  by_cases hid : u.interruptId = .transmitterEmpty
  · simp only [hid, if_true]
    rfl
  · simp only [hid, if_false]
    rfl

theorem transmit_stored (u : Uart) (b : Byte) : u.stored.transmit b = (u.transmit b).stored := by
  have hlsr : withBit 6 true (withBit 5 true u.lineStatus) = u.lineStatus := by
    unfold lineStatus
    cases u.dataReady <;> decide
  unfold StoredUart.transmit
  rw [show u.stored.lsr = u.lineStatus from rfl, hlsr]
  rfl

/-- The holding register is always found empty. -/
theorem writeEnable_stored (u : Uart) (v : Byte) :
    u.stored.writeEnable v = (u.writeEnable v).stored := by
  have hempty : { u.stored with ier := v &&& 0x0F }.holdingEmpty = true := u.holdingEmpty_stored
  have hbit : (v &&& 0x0F).getLsbD 1 = v.getLsbD 1 := by
    rw [BitVec.getLsbD_and]
    exact Bool.and_true _
  have hraised : { u.stored with ier := v &&& 0x0F }.transmitEnabled = v.getLsbD 1 := hbit
  unfold StoredUart.writeEnable writeEnable
  dsimp only
  rw [hempty, hraised, Bool.and_true, show u.stored.transmitEnabled = u.transmitEnabled from rfl]
  cases !u.transmitEnabled && v.getLsbD 1 with
  | false =>
      rw [Bool.or_false]
      rfl
  | true =>
      rw [Bool.or_true]
      rfl

/-! ## Accesses and runs -/

theorem latch?_stored {u : Uart} {offset : Word} {k : Fin 3}
    (h : u.stored.latch? offset = some k) :
    u.divisorSelected = true ∧ offset = latchOffset k := by
  unfold StoredUart.latch? at h
  split at h
  · rename_i hselected
    split at h
    · cases h
      refine ⟨hselected, ?_⟩
      rw [latchOffset, BitVec.ofNat_toNat, BitVec.setWidth_eq]
    · cases h
  · cases h

theorem latch?_stored_eq_none {u : Uart} {offset : Word} (h : u.stored.latch? offset = none) :
    u.divisorSelected = true → 3 ≤ offset.toNat := by
  intro hselected
  have hstored : u.stored.divisorSelected = true := hselected
  unfold StoredUart.latch? at h
  rw [if_pos hstored] at h
  split at h
  · cases h
  · rename_i hlarge
    exact Nat.not_lt.mp hlarge

theorem readRegister_stored (u : Uart) (offset : Word) :
    u.stored.readRegister offset =
      (u.readRegister offset).map fun answer => (answer.1, answer.2.stored) := by
  have hreceiver : u.stored.readReceiver = (u.received, { u with dataReady := false }.stored) := by
    rw [← u.setDataReady_stored false]
    rfl
  have hstatus : u.stored.readLineStatus = (u.poll.lineStatus, u.poll.stored) := by
    unfold StoredUart.readLineStatus
    rw [u.poll_stored]
    rfl
  cases hlatch : u.stored.latch? offset with
  | some k =>
      obtain ⟨hselected, rfl⟩ := latch?_stored hlatch
      rw [readRegister_latch hselected k]
      simp only [StoredUart.readRegister, hlatch]
      rfl
  | none =>
      have hlarge := latch?_stored_eq_none hlatch
      simp only [StoredUart.readRegister, readRegister, hlatch, hreceiver, hstatus,
        readIdentification_stored]
      generalize offset.toNat = k at hlarge ⊢
      generalize u.divisorSelected = selected at hlarge ⊢
      cases selected with
      | false => rcases k with _ | _ | _ | _ | _ | _ | _ | _ | k <;> rfl
      | true =>
          obtain ⟨j, rfl⟩ := Nat.exists_eq_add_of_le' (hlarge rfl)
          rcases j with _ | _ | _ | _ | _ | j <;> rfl

theorem writeRegister_stored (u : Uart) (offset : Word) (v : Byte) :
    u.stored.writeRegister offset v = (u.writeRegister offset v).map stored := by
  cases hlatch : u.stored.latch? offset with
  | some k =>
      obtain ⟨hselected, rfl⟩ := latch?_stored hlatch
      rw [writeRegister_latch hselected k]
      simp only [StoredUart.writeRegister, hlatch]
      rfl
  | none =>
      have hlarge := latch?_stored_eq_none hlatch
      simp only [StoredUart.writeRegister, writeRegister, hlatch, transmit_stored,
        writeEnable_stored]
      generalize offset.toNat = k at hlarge ⊢
      generalize u.divisorSelected = selected at hlarge ⊢
      cases selected with
      | false => rcases k with _ | _ | _ | _ | _ | _ | _ | _ | k <;> rfl
      | true =>
          obtain ⟨j, rfl⟩ := Nat.exists_eq_add_of_le' (hlarge rfl)
          rcases j with _ | _ | _ | _ | _ | j <;> rfl

theorem after_stored (u : Uart) (e : Event) : u.stored.after e = (u.after e).stored := by
  cases e with
  | read offset =>
      simp only [StoredUart.after, after, readRegister_stored]
      cases u.readRegister offset <;> rfl
  | write offset v =>
      simp only [StoredUart.after, after, writeRegister_stored]
      cases u.writeRegister offset v <;> rfl
  | poll => exact u.poll_stored
  | arrival bytes => rfl

theorem play_stored (u : Uart) (es : List Event) : u.stored.play es = (u.play es).stored := by
  induction es generalizing u with
  | nil => rfl
  | cons e rest ih =>
      rw [StoredUart.play, after_stored, ih]
      rfl

/--
From reset on both forms answer every read alike and ask for the same interrupt.
In the stored register the bits of the transmitter are set, and the receiver's
bit says whether a byte is in it.
-/
theorem lsr_play (console : Console) (es : List Event) :
    let u := (reset console).play es
    let c := (StoredUart.reset console).play es
    (∀ offset, (c.readRegister offset).map Prod.fst = (u.readRegister offset).map Prod.fst) ∧
      c.interruptId = u.interruptId ∧
      c.lsr = u.lineStatus ∧ (c.lsr = 0x60 ∨ c.lsr = 0x61) ∧ c.dataReady = u.dataReady := by
  intro u c
  have hc : c = u.stored := by
    change (StoredUart.reset console).play es = ((reset console).play es).stored
    rw [← stored_reset, play_stored]
  rw [hc]
  refine ⟨?_, u.interruptId_stored, rfl, ?_, u.dataReady_stored⟩
  · intro offset
    rw [readRegister_stored]
    cases u.readRegister offset <;> rfl
  · change u.lineStatus = 0x60 ∨ u.lineStatus = 0x61
    unfold lineStatus
    cases u.dataReady
    · exact .inl rfl
    · exact .inr rfl

end Uart

end Rv32
