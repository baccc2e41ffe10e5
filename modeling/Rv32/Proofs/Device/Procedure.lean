import Rv32.Device.Clint
import Rv32.Device.Frame
import Rv32.Device.Plic
import Rv32.Device.Uart
import Rv32.Proofs.Bus.Access
import Rv32.Proofs.Device.Plic

/-! # Accesses step by step

An access to a device checks what is asked for and changes the device, one step
after the other. Here each access that can change a device is written as such a
procedure. When it is refused half-way, what it has done by then stays done. The
accesses of the devices are defined as a whole, and a refusal has no device to
show for it. That the two agree means that no procedure is refused after it has
changed something.
-/

namespace Rv32

/-- The steps of an access. A refusal leaves the device as the steps before it have made it. -/
abbrev Procedure (ε δ α : Type) := EStateM ε δ α

namespace Procedure

variable {ε δ α γ : Type}

/-- The steps make the access, or it is refused and they have not changed anything. -/
structure Performs (f : Procedure ε δ α) (access : δ → Except ε (α × δ)) : Prop where
  made : ∀ d v next, access d = .ok (v, next) → f.run d = .ok v next
  refused : ∀ d e, access d = .error e → f.run d = .error e d

def Changes (f : Procedure ε δ Unit) (access : δ → Except ε δ) : Prop :=
  f.Performs fun d => (access d).map fun next => ((), next)

/-- What is left of an access that is made as a whole, or not at all. -/
def settled (d : δ) : Except ε (α × δ) → EStateM.Result ε δ α
  | .ok (v, next) => .ok v next
  | .error e => .error e d

variable {f : Procedure ε δ α} {access : δ → Except ε (α × δ)}

theorem performs_iff : f.Performs access ↔ ∀ d, f.run d = settled d (access d) := by
  constructor
  · intro h d
    cases hd : access d with
    | ok r => exact h.made d r.1 r.2 hd
    | error e => exact h.refused d e hd
  · intro h
    refine { made := ?_, refused := ?_ }
    · intro d v next hd
      rw [h d, hd]
      rfl
    · intro d e hd
      rw [h d, hd]
      rfl

/-- What is made of the result changes nothing more. -/
theorem Performs.bind_pure (h : f.Performs access) (g : α → γ) :
    (do return g (← f) : Procedure ε δ γ).Performs fun d =>
      (access d).map fun r => (g r.1, r.2) := by
  rw [performs_iff] at *
  intro d
  simp only [EStateM.run_bind, h d]
  cases access d with
  | ok r => rfl
  | error e => rfl

theorem Changes.bind_pure {f : Procedure ε δ Unit} {access : δ → Except ε δ}
    (h : f.Changes access) (v : γ) :
    (do f; return v : Procedure ε δ γ).Performs fun d =>
      (access d).map fun next => (v, next) := by
  have hall := performs_iff.mp (Performs.bind_pure h fun _ => v)
  rw [performs_iff]
  intro d
  refine (hall d).trans ?_
  cases access d with
  | ok next => rfl
  | error e => rfl

def look (view : δ → Except ε α) : Procedure ε δ α := do
  match view (← get) with
  | .ok v => return v
  | .error e => throw e

theorem performs_look (view : δ → Except ε α) :
    (look view).Performs fun d => (view d).map fun v => (v, d) := by
  rw [performs_iff]
  intro d
  simp only [look, EStateM.run_bind, EStateM.run_get]
  cases view d with
  | ok v => rfl
  | error e => rfl

def replaceAt {n : Nat} (xs : Vector α n) (i : Fin n) (v : α) : Vector α n :=
  xs.set i.val v i.isLt

end Procedure

open Procedure

/-! ## The core-local interruptor -/

namespace Clint

def writeWordSteps (offset v : Word) : Procedure AccessError Clint Unit := do
  match Register.ofOffset? offset with
  | some .msip => modify fun c => { c with msip := v.getLsbD 0 }
  | some (.mtimecmp h) => modify fun c => { c with mtimecmp := DoubleWord.withHalf c.mtimecmp h v }
  | some (.mtime h) => modify fun c => c.setMtime (DoubleWord.withHalf c.mtime h v)
  | none => throw (.unmapped offset)

def writeDoubleSteps (offset : Word) (v : DoubleWord) : Procedure AccessError Clint Unit := do
  match WideRegister.ofOffset? offset with
  | some .mtimecmp => modify fun c => { c with mtimecmp := v }
  | some .mtime => modify fun c => c.setMtime v
  | none => throw (.unsupported offset 8)

theorem changes_writeWord (offset v : Word) :
    (writeWordSteps offset v).Changes fun c => c.writeWord offset v := by
  refine performs_iff.mpr fun c => ?_
  simp only [writeWordSteps, writeWord]
  cases Register.ofOffset? offset with
  | none => rfl
  | some r => cases r <;> rfl

theorem changes_writeDouble (offset : Word) (v : DoubleWord) :
    (writeDoubleSteps offset v).Changes fun c => c.writeDouble offset v := by
  refine performs_iff.mpr fun c => ?_
  simp only [writeDoubleSteps, writeDouble]
  cases WideRegister.ofOffset? offset with
  | none => rfl
  | some r => cases r <;> rfl

end Clint

/-! ## The interrupt controller -/

namespace Plic

def claimSteps (c : Fin 2) : Procedure AccessError Plic Word := do
  match (← get).candidate? c with
  | none => return 0
  | some s =>
      modify fun p => { p with pending := p.pending.put s false }
      modify fun p => { p with inService := p.inService.put s true }
      return BitVec.ofNat 32 s.val

def completeSteps (n : Nat) : Procedure AccessError Plic Unit := do
  match source? n with
  | none => return
  | some s =>
      if (← get).inService.has s then
        modify fun p => { p with inService := p.inService.put s false }
        modify fun p => { p with pending := p.pending.put s (p.levels.has s) }

def readSteps (offset : Word) : Procedure AccessError Plic Word := do
  match Register.ofOffset? offset with
  | some (.priority s) => return BitVec.ofNat 32 ((← get).priorities.get s).val
  | some (.pending h) => return DoubleWord.half (← get).pending h
  | some (.enable c h) => return DoubleWord.half ((← get).enabled.get c) h
  | some (.threshold c) => return BitVec.ofNat 32 ((← get).thresholds.get c).val
  | some (.claim c) => claimSteps c
  | none => throw (.unmapped offset)

def writeSteps (offset v : Word) : Procedure AccessError Plic Unit := do
  match Register.ofOffset? offset with
  | some (.priority s) =>
      if s.val ≠ 0 then
        modify fun p => { p with priorities := replaceAt p.priorities s (clampPriority v) }
  | some (.pending _) => throw (.readOnly offset)
  | some (.enable c h) =>
      let set := DoubleWord.withHalf ((← get).enabled.get c) h (enableBits h v)
      modify fun p => { p with enabled := replaceAt p.enabled c set }
  | some (.threshold c) =>
      modify fun p => { p with thresholds := replaceAt p.thresholds c (clampPriority v) }
  | some (.claim _) => completeSteps v.toNat
  | none => throw (.unmapped offset)

theorem run_claimSteps (c : Fin 2) (p : Plic) :
    (claimSteps c).run p = .ok (p.claim c.val).1 (p.claim c.val).2 := by
  simp only [claimSteps, EStateM.run_bind, EStateM.run_get]
  cases hcandidate : p.candidate? c with
  | none =>
      rw [claim_of_none hcandidate]
      rfl
  | some s =>
      rw [claim_of_some hcandidate]
      rfl

theorem run_completeSteps (n : Nat) (p : Plic) :
    (completeSteps n).run p = .ok () (p.complete n) := by
  unfold completeSteps complete
  cases source? n with
  | none => rfl
  | some s =>
      simp only [EStateM.run_bind, EStateM.run_get]
      cases p.inService.has s with
      | true => rfl
      | false => rfl

theorem performs_readWord (offset : Word) :
    (readSteps offset).Performs fun p => p.readWord offset := by
  refine performs_iff.mpr fun p => ?_
  simp only [readSteps, readWord]
  cases Register.ofOffset? offset with
  | none => rfl
  | some r =>
      cases r with
      | claim c => exact run_claimSteps c p
      | _ => rfl

theorem changes_writeWord (offset v : Word) :
    (writeSteps offset v).Changes fun p => p.writeWord offset v := by
  refine performs_iff.mpr fun p => ?_
  simp only [writeSteps, writeWord]
  cases Register.ofOffset? offset with
  | none => rfl
  | some r =>
      cases r with
      | priority s =>
          by_cases hs : s = 0
          · rw [hs]
            rfl
          · have hval : s.val ≠ 0 := fun h => hs (Fin.ext h)
            simp only [if_pos hval, if_neg hs]
            rfl
      | claim c => exact run_completeSteps v.toNat p
      | _ => rfl

end Plic

/-! ## The UART -/

namespace Uart

def receive : Procedure AccessError Uart Byte := do
  modify fun u => { u with dataReady := false }
  return (← get).received

def identify : Procedure AccessError Uart Byte := do
  let v := (← get).identification
  modify acknowledge
  return v

def pollStatus : Procedure AccessError Uart Byte := do
  modify poll
  return (← get).lineStatus

def readSteps (offset : Word) : Procedure AccessError Uart Byte := do
  let selected := (← get).divisorSelected
  match offset.toNat with
  | 0 => if selected then return (← get).divisor.get 0 else receive
  | 1 => if selected then return (← get).divisor.get 1 else return (← get).ier
  | 2 => if selected then return (← get).divisor.get 2 else identify
  | 3 => return (← get).lcr
  | 4 => return (← get).mcr
  | 5 => pollStatus
  | 6 => return modemStatus
  | 7 => return (← get).scratch
  | _ => throw (.unmapped offset)

/-- A transmitted byte is with the console before the transmitter is said to be empty. -/
def transmitSteps (v : Byte) : Procedure AccessError Uart Unit := do
  modify fun u => { u with console := u.console.emit v }
  modify fun u => { u with transmitDue := true }

def enableSteps (v : Byte) : Procedure AccessError Uart Unit := do
  let enabled := (← get).transmitEnabled
  modify fun u => { u with ier := v &&& 0x0F }
  if !enabled && (← get).transmitEnabled then
    modify fun u => { u with transmitDue := true }

def writeSteps (offset : Word) (v : Byte) : Procedure AccessError Uart Unit := do
  let selected := (← get).divisorSelected
  match offset.toNat with
  | 0 =>
      if selected then modify fun u => { u with divisor := replaceAt u.divisor 0 v }
      else transmitSteps v
  | 1 =>
      if selected then modify fun u => { u with divisor := replaceAt u.divisor 1 v }
      else enableSteps v
  | 2 =>
      if selected then modify fun u => { u with divisor := replaceAt u.divisor 2 v }
      else modify fun u => { u with fifoEnabled := v.getLsbD 0 }
  | 3 => modify fun u => { u with lcr := v }
  | 4 => modify fun u => { u with mcr := v }
  | 5 => throw (.readOnly "Line Status Register")
  | 6 => throw (.readOnly "Modem Status Register")
  | 7 => modify fun u => { u with scratch := v }
  | _ => throw (.unmapped offset)

theorem performs_readRegister (offset : Word) :
    (readSteps offset).Performs fun u => u.readRegister offset := by
  refine performs_iff.mpr fun u => ?_
  unfold readRegister
  split
  case h_12 =>
    simp only [readSteps, EStateM.run_bind, EStateM.run_get]
    split
    all_goals simp_all
    rfl
  all_goals
    simp only [readSteps, EStateM.run_bind, EStateM.run_get, *]
    rfl

theorem run_enableSteps (v : Byte) (u : Uart) :
    (enableSteps v).run u = .ok () (u.writeEnable v) := by
  have hbit : ({ u with ier := v &&& 0x0F } : Uart).transmitEnabled = v.getLsbD 1 := by
    simp [transmitEnabled]
  simp only [enableSteps, EStateM.run_bind, EStateM.run_get, EStateM.run_modify, hbit, writeEnable]
  by_cases hraised : (!u.transmitEnabled && v.getLsbD 1) = true
  · rw [if_pos hraised, hraised, Bool.or_true]
    rfl
  · rw [if_neg hraised, Bool.eq_false_iff.mpr hraised, Bool.or_false]
    rfl

theorem changes_writeRegister (offset : Word) (v : Byte) :
    (writeSteps offset v).Changes fun u => u.writeRegister offset v := by
  refine performs_iff.mpr fun u => ?_
  change _ = settled u ((u.writeRegister offset v).map fun next => ((), next))
  unfold writeRegister
  split
  case h_5 =>
    simp only [writeSteps, EStateM.run_bind, EStateM.run_get, *]
    exact run_enableSteps v u
  case h_12 =>
    simp only [writeSteps, EStateM.run_bind, EStateM.run_get]
    split
    all_goals simp_all
    rfl
  all_goals
    simp only [writeSteps, EStateM.run_bind, EStateM.run_get, *]
    rfl

end Uart

/-! ## The framebuffer -/

namespace Frame

def storeSteps (i : Nat) : List Byte → Procedure AccessError Frame Unit
  | [] => return
  | b :: rest => do
      modify fun f => { f with bytes := f.bytes.set i b }
      storeSteps (i + 1) rest

def writeSteps (offset : Word) (bytes : List Byte) : Procedure AccessError Frame Unit := do
  if offset.toNat + bytes.length ≤ (← get).byteCount then storeSteps offset.toNat bytes
  else throw (.outOfBounds offset bytes.length)

theorem run_storeSteps (i : Nat) (bytes : List Byte) (f : Frame) :
    (storeSteps i bytes).run f = .ok () (f.writeFrom i bytes) := by
  induction bytes generalizing i f with
  | nil => rfl
  | cons b rest ih =>
      simp only [storeSteps, EStateM.run_bind, EStateM.run_modify]
      exact ih (i + 1) _

theorem changes_write (offset : Word) (bytes : List Byte) :
    (writeSteps offset bytes).Changes fun f => f.write offset bytes := by
  refine performs_iff.mpr fun f => ?_
  simp only [writeSteps, EStateM.run_bind, EStateM.run_get, write]
  by_cases hfits : offset.toNat + bytes.length ≤ f.byteCount
  · simp only [hfits, if_true]
    exact run_storeSteps offset.toNat bytes f
  · simp only [hfits, if_false]
    rfl

end Frame

end Rv32
