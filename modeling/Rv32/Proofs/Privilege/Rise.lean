import Rv32.Board.Loading
import Rv32.Proofs.Board.Waiting
import Rv32.Proofs.Trap.Choice

/-! # Rises of privilege

Instructions keep the level or lower it. It rises by traps alone, and a trap
leads to the base of a trap vector of the level that handles it. A step of a
board may lower the level by its instruction and raise it by an exception or an
interrupt, so what holds of both parts has to be carried through the step: the
level is no higher than it was, or the hart stands at the start of its handler.
-/

namespace Rv32

theorem Level.le_refl (l : Level) : l ≤ l :=
  Nat.le_refl l.rank

theorem Level.le_trans {a b c : Level} (hab : a ≤ b) (hbc : b ≤ c) : a ≤ c :=
  Nat.le_trans (m := b.rank) hab hbc

theorem Level.le_machine (l : Level) : l ≤ .machine := by
  cases l <;> decide

namespace Hart

/-! ## Instructions -/

theorem sppLevel_le {h : Hart} (hmay : h.mayLeaveSupervisor = true) :
    h.csrs.status.sppLevel ≤ h.level := by
  have hspp : h.csrs.status.sppLevel ≤ .supervisor := by
    unfold Status.sppLevel
    split
    · decide
    · decide
  have hlevel : Level.supervisor ≤ h.level := by
    unfold mayLeaveSupervisor at hmay
    split at hmay
    · cases hmay
    · rename_i hsupervisor
      rw [hsupervisor]
      decide
    · rename_i hmachine
      rw [hmachine]
      decide
  exact Level.le_trans hspp hlevel

theorem Effect.level_le {h after : Hart} {i : Instruction} {outcome : Outcome}
    (he : Effect h i outcome after) : after.level ≤ h.level := by
  cases he with
  | leftMachine hop hlevel =>
      rw [hlevel]
      exact Level.le_machine _
  | leftSupervisor hop hmay => exact sppLevel_le hmay
  | _ => exact Level.le_refl _

/-! ## Traps -/

/-- The hart stands at the base of the trap vector of its level. User mode has none. -/
def AtHandler (h : Hart) : Prop :=
  match h.level with
  | .user => False
  | .supervisor => h.pc = h.csrs.stvec.base
  | .machine => h.pc = h.csrs.mtvec.base

theorem atHandler_trap (h : Hart) (c : Cause) : (h.trap c).AtHandler := by
  unfold AtHandler
  rw [level_trap, pc_trap]
  rcases h.handlerLevel_cases c with hmachine | ⟨hsupervisor, -⟩
  · rw [hmachine]
    rfl
  · rw [hsupervisor]
    rfl

/-- The level is no higher than `level`, or the last to happen was a trap that raised it. -/
def RisenByTrap (level : Level) (h : Hart) : Prop :=
  h.level ≤ level ∨ h.AtHandler

theorem risenByTrap_takeInterrupt {level : Level} {h : Hart} (hrisen : RisenByTrap level h) :
    RisenByTrap level h.takeInterrupt.2 := by
  cases hi : h.nextInterrupt? with
  | none =>
      rw [takeInterrupt_of_none hi]
      exact hrisen
  | some i =>
      rw [takeInterrupt_of_some hi]
      exact .inr (h.atHandler_trap _)

end Hart

namespace Machine

variable {β : Type} [Bus β]

theorem level_executed_le (m : Machine β) (i : Instruction) :
    (m.executed i).hart.level ≤ m.hart.level := by
  rcases m.executed_cases i with hsame | ⟨outcome, he⟩
  · rw [hsame]
    exact Level.le_refl _
  · exact he.level_le

theorem risenByTrap_step (m : Machine β) : Hart.RisenByTrap m.hart.level m.step.2.hart := by
  cases hattempt : m.attempt? with
  | none =>
      rw [hart_step_of_fatal hattempt]
      exact .inl (Level.le_refl _)
  | some found =>
      obtain ⟨i, outcome, after⟩ := found
      have hle : after.hart.level ≤ m.hart.level := (effect_of_attempt hattempt).level_le
      rw [step_of_attempt hattempt]
      cases outcome with
      | completed => exact .inl hle
      | exited v => exact .inl hle
      | raised e => exact .inr (after.hart.retire.atHandler_trap _)

end Machine

namespace Board

/-- The lines of the devices move neither the hart nor its trap vectors. -/
theorem risenByTrap_sampleLines {level : Level} {b : Board}
    (hrisen : Hart.RisenByTrap level b.hart) : Hart.RisenByTrap level b.sampleLines.hart := by
  rcases hrisen with hle | hat
  · exact .inl hle
  · exact .inr hat

theorem risenByTrap_step (b : Board) : Hart.RisenByTrap b.hart.level b.step.2.hart := by
  have hstep : Hart.RisenByTrap b.hart.level b.sampleLines.machine.step.2.hart :=
    b.sampleLines.machine.risenByTrap_step
  have hcounted (machine : Machine SystemBus) :
      (b.sampleLines.countStep machine).hart = machine.hart := hart_pollUart _
  simp only [step]
  split
  · rename_i f machine hfatal
    rw [hfatal] at hstep
    exact hstep
  · rename_i v machine hexit
    rw [hexit] at hstep
    rw [hcounted]
    exact hstep
  · rename_i machine hrunning
    rw [hrunning, ← hcounted machine] at hstep
    exact Hart.risenByTrap_takeInterrupt (risenByTrap_sampleLines hstep)

/--
No instruction raises the level, whatever it comes to. No trap lowers it, and
after a trap the hart stands at the base of the trap vector of its level. So it
does after every step of a board that leaves it at a higher level than before.
-/
theorem level_rises_by_traps {β : Type} [Bus β] (m : Machine β) (i : Instruction) (h : Hart)
    (c : Cause) (b : Board) :
    (m.executed i).hart.level ≤ m.hart.level ∧
      (h.level ≤ (h.trap c).level ∧ (h.trap c).AtHandler) ∧
      (b.hart.level < b.step.2.hart.level → b.step.2.hart.AtHandler) := by
  refine ⟨m.level_executed_le i, ⟨h.level_le_handlerLevel c, h.atHandler_trap c⟩, ?_⟩
  intro hrise
  rcases b.risenByTrap_step with hle | hat
  · exact absurd hrise (Nat.not_lt_of_le hle)
  · exact hat

/-! ## A refused return -/

def returnProgram : List Byte :=
  leBytes 4 (0x30200073 : Word)

def confinedHart : Hart :=
  let h := Hart.initial defaultResetVector .selfTest 0
  { h with level := .user, csrs := { h.csrs with mtvec := .ofBase 0x80000100 .direct } }

/-- A board whose hart is about to return from machine mode without being there. -/
def confinedBoard : Board :=
  ((assemble .standard standardMap (.withInput []) 0).load defaultResetVector
    returnProgram).withHart confinedHart

theorem fetch_confinedBoard :
    confinedBoard.sampleLines.machine.fetch =
      (ofLeBytes 32 returnProgram, confinedBoard.sampleLines.machine) := by
  have hram : confinedBoard.bus.ram = Ram.empty.write defaultResetVector returnProgram := rfl
  have hprogram : confinedBoard.bus.ram.read defaultResetVector 4 = returnProgram := by
    rw [hram]
    exact Ram.read_write (k := 0) _ _ (by decide) (by decide)
  rw [fetch_from_ram rfl]
  change (ofLeBytes 32 (confinedBoard.bus.ram.read defaultResetVector 4), _) = _
  rw [hprogram]

theorem attempt?_confinedBoard :
    confinedBoard.sampleLines.machine.attempt? =
      some (.trapReturn .machine, .raised .illegalInstruction,
        confinedBoard.sampleLines.machine) := by
  have hword : ofLeBytes 32 returnProgram = 0x30200073 := by decide
  rw [Machine.attempt?_eq_some, fetch_confinedBoard, hword]
  exact ⟨rfl, rfl⟩

theorem level_step_confinedBoard : confinedBoard.step.2.hart.level = .machine := by
  simp only [step, Machine.step_of_attempt attempt?_confinedBoard]
  decide +kernel

theorem level_rises_by_traps_confined :
    confinedBoard.hart.level < confinedBoard.step.2.hart.level ∧
      confinedBoard.step.2.hart.AtHandler := by
  have hrise : confinedBoard.hart.level < confinedBoard.step.2.hart.level := by
    rw [level_step_confinedBoard]
    decide
  obtain ⟨-, -, hstep⟩ :=
    level_rises_by_traps confinedBoard.machine (.trapReturn .machine) confinedHart
      (.exception .illegalInstruction) confinedBoard
  exact ⟨hrise, hstep hrise⟩

end Board

end Rv32
