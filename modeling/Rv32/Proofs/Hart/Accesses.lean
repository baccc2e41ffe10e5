import Mathlib.Tactic.Choose
import Rv32.Proofs.Bus.Dialogue
import Rv32.Proofs.Hart.Step

/-! # What a step does to its bus

A machine touches what is behind its bus by reads and writes only: for every
state of its hart, an instruction is one dialogue with the bus, whichever bus
that is, and so is a step. Whatever every single access preserves is therefore
preserved by every instruction and every step.
-/

namespace Rv32

/-- What a dialogue of the hart with a bus comes to, and the machine after it. -/
def Dialogue.held {α β : Type} [Bus β] (d : Dialogue (α × Hart)) (bus : β) : α × Machine β :=
  ((d.run bus).1.1, { hart := (d.run bus).1.2, bus := (d.run bus).2 })

namespace Machine

open Bus (Accessed)

/-! ## One instruction -/

theorem exists_dialogue_executeReg (h : Hart) (x : RType) (op : RegOp) :
    ∃ d : Dialogue (Outcome × Hart), ∀ {β : Type} [Bus β] (bus : β),
      executeReg ⟨h, bus⟩ x op = d.held bus := by
  let a := h.x x.rs1
  let b := h.x x.rs2
  cases op with
  | arith op => exact ⟨.done (.completed, h.writeBack x.rd (op.eval a b)), fun _ => rfl⟩
  | mulDiv op => exact ⟨.done (.completed, h.writeBack x.rd (op.eval a b)), fun _ => rfl⟩
  | loadReserved =>
      exact ⟨.read a 4 fun bytes => .done (.completed,
        { h with reservation := some a }.writeBack x.rd (ofLeBytes 32 bytes)), fun _ => rfl⟩
  | amo op =>
      exact ⟨.read a 4 fun bytes => .write a (leBytes 4 (op.eval (ofLeBytes 32 bytes) b))
        (.done (.completed, h.writeBack x.rd (ofLeBytes 32 bytes))), fun _ => rfl⟩
  | storeConditional =>
      -- Whether the store is made depends on the hart alone.
      by_cases hreserved : h.reservation = some a
      · refine ⟨.write a (leBytes 4 b)
          (.done (.completed, { h with reservation := none }.writeBack x.rd 0)), fun _ => ?_⟩
        simp only [executeReg, storeConditional]
        rw [if_pos hreserved]
        rfl
      · refine ⟨.done (.completed, { h with reservation := none }.writeBack x.rd 1), fun _ => ?_⟩
        simp only [executeReg, storeConditional]
        rw [if_neg hreserved]
        rfl

theorem exists_dialogue_executeImm (h : Hart) (x : IType) (op : ImmOp) :
    ∃ d : Dialogue (Outcome × Hart), ∀ {β : Type} [Bus β] (bus : β),
      executeImm ⟨h, bus⟩ x op = d.held bus := by
  let a := h.x x.rs1
  cases op with
  | arith op =>
      exact ⟨.done (.completed, h.writeBack x.rd (op.registerForm.eval a x.imm)), fun _ => rfl⟩
  | load op =>
      exact ⟨.read (a + x.imm) op.width fun bytes =>
        .done (.completed, h.writeBack x.rd (op.extend bytes)), fun _ => rfl⟩
  | jalr => exact ⟨.done (.completed, h.jumpAndLink x.rd (a + x.imm)), fun _ => rfl⟩
  | ebreak => exact ⟨.done (.completed, h.advance), fun _ => rfl⟩
  | sfenceVma => exact ⟨.done (.completed, h.advance), fun _ => rfl⟩
  | ecall => exact ⟨.done h.ecall, fun _ => rfl⟩
  | sret => exact ⟨.done h.sret, fun _ => rfl⟩
  | mret => exact ⟨.done h.mret, fun _ => rfl⟩
  | wfi => exact ⟨.done h.wfi, fun _ => rfl⟩
  | csr action operand => exact ⟨.done (h.executeCsr x action operand), fun _ => rfl⟩

theorem exists_dialogue_executeStore (h : Hart) (x : SType) (op : StoreOp) :
    ∃ d : Dialogue (Outcome × Hart), ∀ {β : Type} [Bus β] (bus : β),
      executeStore ⟨h, bus⟩ x op = d.held bus :=
  ⟨.write (h.x x.rs1 + x.imm) (leBytes op.width (h.x x.rs2)) (.done (.completed, h.advance)),
    fun _ => rfl⟩

theorem exists_dialogue_executeBranch (h : Hart) (x : BType) (op : BranchOp) :
    ∃ d : Dialogue (Outcome × Hart), ∀ {β : Type} [Bus β] (bus : β),
      executeBranch ⟨h, bus⟩ x op = d.held bus := by
  by_cases htaken : op.holds (h.x x.rs1) (h.x x.rs2) = true
  · refine ⟨.done (.completed, h.jump (h.pc + x.imm)), fun _ => ?_⟩
    unfold executeBranch
    rw [if_pos htaken]
    rfl
  · refine ⟨.done (.completed, h.advance), fun _ => ?_⟩
    unfold executeBranch
    rw [if_neg htaken]
    rfl

theorem exists_dialogue_executeUpper (h : Hart) (x : UType) (op : UpperOp) :
    ∃ d : Dialogue (Outcome × Hart), ∀ {β : Type} [Bus β] (bus : β),
      executeUpper ⟨h, bus⟩ x op = d.held bus := by
  cases op with
  | lui => exact ⟨.done (.completed, h.writeBack x.rd (upperBits x.imm)), fun _ => rfl⟩
  | auipc => exact ⟨.done (.completed, h.writeBack x.rd (h.pc + upperBits x.imm)), fun _ => rfl⟩

theorem exists_dialogue_executeJump (h : Hart) (x : JType) (op : JumpOp) :
    ∃ d : Dialogue (Outcome × Hart), ∀ {β : Type} [Bus β] (bus : β),
      executeJump ⟨h, bus⟩ x op = d.held bus := by
  cases op with
  | jal => exact ⟨.done (.completed, h.jumpAndLink x.rd (h.pc + x.imm)), fun _ => rfl⟩

theorem exists_dialogue_executeFence (h : Hart) (op : FenceOp) :
    ∃ d : Dialogue (Outcome × Hart), ∀ {β : Type} [Bus β] (bus : β),
      executeFence ⟨h, bus⟩ op = d.held bus := by
  cases op with
  | fence => exact ⟨.done (.completed, h.advance), fun _ => rfl⟩
  | fenceI => exact ⟨.done (.completed, h.advance), fun _ => rfl⟩

/-- Where every operation is a dialogue, so is an instruction that names one, if it does. -/
theorem exists_dialogue_map {ω : Type} (op? : Option ω)
    {f : {β : Type} → [Bus β] → β → ω → Outcome × Machine β}
    (hf : ∀ op, ∃ d : Dialogue (Outcome × Hart), ∀ {β : Type} [Bus β] (bus : β),
      f bus op = d.held bus) :
    ∃ d? : Option (Dialogue (Outcome × Hart)), ∀ {β : Type} [Bus β] (bus : β),
      op?.map (f bus) = d?.map (Dialogue.held · bus) := by
  cases op? with
  | none => exact ⟨none, fun _ => rfl⟩
  | some op =>
      obtain ⟨d, hd⟩ := hf op
      exact ⟨some d, fun bus => congrArg some (hd bus)⟩

theorem exists_dialogue_execute? (h : Hart) (i : Instruction) :
    ∃ d? : Option (Dialogue (Outcome × Hart)), ∀ {β : Type} [Bus β] (bus : β),
      execute? ⟨h, bus⟩ i = d?.map (Dialogue.held · bus) := by
  cases i with
  | r x => exact exists_dialogue_map x.operation? (exists_dialogue_executeReg h x)
  | i x => exact exists_dialogue_map x.operation? (exists_dialogue_executeImm h x)
  | s x => exact exists_dialogue_map x.operation? (exists_dialogue_executeStore h x)
  | b x => exact exists_dialogue_map x.operation? (exists_dialogue_executeBranch h x)
  | u x => exact exists_dialogue_map x.operation? (exists_dialogue_executeUpper h x)
  | j x => exact exists_dialogue_map x.operation? (exists_dialogue_executeJump h x)
  | fence x => exact exists_dialogue_map x.operation? (exists_dialogue_executeFence h)

variable {β : Type} [Bus β]

theorem accessed_held {α : Type} (d : Dialogue (α × Hart)) (bus : β) :
    Accessed bus (d.held bus).2.bus :=
  d.accessed_run bus

/-- Executed with a journal, an instruction does what it does without one, and adds its accesses. -/
theorem execute?_of_journal (h : Hart) (j : Journaled β) (i : Instruction) :
    execute? ⟨h, j⟩ i =
      (execute? ⟨h, j.bus⟩ i).map fun r =>
        (r.1,
          { hart := r.2.hart
            bus := { bus := r.2.bus, accesses := j.accesses ++ executeAccesses ⟨h, j.bus⟩ i } }) := by
  obtain ⟨d?, hd⟩ := exists_dialogue_execute? h i
  have hstart : execute? (journaled ⟨h, j.bus⟩) i = d?.map (Dialogue.held · (.start j.bus)) :=
    hd (Journaled.start j.bus)
  unfold executeAccesses execute
  rw [hstart, hd j, hd j.bus]
  cases d? with
  | none => rfl
  | some d => simp [Dialogue.held, Dialogue.run_journaled, Journaled.start]

theorem execute_of_journal {h : Hart} {j : Journaled β} {i : Instruction} {outcome : Outcome}
    {after : Machine β} (hexec : execute ⟨h, j.bus⟩ i = .ok (outcome, after)) :
    execute ⟨h, j⟩ i =
      .ok (outcome,
        { hart := after.hart
          bus :=
            { bus := after.bus, accesses := j.accesses ++ executeAccesses ⟨h, j.bus⟩ i } }) := by
  simp only [execute, execute?_of_journal, execute_eq_ok hexec, Option.map_some]

/-! ## One step -/

theorem exists_dialogue_dispatch (h : Hart) (raw : Word) :
    ∃ d : Dialogue (StepOutcome × Hart), ∀ {β : Type} [Bus β] (bus : β),
      dispatch ⟨h, bus⟩ raw = d.held bus := by
  cases hi : instructionAt h.pc raw with
  | error f =>
      refine ⟨.done (.fatal f, h), fun _ => ?_⟩
      simp only [dispatch, hi]
      rfl
  | ok i =>
      obtain ⟨d?, hd⟩ := exists_dialogue_execute? h i
      cases d? with
      | none =>
          refine ⟨.done (.fatal (.decode h.pc i.unknownOperation), h), fun bus => ?_⟩
          simp only [dispatch, hi, execute, hd bus]
          rfl
      | some d =>
          refine ⟨d.map fun r => r.2.retire.deliver r.1, fun bus => ?_⟩
          simp only [dispatch, hi, execute, hd bus, Option.map_some, Dialogue.held,
            Dialogue.run_map]

/-- A step is a dialogue with the bus, which begins with the fetch. -/
theorem exists_dialogue_step (h : Hart) :
    ∃ d : Dialogue (StepOutcome × Hart), ∀ {β : Type} [Bus β] (bus : β),
      step ⟨h, bus⟩ = d.held bus := by
  have hdispatch := exists_dialogue_dispatch h
  choose next hnext using hdispatch
  refine ⟨.read h.pc 4 fun bytes => next (ofLeBytes 32 bytes), fun bus => ?_⟩
  exact hnext _ _

theorem accessed_step (m : Machine β) : Accessed m.bus m.step.2.bus := by
  obtain ⟨d, hd⟩ := exists_dialogue_step m.hart
  have hstep : m.step = d.held m.bus := hd m.bus
  rw [hstep]
  exact accessed_held d m.bus

def stepAccesses (m : Machine β) : List Access :=
  m.journaled.step.2.bus.accesses

/-- The accesses of a step are the fetch and those of the instruction. -/
theorem stepAccesses_of_attempt {m after : Machine β} {i : Instruction} {outcome : Outcome}
    (h : m.attempt? = some (i, outcome, after)) :
    m.stepAccesses = .read m.hart.pc 4 :: m.fetch.2.executeAccesses i := by
  obtain ⟨hi, hexec⟩ := attempt?_eq_some.mp h
  have hjournal : m.journaled.fetch.2.execute i = .ok (outcome, _) :=
    execute_of_journal (j := m.journaled.fetch.2.bus) hexec
  have hattempt : m.journaled.attempt? = some (i, outcome, _) :=
    attempt?_eq_some.mpr ⟨hi, hjournal⟩
  unfold stepAccesses
  rw [step_of_attempt hattempt]
  rfl

theorem attempt?_journaled {m : Machine β} (h : m.attempt? = none) :
    m.journaled.attempt? = none := by
  have hword : instructionAt m.journaled.hart.pc m.journaled.fetch.1 =
      instructionAt m.hart.pc m.fetch.1 := rfl
  unfold attempt? at *
  rw [hword]
  cases hi : instructionAt m.hart.pc m.fetch.1 with
  | error f => rfl
  | ok i =>
      have hexec := execute?_of_journal m.hart m.journaled.fetch.2.bus i
      have hnone : m.fetch.2.execute? i = none := by
        cases hsome : m.fetch.2.execute? i with
        | none => rfl
        | some r => simp [hi, execute, hsome] at h
      have hrefused : m.journaled.fetch.2.execute? i = none := by
        refine hexec.trans ?_
        change (m.fetch.2.execute? i).map _ = none
        rw [hnone, Option.map_none]
      simp only [execute, hrefused]

/-- A fatal step fetches a word and accesses the bus no further. -/
theorem stepAccesses_of_fatal {m : Machine β} (h : m.attempt? = none) :
    m.stepAccesses = [.read m.hart.pc 4] := by
  unfold stepAccesses
  rw [step_of_fatal (attempt?_journaled h)]
  rfl

theorem stepAccesses_of_dialogue {m : Machine β} {d : Dialogue (StepOutcome × Hart)}
    (hd : ∀ {β : Type} [Bus β] (bus : β), step ⟨m.hart, bus⟩ = d.held bus) :
    m.stepAccesses = d.accesses m.bus := by
  have hstep : m.journaled.step = d.held (Journaled.start m.bus) := hd _
  unfold stepAccesses
  rw [hstep]
  simp [Dialogue.held, Dialogue.run_journaled, Journaled.start]

/-- Steps on coupled buses are alike if all the accesses they make are permitted. -/
theorem step_coupled {γ : Type} [Bus γ] {R : β → γ → Prop} {permitted : Access → Prop}
    (hcoupled : Bus.Coupled R permitted) {h : Hart} {b : β} {c : γ} (hR : R b c)
    (hall : ∀ a ∈ stepAccesses ⟨h, b⟩, permitted a) :
    (step ⟨h, b⟩).1 = (step ⟨h, c⟩).1 ∧ (step ⟨h, b⟩).2.hart = (step ⟨h, c⟩).2.hart ∧
      R (step ⟨h, b⟩).2.bus (step ⟨h, c⟩).2.bus := by
  obtain ⟨d, hd⟩ := exists_dialogue_step h
  rw [stepAccesses_of_dialogue (m := ⟨h, b⟩) hd] at hall
  obtain ⟨hsame, hafter⟩ := d.run_coupled hcoupled hR hall
  rw [hd b, hd c]
  exact ⟨congrArg Prod.fst hsame, congrArg Prod.snd hsame, hafter⟩

end Machine

end Rv32
