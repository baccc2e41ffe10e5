import Rv32.Proofs.Hart.Accesses
import Rv32.Proofs.Hart.Run

/-! # Instructions that fail

An instruction fails if its function fields name no operation, if it raises an
exception, or if it ends a self-test. Whatever it has looked at by then, it has
changed nothing: the machine is as it was, and no access has been made.
-/

namespace Rv32

namespace Hart

theorem Effect.eq_of_not_completed {h after : Hart} {i : Instruction} {outcome : Outcome}
    (he : Effect h i outcome after) (hfail : outcome ≠ .completed) : after = h := by
  cases outcome with
  | completed => exact absurd rfl hfail
  | raised e => exact he.eq_of_raised
  | exited v => exact he.eq_of_exited

end Hart

namespace Machine

variable {β : Type} [Bus β]

/-! ## Refusals -/

theorem execute?_eq_none_iff (m : Machine β) (i : Instruction) :
    m.execute? i = none ↔ i.operation? = none := by
  cases i <;> simp [execute?, Instruction.operation?]

/-- Execution refuses the instructions that name no operation, and with the same error. -/
theorem execute_eq_error_iff (m : Machine β) (i : Instruction) (e : DecodeError) :
    m.execute i = .error e ↔ i.operation = .error e := by
  have hnone := m.execute?_eq_none_iff i
  unfold execute Instruction.operation
  cases hexec : m.execute? i with
  | none => simp [hnone.mp hexec]
  | some result =>
      cases hop : i.operation? with
      | none =>
          rw [hnone.mpr hop] at hexec
          cases hexec
      | some op => simp

theorem dispatch_of_refused {m : Machine β} {i : Instruction} {e : DecodeError} {raw : Word}
    (hi : instructionAt m.hart.pc raw = .ok i) (h : m.execute i = .error e) :
    m.dispatch raw = (.fatal (.decode m.hart.pc e), m) := by
  simp only [dispatch, hi, h]

/-! ## Exceptions and exits -/

/-- Only operations that do not use the bus can fail. -/
theorem bus_of_not_completed {m after : Machine β} {i : Instruction} {outcome : Outcome}
    (h : m.execute i = .ok (outcome, after)) (hfail : outcome ≠ .completed) :
    after.bus = m.bus := by
  refine execute_cases (P := fun _ r => r.1 ≠ .completed → r.2.bus = m.bus)
    ?reg ?imm ?store ?branch ?upper ?jump ?fence h hfail
  case reg =>
    intro x op _
    cases op with
    | storeConditional =>
        simp only [executeReg, storeConditional]
        split
        · exact fun hfail => absurd rfl hfail
        · exact fun hfail => absurd rfl hfail
    | _ => exact fun hfail => absurd rfl hfail
  case imm =>
    intro x op _
    cases op with
    | load op => exact fun hfail => absurd rfl hfail
    | _ => exact fun _ => rfl
  case store => exact fun _ _ _ hfail => absurd rfl hfail
  case branch =>
    intro x op _
    unfold executeBranch
    split
    · exact fun _ => rfl
    · exact fun _ => rfl
  case upper =>
    intro x op _
    cases op with
    | lui => exact fun _ => rfl
    | auipc => exact fun _ => rfl
  case jump =>
    intro x op _
    cases op with
    | jal => exact fun _ => rfl
  case fence =>
    intro x op _
    cases op with
    | fence => exact fun _ => rfl
    | fenceI => exact fun _ => rfl

theorem eq_of_not_completed {m after : Machine β} {i : Instruction} {outcome : Outcome}
    (h : m.execute i = .ok (outcome, after)) (hfail : outcome ≠ .completed) : after = m := by
  have hhart := (effect_of_execute h).eq_of_not_completed hfail
  have hbus := bus_of_not_completed h hfail
  cases m
  cases after
  simp only at hhart hbus
  rw [hhart, hbus]

/-- The journal of an instruction that fails is as empty as it was. -/
theorem executeAccesses_of_not_completed {m after : Machine β} {i : Instruction}
    {outcome : Outcome} (h : m.execute i = .ok (outcome, after)) (hfail : outcome ≠ .completed) :
    m.executeAccesses i = [] := by
  have hsame := eq_of_not_completed (execute_of_journal (j := .start m.bus) h) hfail
  exact congrArg (fun n => n.bus.accesses) hsame

theorem executeAccesses_of_refused {m : Machine β} {i : Instruction} {e : DecodeError}
    (h : m.execute i = .error e) : m.executeAccesses i = [] := by
  have hrefused : m.journaled.execute i = .error e :=
    (m.journaled.execute_eq_error_iff i e).mpr ((m.execute_eq_error_iff i e).mp h)
  unfold executeAccesses
  rw [hrefused]

/-! ## Control register accesses -/

theorem execute_csr_of_refused {m : Machine β} {x : IType} {action : CsrAction}
    {operand : CsrOperand} (hop : x.operation? = some (.csr action operand))
    {value mask old : Word} {e : Exception}
    (hwrite : Hart.csrWrite? action (m.hart.csrOperand x operand)
      (decide (x.rs1 = Register.zero)) = some (value, mask))
    (hread : m.hart.csrs.read (x.csr.setWidth 16) m.hart.level = .ok old)
    (hrefused : m.hart.csrs.writeMasked (x.csr.setWidth 16) value mask m.hart.level = .error e) :
    m.execute (.i x) = .ok (.raised e, m) := by
  have haccess : m.hart.executeCsr x action operand = (.raised e, m.hart) := by
    unfold Hart.executeCsr Hart.accessCsr
    rw [hwrite, hread]
    simp only [hrefused]
  have hexec : m.executeImm x (.csr action operand) = (.raised e, m) := by
    change m.settle (m.hart.executeCsr x action operand) = _
    rw [haccess]
    rfl
  rw [m.execute_imm hop, hexec]

/--
An instruction is refused if, and only if, it names no operation, and then with
the same error. Refused, or with an exception or the end of a self-test for its
outcome, it leaves the machine as it was and has made no access to the bus. So
does a control register access of which only the write is not allowed: it writes
neither register.
-/
theorem failed_instruction_changes_nothing (m : Machine β) (i : Instruction) :
    (∀ e, m.execute i = .error e ↔ i.operation = .error e) ∧
      (∀ e, m.execute i = .error e →
        m.executed i = m ∧ m.executeAccesses i = [] ∧
          ∀ raw, instructionAt m.hart.pc raw = .ok i →
            m.dispatch raw = (.fatal (.decode m.hart.pc e), m)) ∧
      (∀ outcome after, m.execute i = .ok (outcome, after) → outcome ≠ .completed →
        after = m ∧ m.executeAccesses i = []) ∧
      (∀ (x : IType) action operand value mask old e, i = .i x →
        x.operation? = some (.csr action operand) →
        Hart.csrWrite? action (m.hart.csrOperand x operand) (decide (x.rs1 = Register.zero)) =
          some (value, mask) →
        m.hart.csrs.read (x.csr.setWidth 16) m.hart.level = .ok old →
        m.hart.csrs.writeMasked (x.csr.setWidth 16) value mask m.hart.level = .error e →
        m.execute i = .ok (.raised e, m) ∧ m.executeAccesses i = []) := by
  refine ⟨m.execute_eq_error_iff i, ?refused, ?failed, ?csr⟩
  case refused =>
    intro e h
    refine ⟨?_, executeAccesses_of_refused h, fun raw hi => dispatch_of_refused hi h⟩
    simp only [executed, h]
  case failed =>
    intro outcome after h hfail
    exact ⟨eq_of_not_completed h hfail, executeAccesses_of_not_completed h hfail⟩
  case csr =>
    rintro x action operand value mask old e rfl hop hwrite hread hrefused
    have hexec := execute_csr_of_refused hop hwrite hread hrefused
    exact ⟨hexec, executeAccesses_of_not_completed hexec (by simp)⟩

def writeCycle : IType :=
  { opcode := Opcode.system, rd := 5, funct3 := 1, rs1 := 6, imm := 0xFFFFFC00 }

theorem failed_instruction_changes_nothing_cycle :
    idle.execute (.i writeCycle) = .ok (.raised .illegalInstruction, idle) ∧
      idle.executeAccesses (.i writeCycle) = [] := by
  obtain ⟨-, -, -, hcsr⟩ := failed_instruction_changes_nothing idle (.i writeCycle)
  exact hcsr writeCycle .write .register 0 (.allOnes 32) 0 .illegalInstruction rfl (by decide)
    (by decide) rfl rfl

end Machine

end Rv32
