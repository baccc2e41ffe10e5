import Rv32.Memory.Ram
import Rv32.Proofs.Csr.SupervisorView
import Rv32.Proofs.Hart.Effect

/-! # Confidentiality of the machine level

Two harts below machine mode that differ only in what belongs to machine mode
execute every instruction alike: they make the same accesses to the bus, come to
the same outcome and agree afterwards as they did before. So no instruction lets
software find out what machine mode keeps to itself. The proof goes operation by
operation through both executions at once; they never part, since what they
branch on is what they agree on.
-/

namespace Rv32

/-- The harts differ only in what software below machine mode can neither read nor feel. -/
structure Hart.AgreeBelowMachine (h k : Hart) : Prop where
  resetVector : h.resetVector = k.resetVector
  ecallMode : h.ecallMode = k.ecallMode
  registers : h.registers = k.registers
  level : h.level = k.level
  reservation : h.reservation = k.reservation
  csrs : CsrBank.AgreeBelowMachine h.csrs k.csrs

namespace Hart.AgreeBelowMachine

variable {h k : Hart}

theorem x_eq (hagree : h.AgreeBelowMachine k) (r : Register) : h.x r = k.x r :=
  congrArg (fun f : RegisterFile => f.get r) hagree.registers

theorem pc_eq (hagree : h.AgreeBelowMachine k) : h.pc = k.pc :=
  congrArg RegisterFile.pc hagree.registers

/-! ## What instructions make of harts that agree -/

theorem reserving (hagree : h.AgreeBelowMachine k) (reservation : Option Word) :
    AgreeBelowMachine { h with reservation := reservation } { k with reservation := reservation } :=
  { hagree with reservation := rfl }

theorem advance (hagree : h.AgreeBelowMachine k) : h.advance.AgreeBelowMachine k.advance :=
  { hagree with registers := congrArg RegisterFile.advance hagree.registers }

theorem jump (hagree : h.AgreeBelowMachine k) (target : Word) :
    (h.jump target).AgreeBelowMachine (k.jump target) :=
  { hagree with registers := congrArg (fun f : RegisterFile => f.jump target) hagree.registers }

theorem writeBack (hagree : h.AgreeBelowMachine k) (rd : Register) (v : Word) :
    (h.writeBack rd v).AgreeBelowMachine (k.writeBack rd v) :=
  { hagree with
    registers := congrArg (fun f : RegisterFile => (f.set rd v).advance) hagree.registers }

theorem jumpAndLink (hagree : h.AgreeBelowMachine k) (rd : Register) (target : Word) :
    (h.jumpAndLink rd target).AgreeBelowMachine (k.jumpAndLink rd target) :=
  { hagree with
    registers :=
      congrArg (fun f : RegisterFile => (f.jump target).set rd f.nextPc) hagree.registers }

end Hart.AgreeBelowMachine

namespace Hart

structure SettledAlike (r s : Outcome × Hart) : Prop where
  outcome : r.1 = s.1
  hart : r.2.AgreeBelowMachine s.2

variable {h k : Hart}

theorem settledAlike_of_agree (outcome : Outcome) (hagree : h.AgreeBelowMachine k) :
    SettledAlike (outcome, h) (outcome, k) :=
  ⟨rfl, hagree⟩

theorem settledAlike_ecall (hagree : h.AgreeBelowMachine k) : SettledAlike h.ecall k.ecall := by
  have hverdict : h.verdict = k.verdict := by
    unfold verdict
    rw [hagree.x_eq, hagree.x_eq]
  unfold ecall
  rw [hagree.ecallMode]
  cases k.ecallMode with
  | selfTest =>
      rw [hverdict]
      exact settledAlike_of_agree _ hagree
  | ignore => exact settledAlike_of_agree _ hagree.advance
  | trap =>
      rw [hagree.level]
      exact settledAlike_of_agree _ hagree

/-- Below machine mode a return from machine mode is refused, before anything is looked at. -/
theorem settledAlike_mret (hagree : h.AgreeBelowMachine k) (hbelow : h.level ≠ .machine) :
    SettledAlike h.mret k.mret := by
  have hh : h.mayLeaveMachine = false := by simp [mayLeaveMachine, hbelow]
  have hk : k.mayLeaveMachine = false := by simp [mayLeaveMachine, ← hagree.level, hbelow]
  unfold mret
  rw [hh, hk]
  exact settledAlike_of_agree _ hagree

theorem settledAlike_sret (hagree : h.AgreeBelowMachine k) : SettledAlike h.sret k.sret := by
  have hmay : h.mayLeaveSupervisor = k.mayLeaveSupervisor := by
    unfold mayLeaveSupervisor
    rw [hagree.level, hagree.csrs.tsr]
  have hepc : h.csrs.epc .supervisor = k.csrs.epc .supervisor := hagree.csrs.plain .sepc rfl
  have hspp := Status.sppLevel_congr hagree.csrs.sstatus
  have hcsrs := hagree.csrs.withStatus
    (Status.supervisorView_leaveSupervisor_congr hagree.csrs.sstatus)
    (s := h.csrs.status.leaveSupervisor) (t := k.csrs.status.leaveSupervisor)
    hagree.csrs.tsr hagree.csrs.tw
  unfold sret trapReturn
  rw [hmay, hepc, hspp]
  split
  · exact settledAlike_of_agree _ { hagree.jump _ with level := rfl, csrs := hcsrs }
  · exact settledAlike_of_agree _ hagree

theorem settledAlike_wfi (hagree : h.AgreeBelowMachine k) : SettledAlike h.wfi k.wfi := by
  have hmip : h.csrs.interrupts.mip = k.csrs.interrupts.mip := hagree.csrs.mip
  unfold wfi
  rw [hagree.csrs.tw, hagree.level, hmip]
  split
  · exact settledAlike_of_agree _ hagree
  · split
    · exact settledAlike_of_agree _ hagree
    · exact settledAlike_of_agree _ hagree.advance

theorem settledAlike_accessCsr (hagree : h.AgreeBelowMachine k) (hbelow : h.level ≠ .machine)
    (rd : Register) (n : CsrNumber) (write : Option (Word × Word)) :
    SettledAlike (h.accessCsr rd n write) (k.accessCsr rd n write) := by
  have hread : h.csrs.read n h.level = k.csrs.read n k.level := by
    rw [← hagree.level]
    exact hagree.csrs.read_eq hbelow n
  unfold accessCsr
  rw [hread]
  cases k.csrs.read n k.level with
  | error e => exact settledAlike_of_agree _ hagree
  | ok old =>
      cases write with
      | none => exact settledAlike_of_agree _ (hagree.writeBack rd old)
      | some p =>
          obtain ⟨v, mask⟩ := p
          rw [← hagree.level]
          rcases hagree.csrs.writeMasked hbelow n v mask with
            ⟨e, hh, hk⟩ | ⟨b, c, hh, hk, hwritten⟩
          · simp only [hh, hk]
            exact settledAlike_of_agree _ hagree
          · simp only [hh, hk]
            exact settledAlike_of_agree _ { hagree.writeBack rd old with csrs := hwritten }

theorem settledAlike_executeCsr (hagree : h.AgreeBelowMachine k) (hbelow : h.level ≠ .machine)
    (x : IType) (action : CsrAction) (operand : CsrOperand) :
    SettledAlike (h.executeCsr x action operand) (k.executeCsr x action operand) := by
  have hoperand : h.csrOperand x operand = k.csrOperand x operand := by
    cases operand with
    | register => exact hagree.x_eq x.rs1
    | immediate => rfl
  unfold executeCsr
  rw [hoperand]
  exact settledAlike_accessCsr hagree hbelow _ _ _

end Hart

namespace Machine

open Hart (SettledAlike)

variable {β : Type} [Bus β] {h k : Hart}

/-! ## By format -/

structure DoneAlike (r s : Outcome × Machine β) : Prop where
  outcome : r.1 = s.1
  bus : r.2.bus = s.2.bus
  hart : r.2.hart.AgreeBelowMachine s.2.hart

omit [Bus β] in
theorem doneAlike_settle (bus : β) {r s : Outcome × Hart} (halike : SettledAlike r s) :
    DoneAlike (settle ⟨h, bus⟩ r) (settle ⟨k, bus⟩ s) :=
  ⟨halike.outcome, rfl, halike.hart⟩

theorem doneAlike_executeReg (hagree : h.AgreeBelowMachine k) (bus : β) (x : RType) (op : RegOp) :
    DoneAlike (executeReg ⟨h, bus⟩ x op) (executeReg ⟨k, bus⟩ x op) := by
  simp only [executeReg, hagree.x_eq]
  cases op with
  | arith op => exact ⟨rfl, rfl, hagree.writeBack _ _⟩
  | mulDiv op => exact ⟨rfl, rfl, hagree.writeBack _ _⟩
  | loadReserved => exact ⟨rfl, rfl, (hagree.reserving _).writeBack _ _⟩
  | amo op => exact ⟨rfl, rfl, hagree.writeBack _ _⟩
  | storeConditional =>
      simp only [storeConditional, hagree.reservation]
      split
      · exact ⟨rfl, rfl, (hagree.reserving none).writeBack _ _⟩
      · exact ⟨rfl, rfl, (hagree.reserving none).writeBack _ _⟩

theorem doneAlike_executeImm (hagree : h.AgreeBelowMachine k) (hbelow : h.level ≠ .machine)
    (bus : β) (x : IType) (op : ImmOp) :
    DoneAlike (executeImm ⟨h, bus⟩ x op) (executeImm ⟨k, bus⟩ x op) := by
  simp only [executeImm, hagree.x_eq]
  cases op with
  | arith op => exact ⟨rfl, rfl, hagree.writeBack _ _⟩
  | load op => exact ⟨rfl, rfl, hagree.writeBack _ _⟩
  | jalr => exact ⟨rfl, rfl, hagree.jumpAndLink _ _⟩
  | ebreak => exact ⟨rfl, rfl, hagree.advance⟩
  | sfenceVma => exact ⟨rfl, rfl, hagree.advance⟩
  | ecall => exact doneAlike_settle bus (Hart.settledAlike_ecall hagree)
  | sret => exact doneAlike_settle bus (Hart.settledAlike_sret hagree)
  | mret => exact doneAlike_settle bus (Hart.settledAlike_mret hagree hbelow)
  | wfi => exact doneAlike_settle bus (Hart.settledAlike_wfi hagree)
  | csr action operand =>
      exact doneAlike_settle bus (Hart.settledAlike_executeCsr hagree hbelow x action operand)

theorem doneAlike_executeStore (hagree : h.AgreeBelowMachine k) (bus : β) (x : SType)
    (op : StoreOp) : DoneAlike (executeStore ⟨h, bus⟩ x op) (executeStore ⟨k, bus⟩ x op) := by
  simp only [executeStore, hagree.x_eq]
  exact ⟨rfl, rfl, hagree.advance⟩

omit [Bus β] in
theorem doneAlike_executeBranch (hagree : h.AgreeBelowMachine k) (bus : β) (x : BType)
    (op : BranchOp) : DoneAlike (executeBranch ⟨h, bus⟩ x op) (executeBranch ⟨k, bus⟩ x op) := by
  simp only [executeBranch, hagree.x_eq, hagree.pc_eq]
  split
  · exact ⟨rfl, rfl, hagree.jump _⟩
  · exact ⟨rfl, rfl, hagree.advance⟩

omit [Bus β] in
theorem doneAlike_executeUpper (hagree : h.AgreeBelowMachine k) (bus : β) (x : UType)
    (op : UpperOp) : DoneAlike (executeUpper ⟨h, bus⟩ x op) (executeUpper ⟨k, bus⟩ x op) := by
  simp only [executeUpper, hagree.pc_eq]
  cases op with
  | lui => exact ⟨rfl, rfl, hagree.writeBack _ _⟩
  | auipc => exact ⟨rfl, rfl, hagree.writeBack _ _⟩

omit [Bus β] in
theorem doneAlike_executeJump (hagree : h.AgreeBelowMachine k) (bus : β) (x : JType)
    (op : JumpOp) : DoneAlike (executeJump ⟨h, bus⟩ x op) (executeJump ⟨k, bus⟩ x op) := by
  simp only [executeJump, hagree.pc_eq]
  cases op with
  | jal => exact ⟨rfl, rfl, hagree.jumpAndLink _ _⟩

omit [Bus β] in
theorem doneAlike_executeFence (hagree : h.AgreeBelowMachine k) (bus : β) (op : FenceOp) :
    DoneAlike (executeFence ⟨h, bus⟩ op) (executeFence ⟨k, bus⟩ op) := by
  cases op with
  | fence => exact ⟨rfl, rfl, hagree.advance⟩
  | fenceI => exact ⟨rfl, rfl, hagree.advance⟩

/-! ## Every instruction -/

/-- Both executions were refused for the same reason, or they went alike. -/
inductive Alike : Except DecodeError (Outcome × Machine β) →
    Except DecodeError (Outcome × Machine β) → Prop where
  | refused (e : DecodeError) : Alike (.error e) (.error e)
  | done {r s : Outcome × Machine β} (h : DoneAlike r s) : Alike (.ok r) (.ok s)

/-- The two executions of an instruction go alike if those of the operation it names do. -/
theorem alike_of_operation {m n : Machine β} {i : Instruction} {α : Type} {op? : Option α}
    {f g : α → Outcome × Machine β} (hf : m.execute? i = op?.map f)
    (hg : n.execute? i = op?.map g) (halike : ∀ op, DoneAlike (f op) (g op)) :
    Alike (m.execute i) (n.execute i) := by
  unfold execute
  rw [hf, hg]
  cases op? with
  | none => exact .refused _
  | some op => exact .done (halike op)

theorem alike_execute (hagree : h.AgreeBelowMachine k) (hbelow : h.level ≠ .machine) (bus : β)
    (i : Instruction) : Alike (execute ⟨h, bus⟩ i) (execute ⟨k, bus⟩ i) := by
  cases i with
  | r x => exact alike_of_operation rfl rfl (doneAlike_executeReg hagree bus x)
  | i x => exact alike_of_operation rfl rfl (doneAlike_executeImm hagree hbelow bus x)
  | s x => exact alike_of_operation rfl rfl (doneAlike_executeStore hagree bus x)
  | b x => exact alike_of_operation rfl rfl (doneAlike_executeBranch hagree bus x)
  | u x => exact alike_of_operation rfl rfl (doneAlike_executeUpper hagree bus x)
  | j x => exact alike_of_operation rfl rfl (doneAlike_executeJump hagree bus x)
  | fence x => exact alike_of_operation rfl rfl (doneAlike_executeFence hagree bus)

theorem executeAccesses_eq_of_alike {m n : Machine β} {i : Instruction}
    (halike : Alike (m.journaled.execute i) (n.journaled.execute i)) :
    m.executeAccesses i = n.executeAccesses i := by
  unfold executeAccesses
  generalize m.journaled.execute i = r at *
  generalize n.journaled.execute i = s at *
  cases halike with
  | refused e => rfl
  | done hdone => exact congrArg Journaled.accesses hdone.bus

/--
Below machine mode, harts that agree on what is theirs execute every instruction
alike: with the same accesses to the bus, the same result and the same bus
afterwards, and so that they still agree.
-/
theorem execute_agrees_below_machine (hagree : h.AgreeBelowMachine k)
    (hbelow : h.level ≠ .machine) (bus : β) (i : Instruction) :
    executeAccesses ⟨h, bus⟩ i = executeAccesses ⟨k, bus⟩ i ∧
      Alike (execute ⟨h, bus⟩ i) (execute ⟨k, bus⟩ i) := by
  refine ⟨executeAccesses_eq_of_alike ?_, alike_execute hagree hbelow bus i⟩
  exact alike_execute hagree hbelow (Journaled.start bus) i

def guardedHart (secret : Word) : Hart :=
  let h := Hart.initial defaultResetVector .trap 0
  { h with
    level := .supervisor
    csrs :=
      { (h.csrs.setPlain .mscratch secret).setPlain .mepc secret with
        status := { h.csrs.status with mie := secret.msb, tvm := secret.msb, mprv := secret.msb }
        delegation := { h.csrs.delegation with exceptions := secret, interrupts := 0x222 }
        interrupts := { h.csrs.interrupts with mie := 0x020 ||| (secret &&& 0x888) }
        mtvec := .ofBase secret .direct } }

def disableInterrupts : Instruction :=
  .i { opcode := Opcode.system, rd := 5, funct3 := 1, rs1 := 0, imm := 0x104 }

theorem agreeBelowMachine_guardedHart :
    (guardedHart 0).AgreeBelowMachine (guardedHart 0xFFFFFFFF) := by
  have hplain (r : PlainCsr) (hr : r.isMachineOwned = false) :
      (guardedHart 0).csrs.value (.plain r) = (guardedHart 0xFFFFFFFF).csrs.value (.plain r) := by
    cases r with
    | scounteren => rfl
    | senvcfg => rfl
    | sscratch => rfl
    | sepc => rfl
    | scause => rfl
    | stval => rfl
    | satp => rfl
    | _ => cases hr
  refine ⟨rfl, rfl, rfl, rfl, rfl, ?_⟩
  exact ⟨by decide, by decide, rfl, rfl, hplain, rfl, rfl, rfl, rfl, rfl, rfl, rfl⟩

theorem execute_agrees_below_machine_guarded :
    (guardedHart 0).AgreeBelowMachine (guardedHart 0xFFFFFFFF) ∧
      (guardedHart 0).level ≠ .machine ∧
      (guardedHart 0).csrs.value .mie ≠ (guardedHart 0xFFFFFFFF).csrs.value .mie ∧
      executeAccesses ⟨guardedHart 0, Ram.empty⟩ disableInterrupts =
        executeAccesses ⟨guardedHart 0xFFFFFFFF, Ram.empty⟩ disableInterrupts ∧
      Alike (execute ⟨guardedHart 0, Ram.empty⟩ disableInterrupts)
        (execute ⟨guardedHart 0xFFFFFFFF, Ram.empty⟩ disableInterrupts) := by
  have hagree := agreeBelowMachine_guardedHart
  have hbelow : (guardedHart 0).level ≠ .machine := by decide
  exact ⟨hagree, hbelow, by decide,
    execute_agrees_below_machine hagree hbelow Ram.empty disableInterrupts⟩

end Machine

end Rv32
