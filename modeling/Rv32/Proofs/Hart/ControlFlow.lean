import Rv32.Proofs.Hart.StraightLine
import Rv32.Proofs.Word

/-! # Branches and jumps

Whether a branch is taken depends on a comparison of integers, and of two
opposite branches on the same registers exactly one is. A jump reads the address
that it leads to before it writes the address of the next instruction, so a
return from where a call has led to comes back behind the call, wherever in the
address space that is.
-/

namespace Rv32

/-! ## Conditions of branches -/

namespace BranchOp

/-- The branch that compares in the same way and is taken when this one is not. -/
def opposite : BranchOp → BranchOp
  | beq => bne
  | bne => beq
  | blt => bge
  | bge => blt
  | bltu => bgeu
  | bgeu => bltu

def Condition (op : BranchOp) (a b : Word) : Prop :=
  match op with
  | beq => a.toNat = b.toNat
  | bne => a.toNat ≠ b.toNat
  | blt => a.toInt < b.toInt
  | bge => b.toInt ≤ a.toInt
  | bltu => a.toNat < b.toNat
  | bgeu => b.toNat ≤ a.toNat

theorem holds_iff (op : BranchOp) (a b : Word) : op.holds a b = true ↔ op.Condition a b := by
  cases op with
  | beq => simp [holds, Condition, BitVec.toNat_inj]
  | bne => simp [holds, Condition, BitVec.toNat_inj]
  | blt => exact BitVec.slt_iff_toInt_lt
  | bge => simp [holds, Condition, BitVec.slt_eq_decide]
  | bltu => exact BitVec.ult_iff_toNat_lt
  | bgeu => simp [holds, Condition, BitVec.ult_eq_decide]

theorem condition_opposite (op : BranchOp) (a b : Word) :
    op.opposite.Condition a b ↔ ¬ op.Condition a b := by
  cases op with
  | beq => exact Iff.rfl
  | bne => exact not_not.symm
  | blt => exact Int.not_lt.symm
  | bge => exact Int.not_le.symm
  | bltu => exact Nat.not_lt.symm
  | bgeu => exact Nat.not_le.symm

def instruction (op : BranchOp) (rs1 rs2 : Register) (imm : Word) : BType :=
  { opcode := Opcode.branch
    funct3 := ((Operation.branch op).encoding.funct3.getD 0).setWidth 8
    rs1 := rs1
    rs2 := rs2
    imm := imm }

theorem operation?_instruction (op : BranchOp) (rs1 rs2 : Register) (imm : Word) :
    (op.instruction rs1 rs2 imm).operation? = some op := by
  cases op <;> rfl

end BranchOp

namespace Machine

variable {β : Type}

/--
The machine `after` is `m` gone to `target`, with the address of the next
instruction of `m` in `rd`. Nothing else has changed.
-/
structure Links (m : Machine β) (rd : Register) (target : Word) (after : Machine β) : Prop where
  pc : after.hart.pc = target
  link : rd ≠ Register.zero → after.hart.x rd = m.hart.pc.displaced 4
  hart : m.hart.KeepsBut [rd] after.hart
  bus : after.bus = m.bus

theorem links_jumpAndLink (m : Machine β) (rd : Register) (target : Word) :
    m.Links rd target { m with hart := m.hart.jumpAndLink rd target } where
  pc := m.hart.pc_jumpAndLink rd target
  link hrd := by simp [Hart.x_jumpAndLink, hrd, Word.displaced_eq]
  hart := (Hart.KeepsBut.refl m.hart [rd]).jumpAndLink List.mem_cons_self target
  bus := rfl

variable [Bus β]

/-! ## Branches -/

/-- Every branch `op` on the given registers leads to its target, whatever its offset is. -/
def Takes (m : Machine β) (op : BranchOp) (rs1 rs2 : Register) : Prop :=
  ∀ x : BType, x.operation? = some op → x.rs1 = rs1 → x.rs2 = rs2 →
    m.execute (.b x) =
      .ok (.completed, { m with hart := m.hart.jump (m.hart.pc.displaced x.imm) })

def Passes (m : Machine β) (op : BranchOp) (rs1 rs2 : Register) : Prop :=
  ∀ x : BType, x.operation? = some op → x.rs1 = rs1 → x.rs2 = rs2 →
    m.execute (.b x) = .ok (.completed, { m with hart := m.hart.jump (m.hart.pc.displaced 4) })

theorem execute_branch_eq (m : Machine β) {x : BType} {op : BranchOp}
    (hop : x.operation? = some op) :
    m.execute (.b x) =
      .ok (.completed,
        { m with
          hart := m.hart.jump
            (if op.holds (m.hart.x x.rs1) (m.hart.x x.rs2) then m.hart.pc.displaced x.imm
              else m.hart.pc.displaced 4) }) := by
  rw [m.execute_branch hop, executeBranch, Word.displaced_eq, Word.displaced_eq]
  split
  · rfl
  · rfl

theorem takes_of_holds {m : Machine β} {op : BranchOp} {rs1 rs2 : Register}
    (h : op.holds (m.hart.x rs1) (m.hart.x rs2) = true) : m.Takes op rs1 rs2 := by
  rintro x hop rfl rfl
  rw [m.execute_branch_eq hop, if_pos h]

theorem passes_of_not_holds {m : Machine β} {op : BranchOp} {rs1 rs2 : Register}
    (h : ¬ op.holds (m.hart.x rs1) (m.hart.x rs2) = true) : m.Passes op rs1 rs2 := by
  rintro x hop rfl rfl
  rw [m.execute_branch_eq hop, if_neg h]

/-- A branch to itself leads elsewhere than to the next instruction. -/
theorem not_takes_and_passes (m : Machine β) (op : BranchOp) (rs1 rs2 : Register) :
    ¬ (m.Takes op rs1 rs2 ∧ m.Passes op rs1 rs2) := by
  rintro ⟨htakes, hpasses⟩
  have hop := op.operation?_instruction rs1 rs2 0
  have hsame := (htakes _ hop rfl rfl).symm.trans (hpasses _ hop rfl rfl)
  injection hsame with hresult
  have hpc : m.hart.pc.displaced 0 = m.hart.pc.displaced 4 :=
    congrArg (fun r => r.2.hart.pc) hresult
  rw [Word.displaced_zero, Word.displaced_eq] at hpc
  exact m.hart.pc.ne_add_four hpc

theorem takes_iff (m : Machine β) (op : BranchOp) (rs1 rs2 : Register) :
    m.Takes op rs1 rs2 ↔ op.Condition (m.hart.x rs1) (m.hart.x rs2) := by
  rw [← op.holds_iff]
  constructor
  · intro htakes
    by_contra h
    exact m.not_takes_and_passes op rs1 rs2 ⟨htakes, passes_of_not_holds h⟩
  · exact takes_of_holds

theorem passes_iff (m : Machine β) (op : BranchOp) (rs1 rs2 : Register) :
    m.Passes op rs1 rs2 ↔ ¬ m.Takes op rs1 rs2 := by
  constructor
  · exact fun hpasses htakes => m.not_takes_and_passes op rs1 rs2 ⟨htakes, hpasses⟩
  · intro h
    rw [takes_iff, ← op.holds_iff] at h
    exact passes_of_not_holds h

/-! ## Jumps -/

theorem links_jal (m : Machine β) {x : JType} (hop : x.operation? = some .jal) :
    ∃ after, m.execute (.j x) = .ok (.completed, after) ∧
      m.Links x.rd (m.hart.pc.displaced x.imm) after := by
  refine ⟨_, m.execute_jump hop, ?_⟩
  rw [Word.displaced_eq]
  exact m.links_jumpAndLink x.rd (m.hart.pc + x.imm)

theorem links_jalr (m : Machine β) {x : IType} (hop : x.operation? = some .jalr) :
    ∃ after, m.execute (.i x) = .ok (.completed, after) ∧
      m.Links x.rd ((m.hart.x x.rs1).displaced x.imm) after := by
  refine ⟨_, m.execute_imm hop, ?_⟩
  rw [Word.displaced_eq]
  exact m.links_jumpAndLink x.rd (m.hart.x x.rs1 + x.imm)

/-! ## Calls and returns -/

def IsAt (m : Machine β) (i : Instruction) : Prop :=
  instructionAt m.hart.pc m.fetch.1 = .ok i

theorem step_of_completed {m after : Machine β} {i : Instruction} (hi : m.IsAt i)
    (h : m.fetch.2.execute i = .ok (.completed, after)) :
    m.step = (.running, { after with hart := after.hart.retire }) :=
  step_of_attempt (attempt?_eq_some.mpr ⟨hi, h⟩)

theorem step_jal {m : Machine β} {x : JType} (hx : m.IsAt (.j x))
    (hop : x.operation? = some .jal) :
    m.step.1 = .running ∧ m.step.2.hart.pc = m.hart.pc.displaced x.imm ∧
      (x.rd ≠ Register.zero → m.step.2.hart.x x.rd = m.hart.pc.displaced 4) := by
  obtain ⟨after, hexec, hlinks⟩ := m.fetch.2.links_jal hop
  rw [step_of_completed hx hexec]
  exact ⟨rfl, hlinks.pc, hlinks.link⟩

theorem step_jalr {m : Machine β} {x : IType} (hx : m.IsAt (.i x))
    (hop : x.operation? = some .jalr) :
    m.step.1 = .running ∧ m.step.2.hart.pc = (m.hart.x x.rs1).displaced x.imm := by
  obtain ⟨after, hexec, hlinks⟩ := m.fetch.2.links_jalr hop
  rw [step_of_completed hx hexec]
  exact ⟨rfl, hlinks.pc⟩

/--
Of a branch and its opposite on the same registers exactly one is taken, and the
comparison of the integers in the registers tells which: it leads to its offset
from the program counter, the other one to the next instruction. A jump leads to
its offset from the program counter, or from what its base register held before,
and leaves the address of the next instruction in its destination. So a jump
with a link and a jump through that link, which is found where the first has led
to, come back to the instruction behind the first.
-/
theorem control_flow (m : Machine β) :
    (∀ op rs1 rs2,
      (m.Takes op rs1 rs2 ↔ op.Condition (m.hart.x rs1) (m.hart.x rs2)) ∧
      (m.Passes op rs1 rs2 ↔ ¬ m.Takes op rs1 rs2) ∧
      (m.Takes op.opposite rs1 rs2 ↔ ¬ m.Takes op rs1 rs2)) ∧
    (∀ x : JType, x.operation? = some .jal →
      ∃ after, m.execute (.j x) = .ok (.completed, after) ∧
        m.Links x.rd (m.hart.pc.displaced x.imm) after) ∧
    (∀ x : IType, x.operation? = some .jalr →
      ∃ after, m.execute (.i x) = .ok (.completed, after) ∧
        m.Links x.rd ((m.hart.x x.rs1).displaced x.imm) after) ∧
    (∀ (x : JType) (y : IType), m.IsAt (.j x) → x.operation? = some .jal → x.rd ≠ Register.zero →
      m.step.2.IsAt (.i y) → y.operation? = some .jalr → y.rs1 = x.rd → y.imm = 0 →
      m.step.1 = .running ∧ m.step.2.hart.pc = m.hart.pc.displaced x.imm ∧
        m.step.2.step.1 = .running ∧ m.step.2.step.2.hart.pc = m.hart.pc.displaced 4) := by
  refine ⟨?branches, fun x => m.links_jal, fun x => m.links_jalr, ?calls⟩
  case branches =>
    intro op rs1 rs2
    refine ⟨m.takes_iff op rs1 rs2, m.passes_iff op rs1 rs2, ?_⟩
    rw [takes_iff, takes_iff, op.condition_opposite]
  case calls =>
    intro x y hx hjal hrd hy hjalr hbase himm
    obtain ⟨hcalled, htarget, hlink⟩ := step_jal hx hjal
    obtain ⟨hreturned, hback⟩ := step_jalr hy hjalr
    rw [hbase, himm, hlink hrd, Word.displaced_zero] at hback
    exact ⟨hcalled, htarget, hreturned, hback⟩

/-- The program `jal x1, 8`, a word that is not executed, and `jalr x0, 0(x1)`. -/
def callProgram : List Byte :=
  leBytes 4 (0x008000EF : Word) ++ zeroBytes 4 ++ leBytes 4 (0x00008067 : Word)

/-- A machine at a call in the last word of the address space. -/
def lastCall : Machine Ram :=
  start (Ram.empty.write 0xFFFFFFFC callProgram) 0xFFFFFFFC .trap 0

def lastCalled : Machine Ram :=
  { lastCall with hart := (lastCall.hart.jumpAndLink 1 4).retire }

theorem isAt_lastCall : lastCall.IsAt (.j ⟨Opcode.jal, 1, 8⟩) := by
  have hfetch : lastCall.fetch.1 = 0x008000EF :=
    congrArg Prod.fst (fetch_program (k := 0) rfl (by decide) (by decide) .empty)
  rw [IsAt, hfetch]
  rfl

theorem isAt_lastCalled : lastCalled.IsAt (.i ⟨Opcode.jalr, 0, 0, 1, 0⟩) := by
  have hfetch : lastCalled.fetch.1 = 0x00008067 :=
    congrArg Prod.fst (fetch_program (k := 8) (by decide) (by decide) (by decide) .empty)
  rw [IsAt, hfetch]
  rfl

theorem step_lastCall : lastCall.step.2 = lastCalled := by
  have hjal : JType.operation? ⟨Opcode.jal, 1, 8⟩ = some .jal := rfl
  rw [step_of_completed isAt_lastCall (lastCall.fetch.2.execute_jump hjal)]
  rfl

theorem control_flow_wrapping :
    lastCall.Takes .bge 0 0 ∧ lastCall.Passes .blt 0 0 ∧ lastCalled.hart.pc = 4 ∧
      lastCall.step.2.step.2.hart.pc = 0 := by
  obtain ⟨hbranches, -, -, hcalls⟩ := control_flow lastCall
  obtain ⟨-, hpasses, hopposite⟩ := hbranches .bge 0 0
  have htakes : lastCall.Takes .bge 0 0 := (hbranches .bge 0 0).1.mpr (Int.le_refl _)
  have hblt : ¬ lastCall.Takes .blt 0 0 := fun h => hopposite.mp h htakes
  have hreturn : lastCall.step.2.IsAt (.i ⟨Opcode.jalr, 0, 0, 1, 0⟩) := by
    rw [step_lastCall]
    exact isAt_lastCalled
  obtain ⟨-, -, -, hback⟩ := hcalls _ _ isAt_lastCall rfl (by decide) hreturn rfl rfl rfl
  exact ⟨htakes, (hbranches .blt 0 0).2.1.mpr hblt, rfl, hback⟩

end Machine

end Rv32
