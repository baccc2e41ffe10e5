import Rv32.Hart.Execution

/-! # What an instruction does to a hart

Execution comes in one form for each format and operation, but there are few
ways in which it leaves the hart. `Effect` lists them, each with what has been
checked on the way, and every execution has one of them. Facts about
instructions are proved by cases on the effect, whatever the bus.
-/

namespace Rv32

/-- The instruction that returns from the handler at `level`. -/
def Instruction.trapReturn (level : Level) : Instruction :=
  .i
    { opcode := Opcode.system
      rd := 0
      funct3 := 0
      rs1 := 0
      imm := if level = .supervisor then 0x102 else 0x302 }

/-- What has set the program counter, other than by moving it to the next instruction. -/
inductive Landing where
  | reset
  | handler
  | resumed
  | jump (target : Word)
  deriving DecidableEq, Repr

namespace Hart

/-! ## The program counter -/

@[simp] theorem pc_writeBack (h : Hart) (rd : Register) (v : Word) :
    (h.writeBack rd v).pc = h.pc + 4 := by
  simp [writeBack, Hart.pc]

@[simp] theorem pc_jumpAndLink (h : Hart) (rd : Register) (target : Word) :
    (h.jumpAndLink rd target).pc = target := by
  simp [jumpAndLink, Hart.pc]

def immLanding? (h : Hart) (x : IType) : ImmOp → Option Landing
  | .jalr => some (.jump (h.x x.rs1 + x.imm))
  | .sret => some .resumed
  | .mret => some .resumed
  | _ => none

def branchLanding? (h : Hart) (x : BType) (op : BranchOp) : Option Landing :=
  if op.holds (h.x x.rs1) (h.x x.rs2) then some (.jump (h.pc + x.imm)) else none

def jumpLanding (h : Hart) (x : JType) : JumpOp → Landing
  | .jal => .jump (h.pc + x.imm)

/-- Where an instruction leads that completes, unless to the next instruction. -/
def landing? (h : Hart) : Instruction → Option Landing
  | .i x => x.operation?.bind (h.immLanding? x)
  | .b x => x.operation?.bind (h.branchLanding? x)
  | .j x => x.operation?.map (h.jumpLanding x)
  | _ => none

/-! ## The effects -/

/-- How `i` may leave the hart `h`: with which outcome, and as which hart. -/
inductive Effect (h : Hart) (i : Instruction) : Outcome → Hart → Prop where
  | raised (e : Exception) : Effect h i (.raised e) h
  | exited (v : Verdict) : Effect h i (.exited v) h
  -- A wait while nothing is pending.
  | waited (hnext : h.landing? i = none) (hmip : h.csrs.interrupts.mip = 0) :
      Effect h i .completed h
  | advanced (hnext : h.landing? i = none) : Effect h i .completed h.advance
  | wrote (rd : Register) (v : Word) (hnext : h.landing? i = none) :
      Effect h i .completed (h.writeBack rd v)
  | reserved (x : RType) (hi : i = .r x) (hop : x.operation? = some .loadReserved) (v : Word) :
      Effect h i .completed ({ h with reservation := some (h.x x.rs1) }.writeBack x.rd v)
  | released (x : RType) (hi : i = .r x) (hop : x.operation? = some .storeConditional) (v : Word) :
      Effect h i .completed ({ h with reservation := none }.writeBack x.rd v)
  | jumped (target : Word) (hjump : h.landing? i = some (.jump target)) :
      Effect h i .completed (h.jump target)
  | linked (rd : Register) (target : Word) (hjump : h.landing? i = some (.jump target)) :
      Effect h i .completed (h.jumpAndLink rd target)
  -- A control register access that writes.
  | accessed (rd : Register) (n : CsrNumber) (old value mask : Word) (csrs : CsrBank)
      (hread : h.csrs.read n h.level = .ok old)
      (hwrite : h.csrs.writeMasked n value mask h.level = .ok csrs)
      (hnext : h.landing? i = none) :
      Effect h i .completed { h.writeBack rd old with csrs := csrs }
  | leftMachine (hop : i.operation? = some (.imm .mret)) (hlevel : h.level = .machine) :
      Effect h i .completed
        (h.trapReturn .machine h.csrs.status.mppLevel h.csrs.status.leaveMachine)
  | leftSupervisor (hop : i.operation? = some (.imm .sret)) (hmay : h.mayLeaveSupervisor = true) :
      Effect h i .completed
        (h.trapReturn .supervisor h.csrs.status.sppLevel h.csrs.status.leaveSupervisor)

/-- An exception is raised before its instruction has changed the hart. -/
theorem Effect.eq_of_raised {h after : Hart} {i : Instruction} {e : Exception}
    (he : Effect h i (.raised e) after) : after = h := by
  cases he
  rfl

theorem Effect.eq_of_exited {h after : Hart} {i : Instruction} {v : Verdict}
    (he : Effect h i (.exited v) after) : after = h := by
  cases he
  rfl

theorem landing?_imm (h : Hart) {x : IType} {op : ImmOp} (hop : x.operation? = some op) :
    h.landing? (.i x) = h.immLanding? x op := by
  simp [landing?, hop]

theorem landing?_branch (h : Hart) {x : BType} {op : BranchOp} (hop : x.operation? = some op) :
    h.landing? (.b x) = h.branchLanding? x op := by
  simp [landing?, hop]

theorem landing?_jump (h : Hart) {x : JType} {op : JumpOp} (hop : x.operation? = some op) :
    h.landing? (.j x) = some (h.jumpLanding x op) := by
  simp [landing?, hop]

theorem landing?_of_return (h : Hart) {i : Instruction}
    (hop : i.operation? = some (.imm .mret) ∨ i.operation? = some (.imm .sret)) :
    h.landing? i = some .resumed := by
  cases i with
  | i x =>
      rcases hop with hop | hop
      · have hx : x.operation? = some .mret := by simpa [Instruction.operation?] using hop
        exact h.landing?_imm hx
      · have hx : x.operation? = some .sret := by simpa [Instruction.operation?] using hop
        exact h.landing?_imm hx
  | _ => simp [Instruction.operation?] at hop

theorem effect_executeCsr (h : Hart) (x : IType) {action : CsrAction} {operand : CsrOperand}
    (hop : x.operation? = some (.csr action operand)) :
    Effect h (.i x) (h.executeCsr x action operand).1 (h.executeCsr x action operand).2 := by
  have hnext : h.landing? (.i x) = none := h.landing?_imm hop
  unfold executeCsr accessCsr
  split
  · exact .raised _
  · rename_i old hread
    split
    · exact .wrote _ _ hnext
    · split
      · exact .raised _
      · rename_i csrs hwrite
        exact .accessed _ _ old _ _ csrs hread hwrite hnext

end Hart

namespace Machine

open Hart (Effect)

variable {β : Type}

/-! ## By format -/

theorem effect_executeReg [Bus β] (m : Machine β) (x : RType) {op : RegOp}
    (hop : x.operation? = some op) :
    Effect m.hart (.r x) (m.executeReg x op).1 (m.executeReg x op).2.hart := by
  cases op with
  | arith op => exact .wrote _ _ rfl
  | mulDiv op => exact .wrote _ _ rfl
  | amo op => exact .wrote _ _ rfl
  | loadReserved => exact .reserved x rfl hop _
  | storeConditional =>
      simp only [executeReg, storeConditional]
      split
      · exact .released x rfl hop _
      · exact .released x rfl hop _

theorem effect_executeImm [Bus β] (m : Machine β) (x : IType) {op : ImmOp}
    (hop : x.operation? = some op) :
    Effect m.hart (.i x) (m.executeImm x op).1 (m.executeImm x op).2.hart := by
  have hname : (Instruction.i x).operation? = some (.imm op) := by
    simp [Instruction.operation?, hop]
  have hland := m.hart.landing?_imm hop
  cases op with
  | arith op => exact .wrote _ _ hland
  | load op => exact .wrote _ _ hland
  | jalr => exact .linked _ _ hland
  | ebreak => exact .advanced hland
  | sfenceVma => exact .advanced hland
  | csr action operand => exact m.hart.effect_executeCsr x hop
  | ecall =>
      simp only [executeImm, settle, Hart.ecall]
      split
      · exact .exited _
      · exact .advanced hland
      · exact .raised _
  | sret =>
      simp only [executeImm, settle, Hart.sret]
      split
      · rename_i hmay
        exact .leftSupervisor hname hmay
      · exact .raised _
  | mret =>
      simp only [executeImm, settle, Hart.mret]
      split
      · rename_i hmay
        exact .leftMachine hname (by simpa [Hart.mayLeaveMachine] using hmay)
      · exact .raised _
  | wfi =>
      simp only [executeImm, settle, Hart.wfi]
      split
      · exact .raised _
      · split
        · rename_i hmip
          exact .waited hland hmip
        · exact .advanced hland

theorem effect_executeBranch (m : Machine β) (x : BType) {op : BranchOp}
    (hop : x.operation? = some op) :
    Effect m.hart (.b x) (m.executeBranch x op).1 (m.executeBranch x op).2.hart := by
  have hland := m.hart.landing?_branch hop
  unfold executeBranch
  unfold Hart.branchLanding? at hland
  split
  · rename_i htaken
    rw [if_pos htaken] at hland
    exact .jumped _ hland
  · rename_i htaken
    rw [if_neg htaken] at hland
    exact .advanced hland

theorem effect_executeJump (m : Machine β) (x : JType) {op : JumpOp}
    (hop : x.operation? = some op) :
    Effect m.hart (.j x) (m.executeJump x op).1 (m.executeJump x op).2.hart := by
  cases op with
  | jal => exact .linked _ _ (m.hart.landing?_jump hop)

/-! ## Every instruction -/

/--
The machine after an instruction, whatever it comes to. One that names no
operation is refused and leaves the machine as it was.
-/
def executed [Bus β] (m : Machine β) (i : Instruction) : Machine β :=
  match m.execute i with
  | .ok (_, after) => after
  | .error _ => m

theorem execute_eq_ok [Bus β] {m : Machine β} {i : Instruction} {r : Outcome × Machine β}
    (h : m.execute i = .ok r) : m.execute? i = some r := by
  unfold execute at h
  split at h
  · rename_i hr
    cases h
    exact hr
  · cases h

theorem execute_reg [Bus β] (m : Machine β) {x : RType} {op : RegOp}
    (hop : x.operation? = some op) : m.execute (.r x) = .ok (m.executeReg x op) := by
  simp [execute, execute?, hop]

theorem execute_imm [Bus β] (m : Machine β) {x : IType} {op : ImmOp}
    (hop : x.operation? = some op) : m.execute (.i x) = .ok (m.executeImm x op) := by
  simp [execute, execute?, hop]

theorem execute_store [Bus β] (m : Machine β) {x : SType} {op : StoreOp}
    (hop : x.operation? = some op) : m.execute (.s x) = .ok (m.executeStore x op) := by
  simp [execute, execute?, hop]

theorem execute_branch [Bus β] (m : Machine β) {x : BType} {op : BranchOp}
    (hop : x.operation? = some op) : m.execute (.b x) = .ok (m.executeBranch x op) := by
  simp [execute, execute?, hop]

theorem execute_jump [Bus β] (m : Machine β) {x : JType} {op : JumpOp}
    (hop : x.operation? = some op) : m.execute (.j x) = .ok (m.executeJump x op) := by
  simp [execute, execute?, hop]

/-- An instruction with an operation of the immediate format is executed as that operation. -/
theorem execute_of_imm [Bus β] (m : Machine β) {i : Instruction} {op : ImmOp}
    (hop : i.operation? = some (.imm op)) :
    ∃ x : IType, m.execute i = .ok (m.executeImm x op) := by
  cases i with
  | i x =>
      have hx : x.operation? = some op := by simpa [Instruction.operation?] using hop
      exact ⟨x, m.execute_imm hx⟩
  | _ => simp [Instruction.operation?] at hop

theorem execute_mret [Bus β] (m : Machine β) {i : Instruction}
    (hop : i.operation? = some (.imm .mret)) : m.execute i = .ok (m.settle m.hart.mret) := by
  obtain ⟨x, hx⟩ := m.execute_of_imm hop
  exact hx

theorem execute_sret [Bus β] (m : Machine β) {i : Instruction}
    (hop : i.operation? = some (.imm .sret)) : m.execute i = .ok (m.settle m.hart.sret) := by
  obtain ⟨x, hx⟩ := m.execute_of_imm hop
  exact hx

theorem execute_wfi [Bus β] (m : Machine β) {i : Instruction}
    (hop : i.operation? = some (.imm .wfi)) : m.execute i = .ok (m.settle m.hart.wfi) := by
  obtain ⟨x, hx⟩ := m.execute_of_imm hop
  exact hx

/-- What holds of every operation of every format holds of every instruction that is executed. -/
theorem execute_cases [Bus β] {m : Machine β} {P : Instruction → Outcome × Machine β → Prop}
    (reg : ∀ (x : RType) op, x.operation? = some op → P (.r x) (m.executeReg x op))
    (imm : ∀ (x : IType) op, x.operation? = some op → P (.i x) (m.executeImm x op))
    (store : ∀ (x : SType) op, x.operation? = some op → P (.s x) (m.executeStore x op))
    (branch : ∀ (x : BType) op, x.operation? = some op → P (.b x) (m.executeBranch x op))
    (upper : ∀ (x : UType) op, x.operation? = some op → P (.u x) (m.executeUpper x op))
    (jump : ∀ (x : JType) op, x.operation? = some op → P (.j x) (m.executeJump x op))
    (fence : ∀ (x : FenceType) op, x.operation? = some op → P (.fence x) (m.executeFence op))
    {i : Instruction} {r : Outcome × Machine β} (h : m.execute i = .ok r) : P i r := by
  have hsome := execute_eq_ok h
  cases i with
  | r x =>
      obtain ⟨op, hop, rfl⟩ := Option.map_eq_some_iff.mp hsome
      exact reg x op hop
  | i x =>
      obtain ⟨op, hop, rfl⟩ := Option.map_eq_some_iff.mp hsome
      exact imm x op hop
  | s x =>
      obtain ⟨op, hop, rfl⟩ := Option.map_eq_some_iff.mp hsome
      exact store x op hop
  | b x =>
      obtain ⟨op, hop, rfl⟩ := Option.map_eq_some_iff.mp hsome
      exact branch x op hop
  | u x =>
      obtain ⟨op, hop, rfl⟩ := Option.map_eq_some_iff.mp hsome
      exact upper x op hop
  | j x =>
      obtain ⟨op, hop, rfl⟩ := Option.map_eq_some_iff.mp hsome
      exact jump x op hop
  | fence x =>
      obtain ⟨op, hop, rfl⟩ := Option.map_eq_some_iff.mp hsome
      exact fence x op hop

/-- Whatever an instruction comes to, its effect on the hart is one of those listed. -/
theorem effect_of_execute [Bus β] {m after : Machine β} {i : Instruction} {outcome : Outcome}
    (h : m.execute i = .ok (outcome, after)) : Effect m.hart i outcome after.hart := by
  refine execute_cases (P := fun i r => Effect m.hart i r.1 r.2.hart)
    ?reg ?imm ?store ?branch ?upper ?jump ?fence h
  case reg => exact fun x op hop => effect_executeReg m x hop
  case imm => exact fun x op hop => effect_executeImm m x hop
  case store => exact fun x op hop => .advanced rfl
  case branch => exact fun x op hop => effect_executeBranch m x hop
  case upper =>
    intro x op hop
    cases op with
    | lui => exact .wrote _ _ rfl
    | auipc => exact .wrote _ _ rfl
  case jump => exact fun x op hop => effect_executeJump m x hop
  case fence =>
    intro x op hop
    cases op with
    | fence => exact .advanced rfl
    | fenceI => exact .advanced rfl

theorem executed_cases [Bus β] (m : Machine β) (i : Instruction) :
    m.executed i = m ∨ ∃ outcome, Effect m.hart i outcome (m.executed i).hart := by
  unfold executed
  cases hr : m.execute i with
  | error e => exact .inl rfl
  | ok r => exact .inr ⟨r.1, effect_of_execute hr⟩

end Machine

end Rv32
