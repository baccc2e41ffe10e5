import Rv32.Proofs.Hart.Accesses
import Rv32.Proofs.Hart.Run

/-! # What an instruction may touch

Every part of a hart has few operations that change it, and the operation of an
instruction tells which parts stay. `Hart.Footprint` says this for all parts at
once. `Hart.transfers` does the same for the bus: it lists the accesses of an
instruction, and how wide they are, from the hart alone.
-/

namespace Rv32

/-! ## The parts that an operation changes -/

namespace Operation

def hasResult : Operation → Bool
  | reg _ => true
  | imm (.arith _) => true
  | imm (.load _) => true
  | imm .jalr => true
  | imm (.csr _ _) => true
  | imm _ => false
  | upper _ => true
  | jump _ => true
  | store _ => false
  | branch _ => false
  | fence _ => false

def isReturn : Operation → Bool
  | imm .mret => true
  | imm .sret => true
  | _ => false

def writesCsrs : Operation → Bool
  | imm (.csr _ _) => true
  | op => op.isReturn

/-- Whether the operation makes a reservation or gives one up. -/
def reserves : Operation → Bool
  | reg .loadReserved => true
  | reg .storeConditional => true
  | _ => false

theorem writesCsrs_of_isReturn (op : Operation) (h : op.isReturn = true) :
    op.writesCsrs = true := by
  unfold writesCsrs
  split
  · rfl
  · exact h

end Operation

namespace Instruction

/-- The field for the destination register, in the formats that have one. Fences do not use it. -/
def rd? : Instruction → Option Register
  | r x => some x.rd
  | i x => some x.rd
  | u x => some x.rd
  | j x => some x.rd
  | fence x => some x.rd
  | s _ => none
  | b _ => none

def written? (i : Instruction) (op : Operation) : Option Register :=
  if op.hasResult then i.rd? else none

end Instruction

namespace Hart

def diverts (h : Hart) : Instruction → Operation → Bool
  | .b x, .branch op => op.holds (h.x x.rs1) (h.x x.rs2)
  | _, .imm .jalr => true
  | _, .imm .wfi => h.csrs.interrupts.mip = 0
  | _, .jump _ => true
  | _, op => op.isReturn

theorem diverts_of_isReturn (h : Hart) (i : Instruction) {op : Operation}
    (hop : op.isReturn = true) : h.diverts i op = true := by
  unfold diverts
  split
  · cases hop
  · rfl
  · cases hop
  · rfl
  · exact hop

/-- An instruction that is no wait diverts if, and only if, it has a landing of its own. -/
theorem diverts_iff_landing? (h : Hart) {i : Instruction} {op : Operation}
    (hop : i.operation? = some op) (hwait : op ≠ .imm .wfi) :
    h.diverts i op = true ↔ (h.landing? i).isSome = true := by
  cases i with
  | i x =>
      obtain ⟨op, hx, rfl⟩ := Option.map_eq_some_iff.mp hop
      rw [h.landing?_imm hx]
      cases op with
      | wfi => exact absurd rfl hwait
      | _ => simp [diverts, immLanding?, Operation.isReturn]
  | b x =>
      obtain ⟨op, hx, rfl⟩ := Option.map_eq_some_iff.mp hop
      rw [h.landing?_branch hx]
      simp [diverts, branchLanding?]
  | j x =>
      obtain ⟨op, hx, rfl⟩ := Option.map_eq_some_iff.mp hop
      rw [h.landing?_jump hx]
      simp [diverts]
  | _ =>
      obtain ⟨op, -, rfl⟩ := Option.map_eq_some_iff.mp hop
      simp [diverts, landing?, Operation.isReturn]

/--
What the instruction `i` with operation `op` may have changed in the hart `h`,
when it has completed with the hart `after`.
-/
structure Footprint (h : Hart) (i : Instruction) (op : Operation) (after : Hart) : Prop where
  zero : after.x Register.zero = 0
  registers : ∀ r, i.written? op ≠ some r → after.x r = h.x r
  csrs : op.writesCsrs = false → after.csrs = h.csrs
  level : op.isReturn = false → after.level = h.level
  reservation : op.reserves = false → after.reservation = h.reservation
  pc : h.diverts i op = false → after.pc = h.pc + 4
  resetVector : after.resetVector = h.resetVector
  ecallMode : after.ecallMode = h.ecallMode

/-! ## The harts that an instruction can leave -/

@[simp] theorem x_zero (h : Hart) : h.x Register.zero = 0 :=
  h.registers.get_zero

theorem x_writeBack (h : Hart) (rd r : Register) (v : Word) :
    (h.writeBack rd v).x r = if r = rd ∧ rd ≠ Register.zero then v else h.x r :=
  h.registers.get_set rd r v

theorem x_jumpAndLink (h : Hart) (rd r : Register) (target : Word) :
    (h.jumpAndLink rd target).x r = if r = rd ∧ rd ≠ Register.zero then h.pc + 4 else h.x r :=
  (h.registers.jump target).get_set rd r h.registers.nextPc

namespace Footprint

variable {h after : Hart} {i : Instruction} {op : Operation}

theorem of_advance : Footprint h i op h.advance where
  zero := x_zero _
  registers _ _ := rfl
  csrs _ := rfl
  level _ := rfl
  reservation _ := rfl
  pc _ := rfl
  resetVector := rfl
  ecallMode := rfl

theorem of_writeBack {rd : Register} (hrd : i.written? op = some rd) (v : Word) :
    Footprint h i op (h.writeBack rd v) where
  zero := x_zero _
  registers r hr := by
    have hne : r ≠ rd := fun heq => hr (heq ▸ hrd)
    simp [x_writeBack, hne]
  csrs _ := rfl
  level _ := rfl
  reservation _ := rfl
  pc _ := h.pc_writeBack rd v
  resetVector := rfl
  ecallMode := rfl

theorem of_jump (hdiverts : h.diverts i op = true) (target : Word) :
    Footprint h i op (h.jump target) where
  zero := x_zero _
  registers _ _ := rfl
  csrs _ := rfl
  level _ := rfl
  reservation _ := rfl
  pc hnext := by simp [hdiverts] at hnext
  resetVector := rfl
  ecallMode := rfl

theorem of_jumpAndLink {rd : Register} (hrd : i.written? op = some rd)
    (hdiverts : h.diverts i op = true) (target : Word) :
    Footprint h i op (h.jumpAndLink rd target) where
  zero := x_zero _
  registers r hr := by
    have hne : r ≠ rd := fun heq => hr (heq ▸ hrd)
    simp [x_jumpAndLink, hne]
  csrs _ := rfl
  level _ := rfl
  reservation _ := rfl
  pc hnext := by simp [hdiverts] at hnext
  resetVector := rfl
  ecallMode := rfl

theorem withCsrs (hf : Footprint h i op after) (hop : op.writesCsrs = true) (csrs : CsrBank) :
    Footprint h i op { after with csrs := csrs } :=
  { hf with csrs := fun hnone => by simp [hop] at hnone }

theorem withLevel (hf : Footprint h i op after) (hop : op.isReturn = true) (level : Level) :
    Footprint h i op { after with level := level } :=
  { hf with level := fun hnone => by simp [hop] at hnone }

theorem withReservation (hf : Footprint h i op after) (hop : op.reserves = true)
    (reservation : Option Word) : Footprint h i op { after with reservation := reservation } :=
  { hf with reservation := fun hnone => by simp [hop] at hnone }

theorem of_trapReturn (hop : op.isReturn = true) (source target : Level) (status : Status) :
    Footprint h i op (h.trapReturn source target status) := by
  have hjump : Footprint h i op (h.jump (h.csrs.epc source)) :=
    of_jump (h.diverts_of_isReturn i hop) _
  have hcsrs := hjump.withCsrs (op.writesCsrs_of_isReturn hop) { h.csrs with status := status }
  exact hcsrs.withLevel hop target

/-! ## The operations that may fail -/

theorem of_ecall (hdone : h.ecall.1 = .completed) : Footprint h i op h.ecall.2 := by
  revert hdone
  unfold ecall
  split
  · intro hdone
    cases hdone
  · exact fun _ => .of_advance
  · intro hdone
    cases hdone

theorem of_mret (hdone : h.mret.1 = .completed) : Footprint h i (.imm .mret) h.mret.2 := by
  revert hdone
  unfold mret
  split
  · exact fun _ => .of_trapReturn rfl _ _ _
  · intro hdone
    cases hdone

theorem of_sret (hdone : h.sret.1 = .completed) : Footprint h i (.imm .sret) h.sret.2 := by
  revert hdone
  unfold sret
  split
  · exact fun _ => .of_trapReturn rfl _ _ _
  · intro hdone
    cases hdone

theorem of_wfi {x : IType} (hdone : h.wfi.1 = .completed) :
    Footprint h (.i x) (.imm .wfi) h.wfi.2 := by
  revert hdone
  unfold wfi
  split
  · intro hdone
    cases hdone
  · split
    · rename_i hmip
      have hdiverts : h.diverts (.i x) (.imm .wfi) = true := decide_eq_true hmip
      -- The hart stays where it is, as if the wait jumped to itself.
      exact fun _ => .of_jump hdiverts h.pc
    · exact fun _ => .of_advance

theorem of_executeCsr {x : IType} {action : CsrAction} {operand : CsrOperand}
    (hdone : (h.executeCsr x action operand).1 = .completed) :
    Footprint h (.i x) (.imm (.csr action operand)) (h.executeCsr x action operand).2 := by
  have hwrote (old : Word) :
      Footprint h (.i x) (.imm (.csr action operand)) (h.writeBack x.rd old) :=
    .of_writeBack rfl old
  revert hdone
  unfold executeCsr accessCsr
  split
  · intro hdone
    cases hdone
  · rename_i old _
    split
    · exact fun _ => hwrote old
    · split
      · intro hdone
        cases hdone
      · rename_i csrs _
        exact fun _ => (hwrote old).withCsrs rfl csrs

end Footprint

end Hart

/-! ## The accesses to the bus -/

/-- What an access to the bus is, up to the bytes: its direction, address and width. -/
inductive Transfer where
  | read (address : Word) (size : Nat)
  | write (address : Word) (size : Nat)
  deriving DecidableEq, Repr

def Access.transfer : Access → Transfer
  | read address size => .read address size
  | write address bytes => .write address bytes.length

def Hart.transfers (h : Hart) : Instruction → Operation → List Transfer
  | .i x, .imm (.load op) => [.read (h.x x.rs1 + x.imm) op.width]
  | .s x, .store op => [.write (h.x x.rs1 + x.imm) op.width]
  | .r x, .reg .loadReserved => [.read (h.x x.rs1) 4]
  | .r x, .reg .storeConditional =>
      if h.reservation = some (h.x x.rs1) then [.write (h.x x.rs1) 4] else []
  | .r x, .reg (.amo _) => [.read (h.x x.rs1) 4, .write (h.x x.rs1) 4]
  | _, _ => []

namespace Journaled

variable {β : Type} [Bus β]

/-- The journal records exactly `transfers`, and accounts for all that has become of the bus `b`. -/
def Accounts (j : Journaled β) (b : β) (transfers : List Transfer) : Prop :=
  j.accesses.map Access.transfer = transfers ∧ j.bus = j.accesses.foldl Access.apply b

theorem accounts_start (b : β) : (start b).Accounts b [] := ⟨rfl, rfl⟩

theorem Accounts.read {j : Journaled β} {b : β} {transfers : List Transfer}
    (h : j.Accounts b transfers) (address : Word) (size : Nat) :
    (Bus.read j address size).2.Accounts b (transfers ++ [.read address size]) := by
  obtain ⟨hlist, hbus⟩ := h
  constructor
  · simp [Bus.read, hlist, Access.transfer]
  · simp [Bus.read, ← hbus, Access.apply]

theorem Accounts.write {j : Journaled β} {b : β} {transfers : List Transfer}
    (h : j.Accounts b transfers) (address : Word) {bytes : List Byte} {size : Nat}
    (hsize : bytes.length = size) :
    (Bus.write j address bytes).Accounts b (transfers ++ [.write address size]) := by
  obtain ⟨hlist, hbus⟩ := h
  constructor
  · simp [Bus.write, hlist, Access.transfer, hsize]
  · simp [Bus.write, ← hbus, Access.apply]

end Journaled

namespace Machine

open Hart (Footprint)
open Journaled (accounts_start)

variable {β : Type}

/-! ## The hart, by format -/

theorem footprint_executeReg [Bus β] (m : Machine β) (x : RType) (op : RegOp) :
    Footprint m.hart (.r x) (.reg op) (m.executeReg x op).2.hart := by
  have hwrote (v : Word) : Footprint m.hart (.r x) (.reg op) (m.hart.writeBack x.rd v) :=
    .of_writeBack rfl v
  cases op with
  | arith op => exact hwrote _
  | mulDiv op => exact hwrote _
  | amo op => exact hwrote _
  | loadReserved => exact (hwrote _).withReservation rfl _
  | storeConditional =>
      simp only [executeReg, storeConditional]
      split
      · exact (hwrote 0).withReservation rfl none
      · exact (hwrote 1).withReservation rfl none

theorem footprint_executeImm [Bus β] {m : Machine β} {x : IType} {op : ImmOp}
    (hdone : (m.executeImm x op).1 = .completed) :
    Footprint m.hart (.i x) (.imm op) (m.executeImm x op).2.hart := by
  cases op with
  | arith op => exact .of_writeBack rfl _
  | load op => exact .of_writeBack rfl _
  | jalr => exact .of_jumpAndLink rfl rfl _
  | ebreak => exact .of_advance
  | sfenceVma => exact .of_advance
  | ecall => exact .of_ecall hdone
  | sret => exact .of_sret hdone
  | mret => exact .of_mret hdone
  | wfi => exact .of_wfi hdone
  | csr action operand => exact .of_executeCsr hdone

theorem footprint_executeBranch (m : Machine β) (x : BType) (op : BranchOp) :
    Footprint m.hart (.b x) (.branch op) (m.executeBranch x op).2.hart := by
  unfold executeBranch
  split
  · rename_i htaken
    have hdiverts : m.hart.diverts (.b x) (.branch op) = true := htaken
    exact .of_jump hdiverts _
  · exact .of_advance

theorem footprint_executeUpper (m : Machine β) (x : UType) (op : UpperOp) :
    Footprint m.hart (.u x) (.upper op) (m.executeUpper x op).2.hart := by
  cases op with
  | lui => exact .of_writeBack rfl _
  | auipc => exact .of_writeBack rfl _

theorem footprint_executeJump (m : Machine β) (x : JType) (op : JumpOp) :
    Footprint m.hart (.j x) (.jump op) (m.executeJump x op).2.hart := by
  cases op with
  | jal => exact .of_jumpAndLink rfl rfl _

theorem footprint_executeFence (m : Machine β) (x : FenceType) (op : FenceOp) :
    Footprint m.hart (.fence x) (.fence op) (m.executeFence op).2.hart := by
  cases op with
  | fence => exact .of_advance
  | fenceI => exact .of_advance

/-! ## The bus, by format -/

variable [Bus β]

theorem accounts_executeReg (h : Hart) (b : β) (x : RType) (op : RegOp) :
    (executeReg ⟨h, Journaled.start b⟩ x op).2.bus.Accounts b (h.transfers (.r x) (.reg op)) := by
  cases op with
  | arith op => exact accounts_start b
  | mulDiv op => exact accounts_start b
  | loadReserved => exact (accounts_start b).read _ 4
  | amo op => exact ((accounts_start b).read _ 4).write _ (length_leBytes 4 _)
  | storeConditional =>
      simp only [executeReg, storeConditional, Hart.transfers]
      split
      · exact (accounts_start b).write _ (length_leBytes 4 _)
      · exact accounts_start b

theorem accounts_executeImm (h : Hart) (b : β) (x : IType) (op : ImmOp) :
    (executeImm ⟨h, Journaled.start b⟩ x op).2.bus.Accounts b (h.transfers (.i x) (.imm op)) := by
  cases op with
  | load op => exact (accounts_start b).read _ op.width
  | _ => exact accounts_start b

theorem accounts_executeBranch (h : Hart) (b : β) (x : BType) (op : BranchOp) :
    (executeBranch ⟨h, Journaled.start b⟩ x op).2.bus.Accounts b [] := by
  unfold executeBranch
  split
  · exact accounts_start b
  · exact accounts_start b

/-! ## Every instruction -/

/-- `execute_cases`, with the operation that the instruction names. -/
theorem execute_operation_cases {m : Machine β}
    {P : Instruction → Operation → Outcome × Machine β → Prop}
    (reg : ∀ x op, P (.r x) (.reg op) (m.executeReg x op))
    (imm : ∀ x op, P (.i x) (.imm op) (m.executeImm x op))
    (store : ∀ x op, P (.s x) (.store op) (m.executeStore x op))
    (branch : ∀ x op, P (.b x) (.branch op) (m.executeBranch x op))
    (upper : ∀ x op, P (.u x) (.upper op) (m.executeUpper x op))
    (jump : ∀ x op, P (.j x) (.jump op) (m.executeJump x op))
    (fence : ∀ x op, P (.fence x) (.fence op) (m.executeFence op))
    {i : Instruction} {r : Outcome × Machine β} (h : m.execute i = .ok r) :
    ∃ op, i.operation? = some op ∧ P i op r := by
  refine execute_cases (P := fun i r => ∃ op, i.operation? = some op ∧ P i op r)
    ?reg ?imm ?store ?branch ?upper ?jump ?fence h
  case reg => exact fun x op hop => ⟨.reg op, by simp [Instruction.operation?, hop], reg x op⟩
  case imm => exact fun x op hop => ⟨.imm op, by simp [Instruction.operation?, hop], imm x op⟩
  case store =>
    exact fun x op hop => ⟨.store op, by simp [Instruction.operation?, hop], store x op⟩
  case branch =>
    exact fun x op hop => ⟨.branch op, by simp [Instruction.operation?, hop], branch x op⟩
  case upper =>
    exact fun x op hop => ⟨.upper op, by simp [Instruction.operation?, hop], upper x op⟩
  case jump => exact fun x op hop => ⟨.jump op, by simp [Instruction.operation?, hop], jump x op⟩
  case fence =>
    exact fun x op hop => ⟨.fence op, by simp [Instruction.operation?, hop], fence x op⟩

theorem footprint_of_execute {m after : Machine β} {i : Instruction}
    (h : m.execute i = .ok (.completed, after)) :
    ∃ op, i.operation? = some op ∧ Footprint m.hart i op after.hart := by
  have hcases := execute_operation_cases
    (P := fun i op r => r.1 = .completed → Footprint m.hart i op r.2.hart)
    ?reg ?imm ?store ?branch ?upper ?jump ?fence h
  case reg => exact fun x op _ => footprint_executeReg m x op
  case imm => exact fun _ _ hdone => footprint_executeImm hdone
  case store => exact fun _ _ _ => .of_advance
  case branch => exact fun x op _ => footprint_executeBranch m x op
  case upper => exact fun x op _ => footprint_executeUpper m x op
  case jump => exact fun x op _ => footprint_executeJump m x op
  case fence => exact fun x op _ => footprint_executeFence m x op
  obtain ⟨op, hop, hfoot⟩ := hcases
  exact ⟨op, hop, hfoot rfl⟩

/-- Whatever an instruction comes to, the hart before it tells its transfers. -/
theorem transfers_of_execute {m after : Machine β} {i : Instruction} {outcome : Outcome}
    (h : m.execute i = .ok (outcome, after)) :
    ∃ op, i.operation? = some op ∧
      (m.executeAccesses i).map Access.transfer = m.hart.transfers i op ∧
      after.bus = (m.executeAccesses i).foldl Access.apply m.bus := by
  have hjournal := execute_of_journal (j := .start m.bus) h
  refine execute_operation_cases
    (P := fun i op r => r.2.bus.Accounts m.bus (m.hart.transfers i op))
    ?reg ?imm ?store ?branch ?upper ?jump ?fence hjournal
  case reg => exact accounts_executeReg m.hart m.bus
  case imm => exact accounts_executeImm m.hart m.bus
  case store =>
    exact fun _ op => (accounts_start m.bus).write _ (length_leBytes op.width _)
  case branch => exact accounts_executeBranch m.hart m.bus
  case upper =>
    intro x op
    cases op with
    | lui => exact accounts_start m.bus
    | auipc => exact accounts_start m.bus
  case jump =>
    intro x op
    cases op with
    | jal => exact accounts_start m.bus
  case fence =>
    intro x op
    cases op with
    | fence => exact accounts_start m.bus
    | fenceI => exact accounts_start m.bus

/--
An instruction that completes changes no part of the hart that its operation
does not name: of the registers at most the destination, the control registers
and the level only in accesses to them and in trap returns, the reservation only
in reservations, and the program counter moves to the next instruction unless
the instruction diverts it. The bus sees the transfers of the operation, in
order, and what has become of it is what these have made of it.
-/
theorem execute_footprint {m after : Machine β} {i : Instruction}
    (h : m.execute i = .ok (.completed, after)) :
    ∃ op, i.operation? = some op ∧ Footprint m.hart i op after.hart ∧
      (m.executeAccesses i).map Access.transfer = m.hart.transfers i op ∧
      after.bus = (m.executeAccesses i).foldl Access.apply m.bus := by
  obtain ⟨op, hop, hfoot⟩ := footprint_of_execute h
  obtain ⟨named, hnamed, htransfers⟩ := transfers_of_execute h
  obtain rfl : named = op := Option.some.inj (hnamed.symm.trans hop)
  exact ⟨named, hop, hfoot, htransfers⟩

def addAtZero : RType :=
  { opcode := Opcode.amo, rd := 5, funct3 := 2, rs1 := 0, rs2 := 6, funct7 := 0 }

theorem execute_footprint_amo :
    idle.execute (.r addAtZero) = .ok (.completed, idle.executed (.r addAtZero)) ∧
      Footprint idle.hart (.r addAtZero) (.reg (.amo .add))
        (idle.executed (.r addAtZero)).hart ∧
      (idle.executeAccesses (.r addAtZero)).map Access.transfer = [.read 0 4, .write 0 4] := by
  have hexec : idle.execute (.r addAtZero) =
      .ok (.completed, idle.executed (.r addAtZero)) := rfl
  obtain ⟨op, hop, hfoot, htransfers, -⟩ := execute_footprint hexec
  obtain rfl : .reg (.amo .add) = op := Option.some.inj hop
  exact ⟨hexec, hfoot, htransfers⟩

end Machine

end Rv32
