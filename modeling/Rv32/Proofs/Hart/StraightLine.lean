import Rv32.Proofs.Hart.Footprint
import Rv32.Proofs.Instruction.Encodings

/-! # Straight-line code

Instructions executed one after the other, without the fetches between them. A
piece of code has a register in which it leaves its result and others that it
uses on the way, and what it keeps is the rest of the hart.
-/

namespace Rv32

/-! ## Instructions -/

def ArithOp.instruction (op : ArithOp) (rd rs1 rs2 : Register) : RType :=
  { opcode := Opcode.op
    rd := rd
    funct3 := ((RegOp.arith op).encoding.funct3.getD 0).setWidth 8
    rs1 := rs1
    rs2 := rs2
    funct7 := if op = .sub ∨ op = .sra then 0x20 else 0 }

theorem ArithOp.operation?_instruction (op : ArithOp) (rd rs1 rs2 : Register) :
    (op.instruction rd rs1 rs2).operation? = some (.arith op) := by
  cases op <;> rfl

/-- The instruction that copies `rs` to `rd`, which is an addition of zero. -/
def IType.move (rd rs : Register) : IType :=
  { opcode := Opcode.opImm, rd := rd, funct3 := 0, rs1 := rs, imm := 0 }

theorem IType.operation?_move (rd rs : Register) :
    (move rd rs).operation? = some (.arith .addi) := rfl

def IType.loadWord (rd base : Register) : IType :=
  { opcode := Opcode.load, rd := rd, funct3 := 2, rs1 := base, imm := 0 }

theorem IType.operation?_loadWord (rd base : Register) :
    (loadWord rd base).operation? = some (.load .lw) := rfl

def SType.storeWord (rs base : Register) : SType :=
  { opcode := Opcode.store, funct3 := 2, rs1 := base, rs2 := rs, imm := 0 }

theorem SType.operation?_storeWord (rs base : Register) :
    (storeWord rs base).operation? = some .sw := rfl

theorem Hart.x_add_zero (h : Hart) (r : Register) : h.x r + 0 = h.x r :=
  BitVec.add_zero (h.x r)

theorem Hart.x_writeBack_self (h : Hart) {rd : Register} (hrd : rd ≠ Register.zero) (v : Word) :
    (h.writeBack rd v).x rd = v := by
  rw [x_writeBack, if_pos ⟨rfl, hrd⟩]

/-! ## What code keeps -/

/-- The hart `after` is `h` with the program counter moved and only registers of `used` changed. -/
structure Hart.KeepsBut (h : Hart) (used : List Register) (after : Hart) : Prop where
  registers : ∀ r, r ∉ used → after.x r = h.x r
  rest : after = { h with registers := after.registers }

namespace Hart.KeepsBut

variable {h k after : Hart} {used : List Register}

theorem refl (h : Hart) (used : List Register) : h.KeepsBut used h where
  registers _ _ := rfl
  rest := rfl

theorem trans (hk : h.KeepsBut used k) (hafter : k.KeepsBut used after) :
    h.KeepsBut used after where
  registers r hr := (hafter.registers r hr).trans (hk.registers r hr)
  rest := by
    rw [hafter.rest, hk.rest]

theorem mono {more : List Register} (hk : h.KeepsBut used k) (hsub : used ⊆ more) :
    h.KeepsBut more k where
  registers r hr := hk.registers r fun hmem => hr (hsub hmem)
  rest := hk.rest

theorem writeBack (hk : h.KeepsBut used k) {rd : Register} (hrd : rd ∈ used) (v : Word) :
    h.KeepsBut used (k.writeBack rd v) where
  registers r hr := by
    have hne : r ≠ rd := fun heq => hr (heq ▸ hrd)
    rw [x_writeBack, if_neg fun h => hne h.1, hk.registers r hr]
  rest := by
    rw [hk.rest]
    rfl

theorem jumpAndLink (hk : h.KeepsBut used k) {rd : Register} (hrd : rd ∈ used) (target : Word) :
    h.KeepsBut used (k.jumpAndLink rd target) where
  registers r hr := by
    have hne : r ≠ rd := fun heq => hr (heq ▸ hrd)
    rw [x_jumpAndLink, if_neg fun h => hne h.1, hk.registers r hr]
  rest := by
    rw [hk.rest]
    rfl

/-- A write of the same value to both harts does not tell them apart. -/
theorem writeBack_both (hk : h.KeepsBut used k) (rd : Register) (v : Word) :
    (h.writeBack rd v).KeepsBut used (k.writeBack rd v) where
  registers r hr := by
    rw [x_writeBack, x_writeBack, hk.registers r hr]
  rest := by
    rw [hk.rest]
    rfl

theorem advance (hk : h.KeepsBut used k) : h.KeepsBut used k.advance where
  registers r hr := hk.registers r hr
  rest := by
    rw [hk.rest]
    rfl

end Hart.KeepsBut

/-- The hart `after` is `h` at the next instruction with `v` in `rd`, unless `rd` is zero. -/
structure Hart.Receives (h : Hart) (rd : Register) (v : Word) (after : Hart) : Prop where
  destination : rd ≠ Register.zero → after.x rd = v
  kept : h.KeepsBut [rd] after
  pc : after.pc = h.pc + 4

theorem Hart.receives_writeBack (h : Hart) (rd : Register) (v : Word) :
    h.Receives rd v (h.writeBack rd v) where
  destination hrd := h.x_writeBack_self hrd v
  kept := (KeepsBut.refl h [rd]).writeBack List.mem_cons_self v
  pc := h.pc_writeBack rd v

namespace Machine

variable {β : Type} [Bus β]

/-! ## Execution of code -/

/-- The machine after all of the instructions, if each of them completes. -/
def executeAll? (m : Machine β) : List Instruction → Option (Machine β)
  | [] => some m
  | i :: rest =>
      match m.execute i with
      | .ok (.completed, after) => after.executeAll? rest
      | _ => none

theorem executeAll?_cons {m after : Machine β} {i : Instruction}
    (h : m.execute i = .ok (.completed, after)) (rest : List Instruction) :
    m.executeAll? (i :: rest) = after.executeAll? rest := by
  rw [executeAll?, h]

theorem executeAll?_append {m after : Machine β} {code : List Instruction}
    (h : m.executeAll? code = some after) (rest : List Instruction) :
    m.executeAll? (code ++ rest) = after.executeAll? rest := by
  induction code generalizing m with
  | nil =>
      cases h
      rfl
  | cons i code ih =>
      rw [executeAll?] at h
      split at h
      · rename_i next hexec
        rw [List.cons_append, executeAll?_cons hexec, ih h]
      · cases h

theorem executeAll?_arith (m : Machine β) (op : ArithOp) (rd rs1 rs2 : Register)
    (rest : List Instruction) :
    m.executeAll? (.r (op.instruction rd rs1 rs2) :: rest) =
      executeAll? { m with hart := m.hart.writeBack rd (op.eval (m.hart.x rs1) (m.hart.x rs2)) }
        rest :=
  executeAll?_cons (m.execute_reg (op.operation?_instruction rd rs1 rs2)) rest

theorem executeAll?_move (m : Machine β) (rd rs : Register) (rest : List Instruction) :
    m.executeAll? (.i (.move rd rs) :: rest) =
      executeAll? { m with hart := m.hart.writeBack rd (m.hart.x rs) } rest := by
  have hexec : m.execute (.i (.move rd rs)) =
      .ok (.completed, { m with hart := m.hart.writeBack rd (m.hart.x rs + 0) }) :=
    m.execute_imm (IType.operation?_move rd rs)
  rw [Hart.x_add_zero] at hexec
  exact executeAll?_cons hexec rest

theorem executeAll?_loadWord (m : Machine β) (rd base : Register) (rest : List Instruction) :
    m.executeAll? (.i (.loadWord rd base) :: rest) =
      executeAll?
        { hart := m.hart.writeBack rd (ofLeBytes 32 (Bus.read m.bus (m.hart.x base) 4).1)
          bus := (Bus.read m.bus (m.hart.x base) 4).2 } rest := by
  have hexec : m.execute (.i (.loadWord rd base)) = .ok (m.load .lw rd (m.hart.x base + 0)) :=
    m.execute_imm (IType.operation?_loadWord rd base)
  rw [Hart.x_add_zero] at hexec
  exact executeAll?_cons hexec rest

theorem executeAll?_storeWord (m : Machine β) (rs base : Register) (rest : List Instruction) :
    m.executeAll? (.s (.storeWord rs base) :: rest) =
      executeAll?
        { hart := m.hart.advance
          bus := Bus.write m.bus (m.hart.x base) (leBytes 4 (m.hart.x rs)) } rest := by
  have hexec : m.execute (.s (.storeWord rs base)) =
      .ok (m.store .sw (m.hart.x base + 0) (m.hart.x rs)) :=
    m.execute_store (SType.operation?_storeWord rs base)
  rw [Hart.x_add_zero] at hexec
  exact executeAll?_cons hexec rest

end Machine

end Rv32
