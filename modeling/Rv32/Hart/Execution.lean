import Rv32.Bus
import Rv32.Hart.Arithmetic
import Rv32.Hart.State
import Rv32.Instruction.Resolution
import Rv32.Numeral

/-!
# Execution of one instruction

The effect of an instruction on a machine. An instruction that raises an
exception or ends a self-test leaves the machine as it was; delivering the
exception and counting the step are not part of execution.
-/

namespace Rv32

inductive Outcome where
  | completed
  | raised (e : Exception)
  | exited (v : Verdict)
  deriving DecidableEq, Repr

namespace Hart

/-! ## Environment calls and trap returns -/

def verdict (h : Hart) : Verdict :=
  if h.x Register.a0 = 0 ∨ h.x Register.a0 = 42 then .passed else .failed (h.x Register.gp)

def ecall (h : Hart) : Outcome × Hart :=
  match h.ecallMode with
  | .selfTest => (.exited h.verdict, h)
  | .ignore => (.completed, h.advance)
  | .trap => (.raised (.environmentCallFrom h.level), h)

/-- The hart after a return from the handler at `source` to level `target`. -/
def trapReturn (h : Hart) (source target : Level) (status : Status) : Hart :=
  { h.jump (h.csrs.epc source) with
    csrs := { h.csrs with status := status }
    level := target }

def mayLeaveMachine (h : Hart) : Bool :=
  h.level = .machine

def mret (h : Hart) : Outcome × Hart :=
  if h.mayLeaveMachine then
    (.completed, h.trapReturn .machine h.csrs.status.mppLevel h.csrs.status.leaveMachine)
  else (.raised .illegalInstruction, h)

/-- Whether the level and the status register allow a return from supervisor mode. -/
def mayLeaveSupervisor (h : Hart) : Bool :=
  match h.level with
  | .user => false
  | .supervisor => !h.csrs.status.tsr
  | .machine => true

def sret (h : Hart) : Outcome × Hart :=
  if h.mayLeaveSupervisor then
    (.completed, h.trapReturn .supervisor h.csrs.status.sppLevel h.csrs.status.leaveSupervisor)
  else (.raised .illegalInstruction, h)

/--
The wait for an interrupt. The program counter stays until some interrupt is
pending, so the hart comes back to the instruction until then. Whether the
interrupt is enabled does not matter.
-/
def wfi (h : Hart) : Outcome × Hart :=
  if h.csrs.status.tw && decide (h.level ≠ .machine) then (.raised .illegalInstruction, h)
  else if h.csrs.interrupts.mip = 0 then (.completed, h)
  else (.completed, h.advance)

/-! ## Control register accesses -/

/--
The control register access that reads number `n` into `rd` and then applies
`write`, a value and the mask of its bits. If either access is refused,
neither register changes.
-/
def accessCsr (h : Hart) (rd : Register) (n : CsrNumber) (write : Option (Word × Word)) :
    Outcome × Hart :=
  match h.csrs.read n h.level with
  | .error e => (.raised e, h)
  | .ok old =>
      match write with
      | none => (.completed, h.writeBack rd old)
      | some (v, mask) =>
          match h.csrs.writeMasked n v mask h.level with
          | .error e => (.raised e, h)
          | .ok csrs => (.completed, { h.writeBack rd old with csrs := csrs })

/--
The write of a control register access with operand `v`. A set or clear access
whose operand field is zero reads the register and does not write it.
-/
def csrWrite? (action : CsrAction) (v : Word) (fieldIsZero : Bool) : Option (Word × Word) :=
  match action with
  | .write => some (v, BitVec.allOnes 32)
  | .set => if fieldIsZero then none else some (BitVec.allOnes 32, v)
  | .clear => if fieldIsZero then none else some (0, v)

def csrOperand (h : Hart) (i : IType) : CsrOperand → Word
  | .register => h.x i.rs1
  | .immediate => i.uimm

def executeCsr (h : Hart) (i : IType) (action : CsrAction) (operand : CsrOperand) :
    Outcome × Hart :=
  h.accessCsr i.rd (i.csr.setWidth 16)
    (csrWrite? action (h.csrOperand i operand) (decide (i.rs1 = Register.zero)))

end Hart

namespace Machine

variable {β : Type} [Bus β]

def settle (m : Machine β) (result : Outcome × Hart) : Outcome × Machine β :=
  (result.1, { m with hart := result.2 })

def complete (m : Machine β) (hart : Hart) : Outcome × Machine β :=
  (.completed, { m with hart := hart })

/-! ## Memory accesses -/

def load (m : Machine β) (op : LoadOp) (rd : Register) (address : Word) : Outcome × Machine β :=
  let (bytes, bus) := Bus.read m.bus address op.width
  (.completed, { hart := m.hart.writeBack rd (op.extend bytes), bus := bus })

def store (m : Machine β) (op : StoreOp) (address v : Word) : Outcome × Machine β :=
  (.completed,
    { hart := m.hart.advance, bus := Bus.write m.bus address (leBytes op.width v) })

/-- The load of the word at `address` that also reserves the address. -/
def loadReserved (m : Machine β) (rd : Register) (address : Word) : Outcome × Machine β :=
  let (bytes, bus) := Bus.read m.bus address 4
  (.completed,
    { hart := { m.hart with reservation := some address }.writeBack rd (ofLeBytes 32 bytes)
      bus := bus })

/--
The store of `v` at `address` if that address is reserved. Register `rd` gets
zero if the store has been made and one if not; the reservation is given up.
-/
def storeConditional (m : Machine β) (rd : Register) (address v : Word) :
    Outcome × Machine β :=
  let released := { m.hart with reservation := none }
  if m.hart.reservation = some address then
    (.completed,
      { hart := released.writeBack rd 0, bus := Bus.write m.bus address (leBytes 4 v) })
  else (.completed, { m with hart := released.writeBack rd 1 })

/-- The update of the word at `address` with operand `v`. Register `rd` gets the old word. -/
def atomicUpdate (m : Machine β) (op : AmoOp) (rd : Register) (address v : Word) :
    Outcome × Machine β :=
  let (bytes, bus) := Bus.read m.bus address 4
  let old := ofLeBytes 32 bytes
  (.completed,
    { hart := m.hart.writeBack rd old
      bus := Bus.write bus address (leBytes 4 (op.eval old v)) })

/-! ## Instructions by format -/

def executeReg (m : Machine β) (i : RType) (op : RegOp) : Outcome × Machine β :=
  let a := m.hart.x i.rs1
  let b := m.hart.x i.rs2
  match op with
  | .arith op => m.complete (m.hart.writeBack i.rd (op.eval a b))
  | .mulDiv op => m.complete (m.hart.writeBack i.rd (op.eval a b))
  | .loadReserved => m.loadReserved i.rd a
  | .storeConditional => m.storeConditional i.rd a b
  | .amo op => m.atomicUpdate op i.rd a b

def executeImm (m : Machine β) (i : IType) (op : ImmOp) : Outcome × Machine β :=
  let a := m.hart.x i.rs1
  match op with
  | .arith op => m.complete (m.hart.writeBack i.rd (op.registerForm.eval a i.imm))
  | .load op => m.load op i.rd (a + i.imm)
  | .jalr => m.complete (m.hart.jumpAndLink i.rd (a + i.imm))
  | .ecall => m.settle m.hart.ecall
  | .ebreak => m.complete m.hart.advance
  | .sret => m.settle m.hart.sret
  | .mret => m.settle m.hart.mret
  | .wfi => m.settle m.hart.wfi
  | .sfenceVma => m.complete m.hart.advance
  | .csr action operand => m.settle (m.hart.executeCsr i action operand)

def executeStore (m : Machine β) (i : SType) (op : StoreOp) : Outcome × Machine β :=
  m.store op (m.hart.x i.rs1 + i.imm) (m.hart.x i.rs2)

def executeBranch (m : Machine β) (i : BType) (op : BranchOp) : Outcome × Machine β :=
  if op.holds (m.hart.x i.rs1) (m.hart.x i.rs2) then
    m.complete (m.hart.jump (m.hart.pc + i.imm))
  else m.complete m.hart.advance

/-- The part of an upper immediate that counts. -/
def upperBits (imm : Word) : Word :=
  imm &&& 0xFFFFF000

def executeUpper (m : Machine β) (i : UType) (op : UpperOp) : Outcome × Machine β :=
  match op with
  | .lui => m.complete (m.hart.writeBack i.rd (upperBits i.imm))
  | .auipc => m.complete (m.hart.writeBack i.rd (m.hart.pc + upperBits i.imm))

def executeJump (m : Machine β) (i : JType) (op : JumpOp) : Outcome × Machine β :=
  match op with
  | .jal => m.complete (m.hart.jumpAndLink i.rd (m.hart.pc + i.imm))

/-- The effect of a fence. Accesses are made in order, and fetches see them at once. -/
def executeFence (m : Machine β) (op : FenceOp) : Outcome × Machine β :=
  match op with
  | .fence => m.complete m.hart.advance
  | .fenceI => m.complete m.hart.advance

def execute? (m : Machine β) : Instruction → Option (Outcome × Machine β)
  | .r i => i.operation?.map (m.executeReg i)
  | .i i => i.operation?.map (m.executeImm i)
  | .s i => i.operation?.map (m.executeStore i)
  | .b i => i.operation?.map (m.executeBranch i)
  | .u i => i.operation?.map (m.executeUpper i)
  | .j i => i.operation?.map (m.executeJump i)
  | .fence i => i.operation?.map m.executeFence

/-- The effect of an instruction. Refused if its function fields name no operation. -/
def execute (m : Machine β) (i : Instruction) : Except DecodeError (Outcome × Machine β) :=
  match m.execute? i with
  | some result => .ok result
  | none => .error i.unknownOperation

end Machine

/-! ## Messages -/

namespace Hart

def trapReturnNotices (h : Hart) (source target : Level) : List Message :=
  let epc := Numeral.address (h.csrs.epc source).toNat
  [⟨.debug, s!"trap return from {source.name} to {target.name} at {epc}"⟩]

def ecallNotices (h : Hart) : List Message :=
  let pc := Numeral.address h.pc.toNat
  match h.ecallMode with
  | .selfTest => [⟨.info, s!"self-test ecall at {pc}: {h.verdict.text}"⟩]
  | _ => []

/-- What the hart itself says about an instruction, before it is executed. -/
def executeNotices (h : Hart) (i : Instruction) : List Message :=
  match i.operation? with
  | some (.imm .ecall) => h.ecallNotices
  | some (.imm .ebreak) =>
      let pc := Numeral.address h.pc.toNat
      [⟨.debug, s!"ebreak at {pc}"⟩]
  | some (.imm .mret) =>
      if h.mayLeaveMachine then h.trapReturnNotices .machine h.csrs.status.mppLevel else []
  | some (.imm .sret) =>
      if h.mayLeaveSupervisor then h.trapReturnNotices .supervisor h.csrs.status.sppLevel else []
  | _ => []

end Hart

namespace Machine

variable {β : Type}

def journaled (m : Machine β) : Machine (Journaled β) :=
  { hart := m.hart, bus := .start m.bus }

def executeAccesses [Bus β] (m : Machine β) (i : Instruction) : List Access :=
  match m.journaled.execute i with
  | .ok (_, after) => after.bus.accesses
  | .error _ => []

/-- What is said about an instruction, before it is executed. -/
def executeNotices [AudibleBus β] (m : Machine β) (i : Instruction) : List Message :=
  m.hart.executeNotices i ++ Access.noticesOfAll m.bus (m.executeAccesses i)

end Machine

end Rv32
