/-!
# Operations and their mnemonics

The operations of RV32IMA with Zicsr, Zifencei and the privileged
instructions, grouped by the format that encodes them. Operations that compute
the same function from different operands share one name for that function:
an immediate form names the register form it agrees with.
-/

namespace Rv32

inductive ArithOp where
  | add
  | sub
  | sll
  | slt
  | sltu
  | xor
  | srl
  | sra
  | or
  | and
  deriving DecidableEq, Repr

inductive MulDivOp where
  | mul
  | mulh
  | mulhsu
  | mulhu
  | div
  | divu
  | rem
  | remu
  deriving DecidableEq, Repr

/-- Atomic updates of one memory word. -/
inductive AmoOp where
  | swap
  | add
  | xor
  | and
  | or
  | min
  | max
  | minu
  | maxu
  deriving DecidableEq, Repr

inductive RegOp where
  | arith (op : ArithOp)
  | mulDiv (op : MulDivOp)
  | loadReserved
  | storeConditional
  | amo (op : AmoOp)
  deriving DecidableEq, Repr

inductive ImmArithOp where
  | addi
  | slti
  | sltiu
  | xori
  | ori
  | andi
  | slli
  | srli
  | srai
  deriving DecidableEq, Repr

/-- Loads, named for their width and for how the value fills a register. -/
inductive LoadOp where
  | lb
  | lh
  | lw
  | lbu
  | lhu
  deriving DecidableEq, Repr

inductive CsrAction where
  | write
  | set
  | clear
  deriving DecidableEq, Repr

/-- Where a control register access takes its operand from. -/
inductive CsrOperand where
  | register
  | immediate
  deriving DecidableEq, Repr

/-- Operations on a register and an immediate, and the operations of the system group. -/
inductive ImmOp where
  | arith (op : ImmArithOp)
  | load (op : LoadOp)
  | jalr
  | ecall
  | ebreak
  | sret
  | mret
  | wfi
  | sfenceVma
  | csr (action : CsrAction) (operand : CsrOperand)
  deriving DecidableEq, Repr

inductive StoreOp where
  | sb
  | sh
  | sw
  deriving DecidableEq, Repr

inductive BranchOp where
  | beq
  | bne
  | blt
  | bge
  | bltu
  | bgeu
  deriving DecidableEq, Repr

inductive UpperOp where
  | lui
  | auipc
  deriving DecidableEq, Repr

inductive JumpOp where
  | jal
  deriving DecidableEq, Repr

/-- Ordering of memory accesses and of instruction fetches. -/
inductive FenceOp where
  | fence
  | fenceI
  deriving DecidableEq, Repr

/-- A resolved operation, grouped by the format that encodes it. -/
inductive Operation where
  | reg (op : RegOp)
  | imm (op : ImmOp)
  | store (op : StoreOp)
  | branch (op : BranchOp)
  | upper (op : UpperOp)
  | jump (op : JumpOp)
  | fence (op : FenceOp)
  deriving DecidableEq, Repr

/-! ## Register forms of the immediate operations -/

/-- The two-register operation that computes the same function. -/
def ImmArithOp.registerForm : ImmArithOp → ArithOp
  | addi => .add
  | slti => .slt
  | sltiu => .sltu
  | xori => .xor
  | ori => .or
  | andi => .and
  | slli => .sll
  | srli => .srl
  | srai => .sra

/-! ## Mnemonics -/

def ArithOp.mnemonic : ArithOp → String
  | add => "add"
  | sub => "sub"
  | sll => "sll"
  | slt => "slt"
  | sltu => "sltu"
  | xor => "xor"
  | srl => "srl"
  | sra => "sra"
  | or => "or"
  | and => "and"

def MulDivOp.mnemonic : MulDivOp → String
  | mul => "mul"
  | mulh => "mulh"
  | mulhsu => "mulhsu"
  | mulhu => "mulhu"
  | div => "div"
  | divu => "divu"
  | rem => "rem"
  | remu => "remu"

def AmoOp.mnemonic : AmoOp → String
  | swap => "amoswap.w"
  | add => "amoadd.w"
  | xor => "amoxor.w"
  | and => "amoand.w"
  | or => "amoor.w"
  | min => "amomin.w"
  | max => "amomax.w"
  | minu => "amominu.w"
  | maxu => "amomaxu.w"

def RegOp.mnemonic : RegOp → String
  | arith op => op.mnemonic
  | mulDiv op => op.mnemonic
  | loadReserved => "lr.w"
  | storeConditional => "sc.w"
  | amo op => op.mnemonic

def ImmArithOp.mnemonic : ImmArithOp → String
  | addi => "addi"
  | slti => "slti"
  | sltiu => "sltiu"
  | xori => "xori"
  | ori => "ori"
  | andi => "andi"
  | slli => "slli"
  | srli => "srli"
  | srai => "srai"

def LoadOp.mnemonic : LoadOp → String
  | lb => "lb"
  | lh => "lh"
  | lw => "lw"
  | lbu => "lbu"
  | lhu => "lhu"

def CsrAction.mnemonic : CsrAction → CsrOperand → String
  | write, .register => "csrrw"
  | set, .register => "csrrs"
  | clear, .register => "csrrc"
  | write, .immediate => "csrrwi"
  | set, .immediate => "csrrsi"
  | clear, .immediate => "csrrci"

def ImmOp.mnemonic : ImmOp → String
  | arith op => op.mnemonic
  | load op => op.mnemonic
  | jalr => "jalr"
  | ecall => "ecall"
  | ebreak => "ebreak"
  | sret => "sret"
  | mret => "mret"
  | wfi => "wfi"
  | sfenceVma => "sfence.vma"
  | csr action operand => action.mnemonic operand

def StoreOp.mnemonic : StoreOp → String
  | sb => "sb"
  | sh => "sh"
  | sw => "sw"

def BranchOp.mnemonic : BranchOp → String
  | beq => "beq"
  | bne => "bne"
  | blt => "blt"
  | bge => "bge"
  | bltu => "bltu"
  | bgeu => "bgeu"

def UpperOp.mnemonic : UpperOp → String
  | lui => "lui"
  | auipc => "auipc"

def JumpOp.mnemonic : JumpOp → String
  | jal => "jal"

def FenceOp.mnemonic : FenceOp → String
  | fence => "fence"
  | fenceI => "fence.i"

def Operation.mnemonic : Operation → String
  | reg op => op.mnemonic
  | imm op => op.mnemonic
  | store op => op.mnemonic
  | branch op => op.mnemonic
  | upper op => op.mnemonic
  | jump op => op.mnemonic
  | fence op => op.mnemonic

end Rv32
