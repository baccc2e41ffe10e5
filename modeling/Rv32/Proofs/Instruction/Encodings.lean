import Rv32.Instruction.Operation
import Rv32.Word
import Mathlib.Data.List.Nodup

/-! # The encodings of the operations

The encoding tables of RV32IMA with Zicsr, Zifencei and the privileged
instructions: for each operation its opcode and the bits of the function fields
that are fixed. Bits that no column of a row gives are operands, and may hold
anything.
-/

namespace Rv32

/-- The bits that an encoding fixes at the upper end of a word. -/
inductive Selector where
  | free
  | funct7 (bits : BitVec 7)
  | funct5 (bits : BitVec 5)
  | funct12 (bits : BitVec 12)
  deriving DecidableEq

structure Encoding where
  opcode : BitVec 7
  funct3 : Option (BitVec 3)
  selector : Selector
  deriving DecidableEq

namespace Selector

def Matches : Selector → Word → Prop
  | free, _ => True
  | funct7 bits, w => w.extractLsb' 25 7 = bits
  | funct5 bits, w => w.extractLsb' 27 5 = bits
  | funct12 bits, w => w.extractLsb' 20 12 = bits

instance (s : Selector) (w : Word) : Decidable (s.Matches w) :=
  match s with
  | free => inferInstanceAs (Decidable True)
  | funct7 bits => inferInstanceAs (Decidable (w.extractLsb' 25 7 = bits))
  | funct5 bits => inferInstanceAs (Decidable (w.extractLsb' 27 5 = bits))
  | funct12 bits => inferInstanceAs (Decidable (w.extractLsb' 20 12 = bits))

end Selector

namespace Encoding

def Matches (e : Encoding) (w : Word) : Prop :=
  w.extractLsb' 0 7 = e.opcode ∧ (∀ bits ∈ e.funct3, w.extractLsb' 12 3 = bits)
    ∧ e.selector.Matches w

instance (e : Encoding) (w : Word) : Decidable (e.Matches w) :=
  inferInstanceAs (Decidable (_ ∧ _ ∧ _))

end Encoding

/-! ## The tables -/

def Encoding.opcodes : List (BitVec 7) :=
  [0b0110011, 0b0101111, 0b0010011, 0b0000011, 0b1100111, 0b1110011, 0b0100011, 0b1100011,
    0b1101111, 0b0110111, 0b0010111, 0b0001111]

def RegOp.encoding : RegOp → Encoding
  | arith .add => ⟨0b0110011, some 0b000, .funct7 0b0000000⟩
  | arith .sub => ⟨0b0110011, some 0b000, .funct7 0b0100000⟩
  | arith .sll => ⟨0b0110011, some 0b001, .funct7 0b0000000⟩
  | arith .slt => ⟨0b0110011, some 0b010, .funct7 0b0000000⟩
  | arith .sltu => ⟨0b0110011, some 0b011, .funct7 0b0000000⟩
  | arith .xor => ⟨0b0110011, some 0b100, .funct7 0b0000000⟩
  | arith .srl => ⟨0b0110011, some 0b101, .funct7 0b0000000⟩
  | arith .sra => ⟨0b0110011, some 0b101, .funct7 0b0100000⟩
  | arith .or => ⟨0b0110011, some 0b110, .funct7 0b0000000⟩
  | arith .and => ⟨0b0110011, some 0b111, .funct7 0b0000000⟩
  | mulDiv .mul => ⟨0b0110011, some 0b000, .funct7 0b0000001⟩
  | mulDiv .mulh => ⟨0b0110011, some 0b001, .funct7 0b0000001⟩
  | mulDiv .mulhsu => ⟨0b0110011, some 0b010, .funct7 0b0000001⟩
  | mulDiv .mulhu => ⟨0b0110011, some 0b011, .funct7 0b0000001⟩
  | mulDiv .div => ⟨0b0110011, some 0b100, .funct7 0b0000001⟩
  | mulDiv .divu => ⟨0b0110011, some 0b101, .funct7 0b0000001⟩
  | mulDiv .rem => ⟨0b0110011, some 0b110, .funct7 0b0000001⟩
  | mulDiv .remu => ⟨0b0110011, some 0b111, .funct7 0b0000001⟩
  | loadReserved => ⟨0b0101111, some 0b010, .funct5 0b00010⟩
  | storeConditional => ⟨0b0101111, some 0b010, .funct5 0b00011⟩
  | amo .swap => ⟨0b0101111, some 0b010, .funct5 0b00001⟩
  | amo .add => ⟨0b0101111, some 0b010, .funct5 0b00000⟩
  | amo .xor => ⟨0b0101111, some 0b010, .funct5 0b00100⟩
  | amo .and => ⟨0b0101111, some 0b010, .funct5 0b01100⟩
  | amo .or => ⟨0b0101111, some 0b010, .funct5 0b01000⟩
  | amo .min => ⟨0b0101111, some 0b010, .funct5 0b10000⟩
  | amo .max => ⟨0b0101111, some 0b010, .funct5 0b10100⟩
  | amo .minu => ⟨0b0101111, some 0b010, .funct5 0b11000⟩
  | amo .maxu => ⟨0b0101111, some 0b010, .funct5 0b11100⟩

def ImmOp.encoding : ImmOp → Encoding
  | arith .addi => ⟨0b0010011, some 0b000, .free⟩
  | arith .slti => ⟨0b0010011, some 0b010, .free⟩
  | arith .sltiu => ⟨0b0010011, some 0b011, .free⟩
  | arith .xori => ⟨0b0010011, some 0b100, .free⟩
  | arith .ori => ⟨0b0010011, some 0b110, .free⟩
  | arith .andi => ⟨0b0010011, some 0b111, .free⟩
  | arith .slli => ⟨0b0010011, some 0b001, .funct7 0b0000000⟩
  | arith .srli => ⟨0b0010011, some 0b101, .funct7 0b0000000⟩
  | arith .srai => ⟨0b0010011, some 0b101, .funct7 0b0100000⟩
  | load .lb => ⟨0b0000011, some 0b000, .free⟩
  | load .lh => ⟨0b0000011, some 0b001, .free⟩
  | load .lw => ⟨0b0000011, some 0b010, .free⟩
  | load .lbu => ⟨0b0000011, some 0b100, .free⟩
  | load .lhu => ⟨0b0000011, some 0b101, .free⟩
  | jalr => ⟨0b1100111, some 0b000, .free⟩
  | ecall => ⟨0b1110011, some 0b000, .funct12 0x000⟩
  | ebreak => ⟨0b1110011, some 0b000, .funct12 0x001⟩
  | sret => ⟨0b1110011, some 0b000, .funct12 0x102⟩
  | mret => ⟨0b1110011, some 0b000, .funct12 0x302⟩
  | wfi => ⟨0b1110011, some 0b000, .funct12 0x105⟩
  | sfenceVma => ⟨0b1110011, some 0b000, .funct7 0b0001001⟩
  | csr .write .register => ⟨0b1110011, some 0b001, .free⟩
  | csr .set .register => ⟨0b1110011, some 0b010, .free⟩
  | csr .clear .register => ⟨0b1110011, some 0b011, .free⟩
  | csr .write .immediate => ⟨0b1110011, some 0b101, .free⟩
  | csr .set .immediate => ⟨0b1110011, some 0b110, .free⟩
  | csr .clear .immediate => ⟨0b1110011, some 0b111, .free⟩

/-- The bits that the encoding of an operation fixes. -/
def Operation.encoding : Operation → Encoding
  | reg op => op.encoding
  | imm op => op.encoding
  | store .sb => ⟨0b0100011, some 0b000, .free⟩
  | store .sh => ⟨0b0100011, some 0b001, .free⟩
  | store .sw => ⟨0b0100011, some 0b010, .free⟩
  | branch .beq => ⟨0b1100011, some 0b000, .free⟩
  | branch .bne => ⟨0b1100011, some 0b001, .free⟩
  | branch .blt => ⟨0b1100011, some 0b100, .free⟩
  | branch .bge => ⟨0b1100011, some 0b101, .free⟩
  | branch .bltu => ⟨0b1100011, some 0b110, .free⟩
  | branch .bgeu => ⟨0b1100011, some 0b111, .free⟩
  | jump .jal => ⟨0b1101111, none, .free⟩
  | upper .lui => ⟨0b0110111, none, .free⟩
  | upper .auipc => ⟨0b0010111, none, .free⟩
  | fence .fence => ⟨0b0001111, some 0b000, .free⟩
  | fence .fenceI => ⟨0b0001111, some 0b001, .free⟩

/-! ## The mnemonics -/

namespace Operation

/-- The mnemonics of the supported operations, by format. -/
def mnemonics : List String :=
  ["add", "sub", "sll", "slt", "sltu", "xor", "srl", "sra", "or", "and", "mul", "mulh", "mulhsu",
    "mulhu", "div", "divu", "rem", "remu", "lr.w", "sc.w", "amoswap.w", "amoadd.w", "amoxor.w",
    "amoand.w", "amoor.w", "amomin.w", "amomax.w", "amominu.w", "amomaxu.w", "addi", "slti",
    "sltiu", "xori", "ori", "andi", "slli", "srli", "srai", "lb", "lh", "lw", "lbu", "lhu",
    "jalr", "ecall", "ebreak", "sret", "mret", "wfi", "sfence.vma", "csrrw", "csrrs", "csrrc",
    "csrrwi", "csrrsi", "csrrci", "sb", "sh", "sw", "beq", "bne", "blt", "bge", "bltu", "bgeu",
    "jal", "lui", "auipc", "fence", "fence.i"]

def all : List Operation :=
  [.arith .add, .arith .sub, .arith .sll, .arith .slt, .arith .sltu, .arith .xor, .arith .srl,
    .arith .sra, .arith .or, .arith .and, .mulDiv .mul, .mulDiv .mulh, .mulDiv .mulhsu,
    .mulDiv .mulhu, .mulDiv .div, .mulDiv .divu, .mulDiv .rem, .mulDiv .remu, .loadReserved,
    .storeConditional, .amo .swap, .amo .add, .amo .xor, .amo .and, .amo .or, .amo .min,
    .amo .max, .amo .minu, .amo .maxu].map reg
  ++ [.arith .addi, .arith .slti, .arith .sltiu, .arith .xori, .arith .ori, .arith .andi,
    .arith .slli, .arith .srli, .arith .srai, .load .lb, .load .lh, .load .lw, .load .lbu,
    .load .lhu, .jalr, .ecall, .ebreak, .sret, .mret, .wfi, .sfenceVma, .csr .write .register,
    .csr .set .register, .csr .clear .register, .csr .write .immediate, .csr .set .immediate,
    .csr .clear .immediate].map imm
  ++ [store .sb, store .sh, store .sw, branch .beq, branch .bne, branch .blt, branch .bge,
    branch .bltu, branch .bgeu, jump .jal, upper .lui, upper .auipc, fence .fence,
    fence .fenceI]

theorem map_mnemonic_all : all.map mnemonic = mnemonics := rfl

theorem mem_all (op : Operation) : op ∈ all := by
  cases op with
  | reg op =>
    cases op with
    | loadReserved => decide
    | storeConditional => decide
    | _ op => cases op <;> decide
  | imm op =>
    cases op with
    | arith op => cases op <;> decide
    | load op => cases op <;> decide
    | csr action operand => cases action <;> cases operand <;> decide
    | _ => decide
  | _ op => cases op <;> decide

theorem nodup_mnemonics : mnemonics.Nodup := by
  decide +kernel

theorem mnemonic_injective : Function.Injective mnemonic := by
  intro a b h
  have hnodup := nodup_mnemonics
  rw [← map_mnemonic_all] at hnodup
  exact List.inj_on_of_nodup_map hnodup (mem_all a) (mem_all b) h

theorem mem_mnemonics_iff (name : String) :
    name ∈ mnemonics ↔ ∃ op : Operation, op.mnemonic = name := by
  rw [← map_mnemonic_all, List.mem_map]
  exact ⟨fun ⟨op, _, h⟩ => ⟨op, h⟩, fun ⟨op, h⟩ => ⟨op, mem_all op, h⟩⟩

end Operation

end Rv32
