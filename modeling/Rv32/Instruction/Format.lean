import Rv32.Numeral
import Rv32.Register

/-!
# Instruction formats

The seven encoding formats as records of their fields. Field types are as wide
as a byte where the encoding has fewer bits, so a record may describe an
instruction that no word encodes; `Instruction.WellFormed` says which do.
-/

namespace Rv32

/-! ## Major opcodes -/

/-- The seven low bits of an instruction word, which select its group and format. -/
abbrev Opcode := Byte

namespace Opcode

def load : Opcode := 0x03

def miscMem : Opcode := 0x0F

def opImm : Opcode := 0x13

def auipc : Opcode := 0x17

def store : Opcode := 0x23

def amo : Opcode := 0x2F

def op : Opcode := 0x33

def lui : Opcode := 0x37

def branch : Opcode := 0x63

def jalr : Opcode := 0x67

def jal : Opcode := 0x6F

/-- Environment calls, trap returns and control register accesses. -/
def system : Opcode := 0x73

end Opcode

inductive Format where
  | r
  | i
  | s
  | b
  | u
  | j
  | fence
  deriving DecidableEq, Repr

namespace Format

def name : Format → String
  | r => "R"
  | i => "I"
  | s => "S"
  | b => "B"
  | u => "U"
  | j => "J"
  | fence => "fence"

/-- The format of the instructions with the given opcode, if it is a supported one. -/
def ofOpcode? (opcode : Opcode) : Option Format :=
  if opcode = Opcode.op ∨ opcode = Opcode.amo then some r
  else if opcode = Opcode.opImm ∨ opcode = Opcode.load ∨ opcode = Opcode.jalr
      ∨ opcode = Opcode.system then some i
  else if opcode = Opcode.store then some s
  else if opcode = Opcode.branch then some b
  else if opcode = Opcode.lui ∨ opcode = Opcode.auipc then some u
  else if opcode = Opcode.jal then some j
  else if opcode = Opcode.miscMem then some fence
  else none

end Format

/-! ## Fields of the formats -/

/-- Operations on registers: the base and multiplication groups, and the atomics. -/
structure RType where
  opcode : Opcode
  rd : Register
  funct3 : Byte
  rs1 : Register
  rs2 : Register
  funct7 : Byte
  deriving DecidableEq, Repr

/-- Operations on a register and an immediate, loads, `jalr`, and the system group. As in the other
formats the immediate has been sign-extended. -/
structure IType where
  opcode : Opcode
  rd : Register
  funct3 : Byte
  rs1 : Register
  imm : Word
  deriving DecidableEq, Repr

structure SType where
  opcode : Opcode
  funct3 : Byte
  rs1 : Register
  rs2 : Register
  imm : Word
  deriving DecidableEq, Repr

structure BType where
  opcode : Opcode
  funct3 : Byte
  rs1 : Register
  rs2 : Register
  imm : Word
  deriving DecidableEq, Repr

/-- Operations on an upper immediate, whose low bits are zero. -/
structure UType where
  opcode : Opcode
  rd : Register
  imm : Word
  deriving DecidableEq, Repr

structure JType where
  opcode : Opcode
  rd : Register
  imm : Word
  deriving DecidableEq, Repr

/-- A set of the kinds of access that a fence orders. -/
structure AccessSet where
  deviceInput : Bool
  deviceOutput : Bool
  memoryReads : Bool
  memoryWrites : Bool
  deriving DecidableEq, Repr

namespace AccessSet

def ofBits (b : BitVec 4) : AccessSet :=
  { deviceInput := b.getLsbD 3
    deviceOutput := b.getLsbD 2
    memoryReads := b.getLsbD 1
    memoryWrites := b.getLsbD 0 }

def bits (s : AccessSet) : BitVec 4 :=
  BitVec.ofBool s.deviceInput ++ BitVec.ofBool s.deviceOutput
    ++ BitVec.ofBool s.memoryReads ++ BitVec.ofBool s.memoryWrites

theorem ofBits_bits (s : AccessSet) : ofBits s.bits = s := by
  rcases s with ⟨a, b, c, d⟩
  revert a b c d
  decide

theorem bits_ofBits (b : BitVec 4) : (ofBits b).bits = b := by
  revert b
  decide

def letters (s : AccessSet) : String :=
  (if s.deviceInput then "i" else "") ++ (if s.deviceOutput then "o" else "")
    ++ (if s.memoryReads then "r" else "") ++ (if s.memoryWrites then "w" else "")

end AccessSet

structure FenceType where
  opcode : Opcode
  rd : Register
  funct3 : Byte
  rs1 : Register
  fm : Byte
  predecessor : AccessSet
  successor : AccessSet
  deriving DecidableEq, Repr

/-- An instruction: a format and its fields. -/
inductive Instruction where
  | r (i : RType)
  | i (i : IType)
  | s (i : SType)
  | b (i : BType)
  | u (i : UType)
  | j (i : JType)
  | fence (i : FenceType)
  deriving DecidableEq, Repr

def Instruction.format : Instruction → Format
  | r _ => .r
  | i _ => .i
  | s _ => .s
  | b _ => .b
  | u _ => .u
  | j _ => .j
  | fence _ => .fence

/-! ## Derived fields -/

/-- The function select of an atomic operation, without its two ordering bits. -/
def RType.funct5 (i : RType) : Byte :=
  i.funct7 >>> 2

namespace IType

/-- The immediate as the twelve bits found in the instruction word. -/
def rawImm (i : IType) : BitVec 12 :=
  i.imm.setWidth 12

def csr (i : IType) : BitVec 12 :=
  i.rawImm

/-- The shift amount of the immediate shifts. -/
def shamt (i : IType) : BitVec 5 :=
  i.rawImm.setWidth 5

/-- The unsigned immediate that control register accesses keep in the `rs1` field. -/
def uimm (i : IType) : Word :=
  i.rs1.setWidth 32

end IType

/-! ## Refusals -/

/-- Why a word is not an instruction, or an instruction not an operation. -/
inductive DecodeError where
  | unsupportedOpcode (raw : Word) (opcode : Opcode)
  | unknownOperation (format : Format) (opcode : Opcode) (funct3 : Byte)
  deriving DecidableEq, Repr

def DecodeError.message : DecodeError → String
  | unsupportedOpcode raw opcode =>
      let opcode := Numeral.binary 7 opcode.toNat
      let raw := Numeral.address raw.toNat
      s!"unsupported opcode {opcode} in instruction {raw}"
  | unknownOperation format opcode funct3 =>
      let opcode := Numeral.binary 7 opcode.toNat
      let funct3 := Numeral.binary 3 funct3.toNat
      s!"no {format.name}-type operation for opcode {opcode} with funct3 {funct3}"

end Rv32
