import Rv32.Instruction.Format

/-!
# Instruction words

The encoding of instructions as 32-bit words, in both directions. Decoding
looks at the opcode alone: it selects the format and extracts its fields.
Whether the fields name an operation is decided by `Instruction.operation`.
-/

namespace Rv32

/-! ## Fields of a word -/

namespace Word

def opcode (w : Word) : Opcode :=
  (w.extractLsb' 0 7).setWidth 8

def rd (w : Word) : Register :=
  w.extractLsb' 7 5

def rs1 (w : Word) : Register :=
  w.extractLsb' 15 5

def rs2 (w : Word) : Register :=
  w.extractLsb' 20 5

def funct3 (w : Word) : Byte :=
  (w.extractLsb' 12 3).setWidth 8

def funct7 (w : Word) : Byte :=
  (w.extractLsb' 25 7).setWidth 8

def immI (w : Word) : Word :=
  (w.extractLsb' 20 12).signExtend 32

def immS (w : Word) : Word :=
  (w.extractLsb' 25 7 ++ w.extractLsb' 7 5).signExtend 32

def immB (w : Word) : Word :=
  (w.extractLsb' 31 1 ++ w.extractLsb' 7 1 ++ w.extractLsb' 25 6 ++ w.extractLsb' 8 4
    ++ 0#1).signExtend 32

def immU (w : Word) : Word :=
  w.extractLsb' 12 20 ++ 0#12

def immJ (w : Word) : Word :=
  (w.extractLsb' 31 1 ++ w.extractLsb' 12 8 ++ w.extractLsb' 20 1 ++ w.extractLsb' 21 10
    ++ 0#1).signExtend 32

end Word

/-! ## Decoding -/

def Format.fields (f : Format) (w : Word) : Instruction :=
  match f with
  | .r => .r ⟨w.opcode, w.rd, w.funct3, w.rs1, w.rs2, w.funct7⟩
  | .i => .i ⟨w.opcode, w.rd, w.funct3, w.rs1, w.immI⟩
  | .s => .s ⟨w.opcode, w.funct3, w.rs1, w.rs2, w.immS⟩
  | .b => .b ⟨w.opcode, w.funct3, w.rs1, w.rs2, w.immB⟩
  | .u => .u ⟨w.opcode, w.rd, w.immU⟩
  | .j => .j ⟨w.opcode, w.rd, w.immJ⟩
  | .fence =>
      .fence
        { opcode := w.opcode
          rd := w.rd
          funct3 := w.funct3
          rs1 := w.rs1
          fm := (w.extractLsb' 28 4).setWidth 8
          predecessor := .ofBits (w.extractLsb' 24 4)
          successor := .ofBits (w.extractLsb' 20 4) }

/-- The instruction that `w` encodes. The function fields are not checked. -/
def Instruction.decode (w : Word) : Except DecodeError Instruction :=
  match Format.ofOpcode? w.opcode with
  | some f => .ok (f.fields w)
  | none => .error (.unsupportedOpcode w w.opcode)

/-! ## Encoding -/

/-- The value `v` moved up to bit `position`. Bits that do not fit below bit 31 are lost. -/
def Word.place {n : Nat} (v : BitVec n) (position : Nat) : Word :=
  v.setWidth 32 <<< position

open Word (place)

/-- The word that encodes the instruction. A field wider than its place spills into the next. -/
def RType.encode (i : RType) : Word :=
  place i.funct7 25 ||| place i.rs2 20 ||| place i.rs1 15 ||| place i.funct3 12
    ||| place i.rd 7 ||| place i.opcode 0

def IType.encode (i : IType) : Word :=
  place i.rawImm 20 ||| place i.rs1 15 ||| place i.funct3 12 ||| place i.rd 7
    ||| place i.opcode 0

def SType.encode (i : SType) : Word :=
  place (i.imm.extractLsb' 5 7) 25 ||| place i.rs2 20 ||| place i.rs1 15
    ||| place i.funct3 12 ||| place (i.imm.extractLsb' 0 5) 7 ||| place i.opcode 0

def BType.encode (i : BType) : Word :=
  place (i.imm.extractLsb' 12 1) 31 ||| place (i.imm.extractLsb' 5 6) 25 ||| place i.rs2 20
    ||| place i.rs1 15 ||| place i.funct3 12 ||| place (i.imm.extractLsb' 1 4) 8
    ||| place (i.imm.extractLsb' 11 1) 7 ||| place i.opcode 0

/-- The word that encodes the instruction. The low bits of the immediate are dropped. -/
def UType.encode (i : UType) : Word :=
  place (i.imm.extractLsb' 12 20) 12 ||| place i.rd 7 ||| place i.opcode 0

def JType.encode (i : JType) : Word :=
  place (i.imm.extractLsb' 20 1) 31 ||| place (i.imm.extractLsb' 1 10) 21
    ||| place (i.imm.extractLsb' 11 1) 20 ||| place (i.imm.extractLsb' 12 8) 12
    ||| place i.rd 7 ||| place i.opcode 0

def FenceType.encode (i : FenceType) : Word :=
  place (i.fm.setWidth 4) 28 ||| place i.predecessor.bits 24 ||| place i.successor.bits 20
    ||| place i.rs1 15 ||| place i.funct3 12 ||| place i.rd 7 ||| place i.opcode 0

def Instruction.encode : Instruction → Word
  | r x => x.encode
  | i x => x.encode
  | s x => x.encode
  | b x => x.encode
  | u x => x.encode
  | j x => x.encode
  | fence x => x.encode

/-! ## Instructions that words encode -/

/--
The instructions that some word encodes: the opcode selects the format, and
every field fits in its place.
-/
def Instruction.WellFormed : Instruction → Prop
  | r x =>
      Format.ofOpcode? x.opcode = some .r ∧ x.funct3.toNat < 8 ∧ x.funct7.toNat < 128
  | i x =>
      Format.ofOpcode? x.opcode = some .i ∧ x.funct3.toNat < 8
        ∧ -2048 ≤ x.imm.toInt ∧ x.imm.toInt ≤ 2047
  | s x =>
      Format.ofOpcode? x.opcode = some .s ∧ x.funct3.toNat < 8
        ∧ -2048 ≤ x.imm.toInt ∧ x.imm.toInt ≤ 2047
  | b x =>
      Format.ofOpcode? x.opcode = some .b ∧ x.funct3.toNat < 8
        ∧ -4096 ≤ x.imm.toInt ∧ x.imm.toInt ≤ 4094 ∧ x.imm.toNat % 2 = 0
  | u x =>
      Format.ofOpcode? x.opcode = some .u ∧ x.imm.toNat % 4096 = 0
  | j x =>
      Format.ofOpcode? x.opcode = some .j
        ∧ -1048576 ≤ x.imm.toInt ∧ x.imm.toInt ≤ 1048574 ∧ x.imm.toNat % 2 = 0
  | fence x =>
      Format.ofOpcode? x.opcode = some .fence ∧ x.funct3.toNat < 8 ∧ x.fm.toNat < 16

end Rv32
