import Rv32.Instruction.Format
import Rv32.Instruction.Operation

/-!
# Resolution of function fields

Which operation the function fields of an instruction name, if any. Each table
answers for one opcode; fields that an encoding leaves free are not examined,
so the ordering bits of an atomic operation and the register fields of a trap
return may hold anything.
-/

namespace Rv32

def RegOp.ofFunct? (funct7 funct3 : Byte) : Option RegOp :=
  match funct7, funct3 with
  | 0x00, 0 => some (.arith .add)
  | 0x20, 0 => some (.arith .sub)
  | 0x00, 1 => some (.arith .sll)
  | 0x00, 2 => some (.arith .slt)
  | 0x00, 3 => some (.arith .sltu)
  | 0x00, 4 => some (.arith .xor)
  | 0x00, 5 => some (.arith .srl)
  | 0x20, 5 => some (.arith .sra)
  | 0x00, 6 => some (.arith .or)
  | 0x00, 7 => some (.arith .and)
  | 0x01, 0 => some (.mulDiv .mul)
  | 0x01, 1 => some (.mulDiv .mulh)
  | 0x01, 2 => some (.mulDiv .mulhsu)
  | 0x01, 3 => some (.mulDiv .mulhu)
  | 0x01, 4 => some (.mulDiv .div)
  | 0x01, 5 => some (.mulDiv .divu)
  | 0x01, 6 => some (.mulDiv .rem)
  | 0x01, 7 => some (.mulDiv .remu)
  | _, _ => none

/-- The atomic operation on words with the given function select. -/
def RegOp.ofAtomic? (funct5 : Byte) : Option RegOp :=
  match funct5 with
  | 0x02 => some .loadReserved
  | 0x03 => some .storeConditional
  | 0x01 => some (.amo .swap)
  | 0x00 => some (.amo .add)
  | 0x04 => some (.amo .xor)
  | 0x0C => some (.amo .and)
  | 0x08 => some (.amo .or)
  | 0x10 => some (.amo .min)
  | 0x14 => some (.amo .max)
  | 0x18 => some (.amo .minu)
  | 0x1C => some (.amo .maxu)
  | _ => none

/-- The operation of the register-immediate group. Shifts fix the bits above their amount. -/
def ImmArithOp.ofFunct? (funct3 : Byte) (upper : BitVec 7) : Option ImmArithOp :=
  match funct3 with
  | 0 => some .addi
  | 2 => some .slti
  | 3 => some .sltiu
  | 4 => some .xori
  | 6 => some .ori
  | 7 => some .andi
  | 1 => if upper = 0x00 then some .slli else none
  | 5 =>
      if upper = 0x00 then some .srli
      else if upper = 0x20 then some .srai
      else none
  | _ => none

def LoadOp.ofFunct? (funct3 : Byte) : Option LoadOp :=
  match funct3 with
  | 0 => some .lb
  | 1 => some .lh
  | 2 => some .lw
  | 4 => some .lbu
  | 5 => some .lhu
  | _ => none

/-- The privileged operation that the whole immediate selects. -/
def ImmOp.ofRawImm? (raw : BitVec 12) : Option ImmOp :=
  match raw with
  | 0x000 => some .ecall
  | 0x001 => some .ebreak
  | 0x102 => some .sret
  | 0x302 => some .mret
  | 0x105 => some .wfi
  | _ => if raw.extractLsb' 5 7 = 0x09 then some .sfenceVma else none

def ImmOp.ofSystem? (funct3 : Byte) (raw : BitVec 12) : Option ImmOp :=
  match funct3 with
  | 0 => ofRawImm? raw
  | 1 => some (.csr .write .register)
  | 2 => some (.csr .set .register)
  | 3 => some (.csr .clear .register)
  | 5 => some (.csr .write .immediate)
  | 6 => some (.csr .set .immediate)
  | 7 => some (.csr .clear .immediate)
  | _ => none

/-- The operation that the function fields name, if any. -/
def RType.operation? (i : RType) : Option RegOp :=
  if i.opcode = Opcode.op then RegOp.ofFunct? i.funct7 i.funct3
  else if i.opcode = Opcode.amo ∧ i.funct3 = 2 then RegOp.ofAtomic? i.funct5
  else none

def IType.operation? (i : IType) : Option ImmOp :=
  if i.opcode = Opcode.opImm then
    (ImmArithOp.ofFunct? i.funct3 (i.rawImm.extractLsb' 5 7)).map .arith
  else if i.opcode = Opcode.load then (LoadOp.ofFunct? i.funct3).map .load
  else if i.opcode = Opcode.jalr then if i.funct3 = 0 then some .jalr else none
  else if i.opcode = Opcode.system then ImmOp.ofSystem? i.funct3 i.rawImm
  else none

def SType.operation? (i : SType) : Option StoreOp :=
  match i.funct3 with
  | 0 => some .sb
  | 1 => some .sh
  | 2 => some .sw
  | _ => none

def BType.operation? (i : BType) : Option BranchOp :=
  match i.funct3 with
  | 0 => some .beq
  | 1 => some .bne
  | 4 => some .blt
  | 5 => some .bge
  | 6 => some .bltu
  | 7 => some .bgeu
  | _ => none

def UType.operation? (i : UType) : Option UpperOp :=
  if i.opcode = Opcode.lui then some .lui
  else if i.opcode = Opcode.auipc then some .auipc
  else none

def JType.operation? (i : JType) : Option JumpOp :=
  if i.opcode = Opcode.jal then some .jal else none

def FenceType.operation? (i : FenceType) : Option FenceOp :=
  match i.funct3 with
  | 0 => some .fence
  | 1 => some .fenceI
  | _ => none

namespace Instruction

def operation? : Instruction → Option Operation
  | r x => x.operation?.map .reg
  | i x => x.operation?.map .imm
  | s x => x.operation?.map .store
  | b x => x.operation?.map .branch
  | u x => x.operation?.map .upper
  | j x => x.operation?.map .jump
  | fence x => x.operation?.map .fence

def opcode : Instruction → Opcode
  | r x => x.opcode
  | i x => x.opcode
  | s x => x.opcode
  | b x => x.opcode
  | u x => x.opcode
  | j x => x.opcode
  | fence x => x.opcode

/-- The function field that a refusal reports: zero for the formats that have none. -/
def funct3 : Instruction → Byte
  | r x => x.funct3
  | i x => x.funct3
  | s x => x.funct3
  | b x => x.funct3
  | u _ => 0
  | j _ => 0
  | fence x => x.funct3

def unknownOperation (i : Instruction) : DecodeError :=
  .unknownOperation i.format i.opcode i.funct3

def operation (i : Instruction) : Except DecodeError Operation :=
  match i.operation? with
  | some op => .ok op
  | none => .error i.unknownOperation

end Instruction

end Rv32
