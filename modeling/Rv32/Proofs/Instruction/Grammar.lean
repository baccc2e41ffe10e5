import Rv32.Hart.Execution
import Rv32.Memory.Ram
import Rv32.Proofs.Instruction.Resolution
import Rv32.Proofs.Instruction.RoundTrip
import Rv32.Proofs.Word

/-! # The decoder accepts the documented grammar

Decoding and resolution together find the operation that a word names, and
refuse the words that name none. That the encodings do not overlap, and that
operand bits do not matter, then follows for all words at once.
-/

namespace Rv32

/-! ## Decoding -/

theorem Format.isSome_ofOpcode?_iff (bits : BitVec 7) :
    (Format.ofOpcode? (bits.setWidth 8)).isSome ↔ bits ∈ Encoding.opcodes := by
  revert bits
  decide

theorem Instruction.decode_isOk_iff (w : Word) :
    (∃ i, Instruction.decode w = .ok i) ↔ w.extractLsb' 0 7 ∈ Encoding.opcodes := by
  rw [← Format.isSome_ofOpcode?_iff, Option.isSome_iff_exists]
  constructor
  · rintro ⟨i, hi⟩
    obtain ⟨f, hf, -⟩ := decode_eq_ok_iff.mp hi
    exact ⟨f, hf⟩
  · rintro ⟨f, hf⟩
    exact ⟨f.fields w, decode_eq_ok_iff.mpr ⟨f, hf, rfl⟩⟩

theorem Instruction.decode_eq_unsupported_iff (w : Word) :
    Instruction.decode w = .error (.unsupportedOpcode w w.opcode)
      ↔ w.extractLsb' 0 7 ∉ Encoding.opcodes := by
  rw [← decode_isOk_iff]
  unfold Instruction.decode
  cases Format.ofOpcode? w.opcode with
  | none => simp
  | some f => simp

/-! ## The tables of each opcode -/

theorem RType.operation?_op (x : RType) (h : x.opcode = Opcode.op) :
    x.operation? = RegOp.ofFunct? x.funct7 x.funct3 :=
  if_pos h

theorem RType.operation?_amo (x : RType) (h : x.opcode = Opcode.amo) :
    x.operation? = if x.funct3 = 2 then RegOp.ofAtomic? x.funct5 else none := by
  rw [operation?, h]
  simp [Opcode.op, Opcode.amo]

theorem IType.operation?_opImm (x : IType) (h : x.opcode = Opcode.opImm) :
    x.operation? = (ImmArithOp.ofFunct? x.funct3 (x.rawImm.extractLsb' 5 7)).map .arith :=
  if_pos h

theorem IType.operation?_load (x : IType) (h : x.opcode = Opcode.load) :
    x.operation? = (LoadOp.ofFunct? x.funct3).map .load := by
  rw [operation?, h]
  rfl

theorem IType.operation?_jalr (x : IType) (h : x.opcode = Opcode.jalr) :
    x.operation? = if x.funct3 = 0 then some .jalr else none := by
  rw [operation?, h]
  rfl

theorem IType.operation?_system (x : IType) (h : x.opcode = Opcode.system) :
    x.operation? = ImmOp.ofSystem? x.funct3 x.rawImm := by
  rw [operation?, h]
  rfl

theorem Word.low_of_opcode {w : Word} {o : Opcode} (h : w.opcode = o) :
    w.extractLsb' 0 7 = o.setWidth 7 := by
  rw [← h]
  exact (setWidth_setWidth_self _ (by decide)).symm

theorem Instruction.operation?_of_decode {w : Word} {i : Instruction}
    (h : Instruction.decode w = .ok i) : i.operation? = w.operation? := by
  obtain ⟨f, hf, rfl⟩ := decode_eq_ok_iff.mp h
  have hraw : w.immI.setWidth 12 = w.extractLsb' 20 12 := Word.setWidth_signExtend _ (by decide)
  -- A format with several opcodes asks for the opcode once more, the others do not.
  unfold Word.operation?
  unfold Format.ofOpcode? at hf
  split_ifs at hf with hr hi hs hb hu hj hfence <;> cases hf
  · rcases hr with ho | ho
    · rw [Word.low_of_opcode ho]
      exact congrArg (Option.map Operation.reg) (RType.operation?_op ⟨w.opcode, _, _, _, _, _⟩ ho)
    · rw [Word.low_of_opcode ho, ← w.funct7_shift]
      exact congrArg (Option.map Operation.reg) (RType.operation?_amo ⟨w.opcode, _, _, _, _, _⟩ ho)
  · rcases hi with ho | ho | ho | ho
    · rw [Word.low_of_opcode ho, ← w.extractLsb'_funct12, ← hraw]
      exact congrArg (Option.map Operation.imm) (IType.operation?_opImm ⟨w.opcode, _, _, _, _⟩ ho)
    · rw [Word.low_of_opcode ho]
      exact congrArg (Option.map Operation.imm) (IType.operation?_load ⟨w.opcode, _, _, _, _⟩ ho)
    · rw [Word.low_of_opcode ho]
      exact congrArg (Option.map Operation.imm) (IType.operation?_jalr ⟨w.opcode, _, _, _, _⟩ ho)
    · rw [Word.low_of_opcode ho, ← hraw]
      exact congrArg (Option.map Operation.imm) (IType.operation?_system ⟨w.opcode, _, _, _, _⟩ ho)
  · rw [Word.low_of_opcode hs]
    rfl
  · rw [Word.low_of_opcode hb]
    rfl
  · rcases hu with ho | ho
    · rw [Word.low_of_opcode ho]
      simp only [Format.fields, Instruction.operation?, UType.operation?, ho]
      rfl
    · rw [Word.low_of_opcode ho]
      simp only [Format.fields, Instruction.operation?, UType.operation?, ho]
      rfl
  · rw [Word.low_of_opcode hj]
    simp only [Format.fields, Instruction.operation?, JType.operation?, hj]
    rfl
  · rw [Word.low_of_opcode hfence]
    rfl

/-! ## Words that name the same operation -/

/--
The bits that are operands whatever the operation: the register fields, of
which the system group keeps the second source for its immediate, and the
ordering bits of the atomics.
-/
def Word.operandBits (w : Word) : Word :=
  if w.extractLsb' 0 7 = 0b1110011 then 0x000F8F80
  else if w.extractLsb' 0 7 = 0b0101111 then 0x07FF8F80
  else 0x01FF8F80

theorem Word.operation?_congr {w v : Word} (h : (w ^^^ v).Within w.operandBits) :
    w.operation? = v.operation? := by
  have hmost : w.operandBits.Within 0x07FF8F80 := by
    unfold operandBits
    split_ifs <;> decide
  have hfield {lo n : Nat} (hclear : (0x07FF8F80 : Word).extractLsb' lo n = 0#n) :
      w.extractLsb' lo n = v.extractLsb' lo n :=
    extractLsb'_eq_of_within (h.trans hmost) hclear
  have hlow : w.extractLsb' 0 7 = v.extractLsb' 0 7 := hfield rfl
  have hfunct3 : w.funct3 = v.funct3 := congrArg (BitVec.setWidth 8) (hfield rfl)
  have hrest : w.extractLsb' 27 5 = v.extractLsb' 27 5 := hfield rfl
  unfold operation?
  rw [← hlow]
  split
  case h_1 ho =>
    have hupper : w.extractLsb' 25 7 = v.extractLsb' 25 7 :=
      extractLsb'_eq_of_within h (by rw [operandBits, ho]; rfl)
    rw [funct7, funct7, hupper, hfunct3]
  case h_2 ho => rw [hfunct3, hrest]
  case h_3 ho =>
    have hupper : w.extractLsb' 25 7 = v.extractLsb' 25 7 :=
      extractLsb'_eq_of_within h (by rw [operandBits, ho]; rfl)
    rw [hfunct3, hupper]
  case h_6 ho =>
    have hwhole : w.extractLsb' 20 12 = v.extractLsb' 20 12 :=
      extractLsb'_eq_of_within h (by rw [operandBits, ho]; rfl)
    rw [hfunct3, hwhole]
  all_goals simp only [SType.operation?, BType.operation?, FenceType.operation?, hfunct3]

/-! ## The ordering bits of the atomics -/

theorem Instruction.eq_of_decode_amo {w : Word} {i : Instruction} (ho : w.opcode = Opcode.amo)
    (h : Instruction.decode w = .ok i) :
    i = .r ⟨w.opcode, w.rd, w.funct3, w.rs1, w.rs2, w.funct7⟩ := by
  obtain ⟨f, hf, rfl⟩ := decode_eq_ok_iff.mp h
  rw [ho] at hf
  cases hf
  rfl

namespace Machine

variable {β : Type} [Bus β]

theorem execute_reg_congr (m : Machine β) {x y : RType} (hop : x.operation? = y.operation?)
    (hopcode : x.opcode = y.opcode) (hrd : x.rd = y.rd) (hfunct3 : x.funct3 = y.funct3)
    (hrs1 : x.rs1 = y.rs1) (hrs2 : x.rs2 = y.rs2) : m.execute (.r x) = m.execute (.r y) := by
  have heffect : m.executeReg x = m.executeReg y := by
    funext op
    simp only [executeReg, hrd, hrs1, hrs2]
  have hunknown : (Instruction.r x).unknownOperation = (Instruction.r y).unknownOperation := by
    simp only [Instruction.unknownOperation, Instruction.format, Instruction.opcode,
      Instruction.funct3, hopcode, hfunct3]
  simp only [execute, execute?, hop, heffect, hunknown]

theorem execute_of_ordering (m : Machine β) {w v : Word} {i j : Instruction}
    (ho : w.extractLsb' 0 7 = 0b0101111) (h : (w ^^^ v).Within 0x06000000)
    (hi : Instruction.decode w = .ok i) (hj : Instruction.decode v = .ok j) :
    m.execute i = m.execute j := by
  have hfield {lo n : Nat} (hclear : (0x06000000 : Word).extractLsb' lo n = 0#n) :
      w.extractLsb' lo n = v.extractLsb' lo n :=
    Word.extractLsb'_eq_of_within h hclear
  have hopcode : w.opcode = v.opcode := congrArg (BitVec.setWidth 8) (hfield rfl)
  have hfunct3 : w.funct3 = v.funct3 := congrArg (BitVec.setWidth 8) (hfield rfl)
  have hamo : w.opcode = Opcode.amo := congrArg (BitVec.setWidth 8) ho
  have hfunct5 : w.funct7 >>> 2 = v.funct7 >>> 2 := by
    rw [w.funct7_shift, v.funct7_shift, hfield rfl]
  rw [Instruction.eq_of_decode_amo hamo hi, Instruction.eq_of_decode_amo (hopcode ▸ hamo) hj]
  refine m.execute_reg_congr ?_ hopcode (hfield rfl) hfunct3 (hfield rfl) (hfield rfl)
  rw [RType.operation?_amo _ hamo, RType.operation?_amo _ (hopcode ▸ hamo)]
  simp only [RType.funct5, hfunct3, hfunct5]

end Machine

/-! ## The grammar -/

theorem Instruction.operation_eq_ok_iff {i : Instruction} {op : Operation} :
    i.operation = .ok op ↔ i.operation? = some op := by
  unfold operation
  cases i.operation? <;> simp

theorem Instruction.operation_eq_error_iff {i : Instruction} :
    i.operation = .error i.unknownOperation ↔ i.operation? = none := by
  unfold operation
  cases i.operation? <;> simp

/-- Whether the word decodes to an instruction that is the operation. -/
def Word.Names (w : Word) (op : Operation) : Prop :=
  ∃ i, Instruction.decode w = .ok i ∧ i.operation = .ok op

theorem Operation.opcode_mem (op : Operation) : op.encoding.opcode ∈ Encoding.opcodes := by
  have hall : ∀ op ∈ all, op.encoding.opcode ∈ Encoding.opcodes := by decide
  exact hall op (mem_all op)

theorem Word.names_iff {w : Word} {op : Operation} : w.Names op ↔ w.operation? = some op := by
  constructor
  · rintro ⟨i, hi, hop⟩
    rw [← Instruction.operation?_of_decode hi]
    exact Instruction.operation_eq_ok_iff.mp hop
  · intro hop
    have hsupported : w.extractLsb' 0 7 ∈ Encoding.opcodes := by
      rw [(matches_of_operation? hop).1]
      exact op.opcode_mem
    obtain ⟨i, hi⟩ := (Instruction.decode_isOk_iff w).mpr hsupported
    rw [← Instruction.operation?_of_decode hi] at hop
    exact ⟨i, hi, Instruction.operation_eq_ok_iff.mpr hop⟩

/--
Decoding refuses the words whose low seven bits are no supported opcode. Of the
others each names the one operation that fixes bits as it has them, or none. The
operations are those of the documented mnemonics. Operand bits do not change the
operation of a word, nor the ordering bits of an atomic what it does.
-/
theorem Instruction.decoder_accepts_grammar :
    (∀ w : Word, Instruction.decode w = .error (.unsupportedOpcode w w.opcode)
      ↔ w.extractLsb' 0 7 ∉ Encoding.opcodes)
      ∧ (∀ w : Word, w.extractLsb' 0 7 ∈ Encoding.opcodes →
        ∃ i, Instruction.decode w = .ok i
          ∧ (∀ op : Operation, i.operation = .ok op ↔ op.encoding.Matches w)
          ∧ (i.operation = .error i.unknownOperation
            ↔ ∀ op : Operation, ¬ op.encoding.Matches w))
      ∧ (∀ name, name ∈ Operation.mnemonics ↔ ∃ op : Operation, op.mnemonic = name)
      ∧ Function.Injective Operation.mnemonic
      ∧ (∀ (w : Word) (a b : Operation), a.encoding.Matches w → b.encoding.Matches w → a = b)
      ∧ (∀ w v : Word, (w ^^^ v).Within w.operandBits → ∀ op, w.Names op ↔ v.Names op)
      ∧ ∀ (w v : Word) (i j : Instruction), w.extractLsb' 0 7 = 0b0101111 →
        (w ^^^ v).Within 0x06000000 → Instruction.decode w = .ok i →
        Instruction.decode v = .ok j →
        ∀ (β : Type) [Bus β] (m : Machine β), m.execute i = m.execute j := by
  refine ⟨decode_eq_unsupported_iff, fun w hsupported => ?_, Operation.mem_mnemonics_iff,
    Operation.mnemonic_injective, fun w a b ha hb => ?_, fun w v hwithin op => ?_,
    fun w v i j ho hwithin hi hj β _ m => m.execute_of_ordering ho hwithin hi hj⟩
  · obtain ⟨i, hi⟩ := (decode_isOk_iff w).mpr hsupported
    have hoperation := operation?_of_decode hi
    refine ⟨i, hi, fun op => ?_, ?_⟩
    · rw [operation_eq_ok_iff, hoperation, Word.operation?_eq_some_iff]
    · rw [operation_eq_error_iff, hoperation, Option.eq_none_iff_forall_ne_some]
      simp only [ne_eq, Word.operation?_eq_some_iff]
  · have hnamed := Word.operation?_of_matches ha
    rw [Word.operation?_of_matches hb] at hnamed
    exact (Option.some.inj hnamed).symm
  · rw [Word.names_iff, Word.names_iff, Word.operation?_congr hwithin]

/--
An atomic addition, also with other registers and both ordering bits set, which
change nothing about what it does.
-/
theorem Instruction.decoder_accepts_grammar_amoadd :
    (∃ i, Instruction.decode 0x0062A3AF = .ok i ∧ i.operation = .ok (.reg (.amo .add)))
      ∧ Word.Names 0x06F0A1AF (.reg (.amo .add))
      ∧ ∀ m : Machine Ram, m.execute (.r ⟨Opcode.amo, 7, 2, 5, 6, 0⟩)
        = m.execute (.r ⟨Opcode.amo, 7, 2, 5, 6, 3⟩) := by
  obtain ⟨-, haccepted, -, -, -, hsame, hordering⟩ := decoder_accepts_grammar
  obtain ⟨i, hi, hoperation, -⟩ := haccepted 0x0062A3AF (by decide)
  have hnamed : i.operation = .ok (.reg (.amo .add)) := (hoperation _).mpr (by decide)
  refine ⟨⟨i, hi, hnamed⟩, ?_, fun m => ?_⟩
  · exact (hsame 0x0062A3AF 0x06F0A1AF (by decide) _).mp ⟨i, hi, hnamed⟩
  · exact hordering 0x0062A3AF 0x0662A3AF _ _ (by decide) (by decide) rfl rfl Ram m

end Rv32
