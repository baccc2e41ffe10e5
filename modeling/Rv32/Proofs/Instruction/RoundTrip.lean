import Rv32.Instruction.Resolution
import Rv32.Proofs.Instruction.Place
import Mathlib.Tactic.SplitIfs

/-! # Encoding and decoding are inverse

Each direction goes field by field. From a word, the fields join again at their
places, for every format; from an instruction, each field is read back at its
place, and is the one that was put there if it fits.
-/

namespace Rv32

open Word (place)

/-! ## From a word to an instruction and back -/

theorem Format.encode_fields (f : Format) (w : Word) : (f.fields w).encode = w := by
  -- The fields stand in falling order, so each joins the ones above it.
  cases f with
  | r =>
    simp (disch := decide) only [Format.fields, Instruction.encode, RType.encode, Word.opcode,
      Word.rd, Word.funct3, Word.rs1, Word.rs2, Word.funct7, Word.place_setWidth,
      Word.place_or_place, BitVec.extractLsb'_eq_self, Word.place_zero]
  | i =>
    simp (disch := decide) only [Format.fields, Instruction.encode, IType.encode, IType.rawImm,
      Word.opcode, Word.rd, Word.funct3, Word.rs1, Word.immI, Word.setWidth_signExtend,
      Word.place_setWidth, Word.place_or_place, BitVec.extractLsb'_eq_self, Word.place_zero]
  | s =>
    simp (disch := decide) only [Format.fields, Instruction.encode, SType.encode, Word.opcode,
      Word.funct3, Word.rs1, Word.rs2, Word.immS, Word.place_setWidth,
      Word.extractLsb'_signExtend, BitVec.extractLsb'_append_eq_of_le,
      BitVec.extractLsb'_append_eq_of_add_le, BitVec.extractLsb'_eq_self, Nat.reduceSub,
      Word.place_or_place, Word.place_zero]
  | b =>
    simp (disch := decide) only [Format.fields, Instruction.encode, BType.encode, Word.opcode,
      Word.funct3, Word.rs1, Word.rs2, Word.immB, Word.place_setWidth,
      Word.extractLsb'_signExtend, BitVec.extractLsb'_append_eq_of_le,
      BitVec.extractLsb'_append_eq_of_add_le, BitVec.extractLsb'_eq_self, Nat.reduceSub,
      Word.place_or_place, Word.place_zero]
  | u =>
    simp (disch := decide) only [Format.fields, Instruction.encode, UType.encode, Word.opcode,
      Word.rd, Word.immU, Word.place_setWidth, BitVec.extractLsb'_append_eq_of_le,
      BitVec.extractLsb'_eq_self, Nat.reduceSub, Word.place_or_place, Word.place_zero]
  | j =>
    simp (disch := decide) only [Format.fields, Instruction.encode, JType.encode, Word.opcode,
      Word.rd, Word.immJ, Word.place_setWidth, Word.extractLsb'_signExtend,
      BitVec.extractLsb'_append_eq_of_le, BitVec.extractLsb'_append_eq_of_add_le,
      BitVec.extractLsb'_eq_self, Nat.reduceSub, Word.place_or_place, Word.place_zero]
  | fence =>
    simp (disch := decide) only [Format.fields, Instruction.encode, FenceType.encode,
      Word.opcode, Word.rd, Word.funct3, Word.rs1, AccessSet.bits_ofBits, Word.place_setWidth,
      BitVec.setWidth_setWidth_of_le, BitVec.setWidth_eq, Word.place_or_place,
      BitVec.extractLsb'_eq_self, Word.place_zero]

/-! ## The instructions of words fit -/

theorem Format.opcode_fields (f : Format) (w : Word) : (f.fields w).opcode = w.opcode := by
  cases f <;> rfl

theorem Instruction.decode_eq_ok_iff {w : Word} {i : Instruction} :
    Instruction.decode w = .ok i ↔ ∃ f, Format.ofOpcode? w.opcode = some f ∧ f.fields w = i := by
  unfold Instruction.decode
  cases Format.ofOpcode? w.opcode with
  | none => simp
  | some f => simp

theorem Format.wellFormed_fields {f : Format} {w : Word}
    (hf : Format.ofOpcode? w.opcode = some f) : (f.fields w).WellFormed := by
  have hfunct3 : w.funct3.toNat < 8 := Word.toNat_setWidth_lt (w.extractLsb' 12 3) 8
  cases f with
  | r => exact ⟨hf, hfunct3, Word.toNat_setWidth_lt (w.extractLsb' 25 7) 8⟩
  | i =>
    obtain ⟨hlo, hhi⟩ := Word.toInt_signExtend_bounds (w.extractLsb' 20 12) (by decide)
    exact ⟨hf, hfunct3, hlo, Int.le_of_lt_add_one hhi⟩
  | s =>
    obtain ⟨hlo, hhi⟩ :=
      Word.toInt_signExtend_bounds (w.extractLsb' 25 7 ++ w.extractLsb' 7 5) (by decide)
    exact ⟨hf, hfunct3, hlo, Int.le_of_lt_add_one hhi⟩
  | b =>
    exact ⟨hf, hfunct3, Word.even_offset (w.extractLsb' 31 1 ++ w.extractLsb' 7 1
      ++ w.extractLsb' 25 6 ++ w.extractLsb' 8 4) (by decide) (by decide)⟩
  | u =>
    have hmod : (w.extractLsb' 12 20 ++ 0#12).toNat % 4096 = 0 := by
      rw [Word.toNat_append_zero]
      exact Nat.mul_mod_left _ _
    exact ⟨hf, hmod⟩
  | j =>
    exact ⟨hf, Word.even_offset (w.extractLsb' 31 1 ++ w.extractLsb' 12 8 ++ w.extractLsb' 20 1
      ++ w.extractLsb' 21 10) (by decide) (by decide)⟩
  | fence => exact ⟨hf, hfunct3, Word.toNat_setWidth_lt (w.extractLsb' 28 4) 8⟩

/-! ## From an instruction to a word and back -/

theorem Format.opcode_lt_of_ofOpcode? {o : Opcode} {f : Format}
    (h : Format.ofOpcode? o = some f) : o.toNat < 2 ^ 7 := by
  unfold Format.ofOpcode? at h
  split_ifs at h with hr hi hs hb hu hj hfence
  · rcases hr with rfl | rfl <;> decide
  · rcases hi with rfl | rfl | rfl | rfl <;> decide
  · rw [hs]
    decide
  · rw [hb]
    decide
  · rcases hu with rfl | rfl <;> decide
  · rw [hj]
    decide
  · rw [hfence]
    decide

theorem Instruction.format_of_wellFormed {i : Instruction} (h : i.WellFormed) :
    Format.ofOpcode? i.opcode = some i.format := by
  cases i <;> exact h.1

theorem Instruction.exists_opcode {i : Instruction} (h : i.WellFormed) :
    ∃ o : BitVec 7, o.setWidth 8 = i.opcode :=
  Word.exists_setWidth_of_lt (Format.opcode_lt_of_ofOpcode? (format_of_wellFormed h))

theorem Instruction.fields_encode {i : Instruction} (h : i.WellFormed) :
    i.format.fields i.encode = i := by
  have hopcode := exists_opcode h
  -- A field that fits is the extension of one as wide as its place, and so reaches no other place.
  cases i with
  | r x =>
    obtain ⟨opcode, rd, funct3, rs1, rs2, funct7⟩ := x
    obtain ⟨-, hfunct3, hfunct7⟩ := h
    obtain ⟨o, rfl⟩ := hopcode
    obtain ⟨m, rfl⟩ := Word.exists_setWidth_of_lt (n := 3) hfunct3
    obtain ⟨k, rfl⟩ := Word.exists_setWidth_of_lt (n := 7) hfunct7
    simp (disch := decide) only [Instruction.format, Instruction.encode, Format.fields,
      RType.encode, Word.opcode, Word.rd, Word.funct3, Word.rs1, Word.rs2, Word.funct7,
      Word.place_setWidth, BitVec.extractLsb'_or, Word.extractLsb'_place,
      Word.extractLsb'_place_of_le, Word.extractLsb'_place_of_add_le, BitVec.zero_or,
      BitVec.or_zero]
  | i x =>
    obtain ⟨opcode, rd, funct3, rs1, imm⟩ := x
    obtain ⟨-, hfunct3, hlo, hhi⟩ := h
    obtain ⟨o, rfl⟩ := hopcode
    obtain ⟨m, rfl⟩ := Word.exists_setWidth_of_lt (n := 3) hfunct3
    obtain ⟨v, rfl⟩ : ∃ v : BitVec 12, v.signExtend 32 = imm :=
      ⟨_, Word.signExtend_setWidth_of_bounds (by decide) (by decide) hlo
        (Int.lt_of_le_of_lt hhi (by decide))⟩
    simp (disch := decide) only [Instruction.format, Instruction.encode, Format.fields,
      IType.encode, IType.rawImm, Word.opcode, Word.rd, Word.funct3, Word.rs1, Word.immI,
      Word.place_setWidth, BitVec.extractLsb'_or, Word.extractLsb'_place,
      Word.extractLsb'_place_of_le, Word.extractLsb'_place_of_add_le, BitVec.zero_or,
      BitVec.or_zero, Word.setWidth_signExtend]
  | s x =>
    obtain ⟨opcode, funct3, rs1, rs2, imm⟩ := x
    obtain ⟨-, hfunct3, hlo, hhi⟩ := h
    obtain ⟨o, rfl⟩ := hopcode
    obtain ⟨m, rfl⟩ := Word.exists_setWidth_of_lt (n := 3) hfunct3
    obtain ⟨v, rfl⟩ : ∃ v : BitVec 12, v.signExtend 32 = imm :=
      ⟨_, Word.signExtend_setWidth_of_bounds (by decide) (by decide) hlo
        (Int.lt_of_le_of_lt hhi (by decide))⟩
    simp (disch := decide) only [Instruction.format, Instruction.encode, Format.fields,
      SType.encode, Word.opcode, Word.funct3, Word.rs1, Word.rs2, Word.immS,
      Word.place_setWidth, BitVec.extractLsb'_or, Word.extractLsb'_place,
      Word.extractLsb'_place_of_le, Word.extractLsb'_place_of_add_le, BitVec.zero_or,
      BitVec.or_zero, Word.extractLsb'_signExtend, Word.append_extractLsb',
      BitVec.extractLsb'_eq_self]
  | b x =>
    obtain ⟨opcode, funct3, rs1, rs2, imm⟩ := x
    obtain ⟨-, hfunct3, hlo, hhi, heven⟩ := h
    obtain ⟨o, rfl⟩ := hopcode
    obtain ⟨m, rfl⟩ := Word.exists_setWidth_of_lt (n := 3) hfunct3
    obtain ⟨v, rfl⟩ : ∃ v : BitVec 12, (v ++ 0#1).signExtend 32 = imm :=
      Word.exists_even (by decide) hlo (Int.lt_of_le_of_lt hhi (by decide)) heven
    simp (disch := decide) only [Instruction.format, Instruction.encode, Format.fields,
      BType.encode, Word.opcode, Word.funct3, Word.rs1, Word.rs2, Word.immB,
      Word.place_setWidth, BitVec.extractLsb'_or, Word.extractLsb'_place,
      Word.extractLsb'_place_of_le, Word.extractLsb'_place_of_add_le, BitVec.zero_or,
      BitVec.or_zero, Word.extractLsb'_signExtend, BitVec.extractLsb'_append_eq_of_le,
      Nat.reduceSub, Word.append_extractLsb', BitVec.extractLsb'_eq_self]
  | u x =>
    obtain ⟨opcode, rd, imm⟩ := x
    obtain ⟨-, hclear⟩ := h
    obtain ⟨o, rfl⟩ := hopcode
    obtain ⟨v, rfl⟩ : ∃ v : BitVec 20, v ++ 0#12 = imm := Word.exists_append_zero hclear
    simp (disch := decide) only [Instruction.format, Instruction.encode, Format.fields,
      UType.encode, Word.opcode, Word.rd, Word.immU, Word.place_setWidth,
      BitVec.extractLsb'_or, Word.extractLsb'_place, Word.extractLsb'_place_of_le,
      Word.extractLsb'_place_of_add_le, BitVec.zero_or, BitVec.or_zero,
      BitVec.extractLsb'_append_eq_of_le, Nat.reduceSub, BitVec.extractLsb'_eq_self]
  | j x =>
    obtain ⟨opcode, rd, imm⟩ := x
    obtain ⟨-, hlo, hhi, heven⟩ := h
    obtain ⟨o, rfl⟩ := hopcode
    obtain ⟨v, rfl⟩ : ∃ v : BitVec 20, (v ++ 0#1).signExtend 32 = imm :=
      Word.exists_even (by decide) hlo (Int.lt_of_le_of_lt hhi (by decide)) heven
    simp (disch := decide) only [Instruction.format, Instruction.encode, Format.fields,
      JType.encode, Word.opcode, Word.rd, Word.immJ, Word.place_setWidth,
      BitVec.extractLsb'_or, Word.extractLsb'_place, Word.extractLsb'_place_of_le,
      Word.extractLsb'_place_of_add_le, BitVec.zero_or, BitVec.or_zero,
      Word.extractLsb'_signExtend, BitVec.extractLsb'_append_eq_of_le, Nat.reduceSub,
      Word.append_extractLsb', BitVec.extractLsb'_eq_self]
  | fence x =>
    obtain ⟨opcode, rd, funct3, rs1, fm, predecessor, successor⟩ := x
    obtain ⟨-, hfunct3, hfm⟩ := h
    obtain ⟨o, rfl⟩ := hopcode
    obtain ⟨m, rfl⟩ := Word.exists_setWidth_of_lt (n := 3) hfunct3
    obtain ⟨k, rfl⟩ := Word.exists_setWidth_of_lt (n := 4) hfm
    simp (disch := decide) only [Instruction.format, Instruction.encode, Format.fields,
      FenceType.encode, Word.opcode, Word.rd, Word.funct3, Word.rs1, Word.place_setWidth,
      BitVec.setWidth_setWidth_of_le, BitVec.setWidth_eq, BitVec.extractLsb'_or,
      Word.extractLsb'_place, Word.extractLsb'_place_of_le, Word.extractLsb'_place_of_add_le,
      BitVec.zero_or, BitVec.or_zero, AccessSet.ofBits_bits]

theorem Instruction.decode_encode {i : Instruction} (h : i.WellFormed) :
    Instruction.decode i.encode = .ok i := by
  have hfields := fields_encode h
  have hopcode : i.encode.opcode = i.opcode := by
    rw [← Format.opcode_fields i.format, hfields]
  exact decode_eq_ok_iff.mpr ⟨i.format, hopcode ▸ format_of_wellFormed h, hfields⟩

theorem Instruction.encode_of_decode {w : Word} {i : Instruction}
    (h : Instruction.decode w = .ok i) : i.encode = w := by
  obtain ⟨f, -, rfl⟩ := decode_eq_ok_iff.mp h
  exact Format.encode_fields f w

theorem Instruction.wellFormed_of_decode {w : Word} {i : Instruction}
    (h : Instruction.decode w = .ok i) : i.WellFormed := by
  obtain ⟨f, hf, rfl⟩ := decode_eq_ok_iff.mp h
  exact Format.wellFormed_fields hf

/--
A word that decodes is the encoding of what it decodes to, and the instructions
that their encoding decodes to are those of which every field fits.
-/
theorem Instruction.decode_encode_inverse :
    (∀ (w : Word) (i : Instruction), Instruction.decode w = .ok i → i.encode = w)
      ∧ ∀ i : Instruction, Instruction.decode i.encode = .ok i ↔ i.WellFormed := by
  refine ⟨fun w i => encode_of_decode, fun i => ?_⟩
  constructor
  · exact wellFormed_of_decode
  · exact decode_encode

/--
A branch four bytes back, whose offset has all its sign bits set, and the same
branch with an odd offset, which no word encodes.
-/
theorem Instruction.decode_encode_inverse_backwards :
    Instruction.decode 0xFE209EE3 = .ok (.b ⟨Opcode.branch, 1, 1, 2, -4⟩)
      ∧ (Instruction.b ⟨Opcode.branch, 1, 1, 2, -4⟩).encode = 0xFE209EE3
      ∧ Instruction.decode (Instruction.b ⟨Opcode.branch, 1, 1, 2, -3⟩).encode
          ≠ .ok (.b ⟨Opcode.branch, 1, 1, 2, -3⟩) := by
  have hdecode : Instruction.decode 0xFE209EE3 = .ok (.b ⟨Opcode.branch, 1, 1, 2, -4⟩) := rfl
  refine ⟨hdecode, decode_encode_inverse.1 _ _ hdecode, fun hodd => ?_⟩
  have heven := ((decode_encode_inverse.2 _).mp hodd).2.2.2.2
  exact absurd heven (by decide)

end Rv32
