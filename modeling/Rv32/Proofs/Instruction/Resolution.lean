import Rv32.Instruction.Resolution
import Rv32.Proofs.Instruction.Encodings
import Rv32.Proofs.Instruction.Place
import Mathlib.Tactic.SplitIfs

/-! # The operation of a word

A word names an operation exactly if its bits are those that the encoding of the
operation fixes. One direction reads each table of function fields backwards,
and finds the encoding in the row; the other runs through the operations.
-/

namespace Rv32

/-! ## Reading the tables backwards -/

theorem RegOp.encoding_of_ofFunct? {k f : Byte} {op : RegOp} (h : ofFunct? k f = some op) :
    op.encoding = ⟨0b0110011, some (f.setWidth 3), .funct7 (k.setWidth 7)⟩ := by
  unfold ofFunct? at h
  split at h <;> cases h <;> rfl

theorem RegOp.encoding_of_ofAtomic? {k : Byte} {op : RegOp} (h : ofAtomic? k = some op) :
    op.encoding = ⟨0b0101111, some 0b010, .funct5 (k.setWidth 5)⟩ := by
  unfold ofAtomic? at h
  split at h <;> cases h <;> rfl

theorem ImmArithOp.encoding_of_ofFunct? {f : Byte} {upper : BitVec 7} {op : ImmArithOp}
    (h : ofFunct? f upper = some op) :
    ∃ s, (ImmOp.arith op).encoding = ⟨0b0010011, some (f.setWidth 3), s⟩
      ∧ (s = .free ∨ s = .funct7 upper) := by
  unfold ofFunct? at h
  split at h
  case h_7 =>
    split_ifs at h with hsll
    cases h
    exact ⟨_, rfl, .inr (hsll ▸ rfl)⟩
  case h_8 =>
    split_ifs at h with hsrl hsra
    · cases h
      exact ⟨_, rfl, .inr (hsrl ▸ rfl)⟩
    · cases h
      exact ⟨_, rfl, .inr (hsra ▸ rfl)⟩
  all_goals
    cases h
  all_goals exact ⟨_, rfl, .inl rfl⟩

theorem LoadOp.encoding_of_ofFunct? {f : Byte} {op : LoadOp} (h : ofFunct? f = some op) :
    (ImmOp.load op).encoding = ⟨0b0000011, some (f.setWidth 3), .free⟩ := by
  unfold ofFunct? at h
  split at h <;> cases h <;> rfl

theorem ImmOp.encoding_of_ofRawImm? {raw : BitVec 12} {op : ImmOp}
    (h : ofRawImm? raw = some op) :
    ∃ s, op.encoding = ⟨0b1110011, some 0b000, s⟩
      ∧ (s = .funct12 raw ∨ s = .funct7 (raw.extractLsb' 5 7)) := by
  unfold ofRawImm? at h
  split at h
  case h_6 =>
    split_ifs at h with hfence
    cases h
    exact ⟨_, rfl, .inr (hfence ▸ rfl)⟩
  all_goals
    cases h
    exact ⟨_, rfl, .inl rfl⟩

theorem ImmOp.encoding_of_ofSystem? {f : Byte} {raw : BitVec 12} {op : ImmOp}
    (h : ofSystem? f raw = some op) :
    ∃ s, op.encoding = ⟨0b1110011, some (f.setWidth 3), s⟩
      ∧ (s = .free ∨ s = .funct12 raw ∨ s = .funct7 (raw.extractLsb' 5 7)) := by
  unfold ofSystem? at h
  split at h
  case h_1 =>
    obtain ⟨s, hs, hsel⟩ := encoding_of_ofRawImm? h
    exact ⟨s, hs, .inr hsel⟩
  all_goals
    cases h
  all_goals exact ⟨_, rfl, .inl rfl⟩

theorem ImmOp.ofRawImm?_of_sfenceVma {raw : BitVec 12} (h : raw.extractLsb' 5 7 = 0b0001001) :
    ofRawImm? raw = some .sfenceVma := by
  unfold ofRawImm?
  split
  case h_6 => exact if_pos h
  all_goals exact absurd h (by decide)

theorem StoreOp.encoding_of_operation? {x : SType} {op : StoreOp} (h : x.operation? = some op) :
    (Operation.store op).encoding = ⟨0b0100011, some (x.funct3.setWidth 3), .free⟩ := by
  unfold SType.operation? at h
  split at h <;> cases h <;> rename_i hfunct3 <;> rw [hfunct3] <;> rfl

theorem BranchOp.encoding_of_operation? {x : BType} {op : BranchOp}
    (h : x.operation? = some op) :
    (Operation.branch op).encoding = ⟨0b1100011, some (x.funct3.setWidth 3), .free⟩ := by
  unfold BType.operation? at h
  split at h <;> cases h <;> rename_i hfunct3 <;> rw [hfunct3] <;> rfl

theorem FenceOp.encoding_of_operation? {x : FenceType} {op : FenceOp}
    (h : x.operation? = some op) :
    (Operation.fence op).encoding = ⟨0b0001111, some (x.funct3.setWidth 3), .free⟩ := by
  unfold FenceType.operation? at h
  split at h <;> cases h <;> rename_i hfunct3 <;> rw [hfunct3] <;> rfl

/-! ## The operation of a word -/

namespace Word

theorem setWidth_funct3 (w : Word) : w.funct3.setWidth 3 = w.extractLsb' 12 3 :=
  setWidth_setWidth_self _ (by decide)

theorem setWidth_funct7 (w : Word) : w.funct7.setWidth 7 = w.extractLsb' 25 7 :=
  setWidth_setWidth_self _ (by decide)

theorem funct7_shift (w : Word) : w.funct7 >>> 2 = (w.extractLsb' 27 5).setWidth 8 := by
  apply BitVec.eq_of_getLsbD_eq
  intro i hi
  have hsum : 25 + (2 + i) = 27 + i := by omega
  rw [BitVec.getLsbD_ushiftRight, funct7, BitVec.getLsbD_setWidth, BitVec.getLsbD_setWidth,
    BitVec.getLsbD_extractLsb', BitVec.getLsbD_extractLsb', hsum]
  by_cases hfive : i < 5
  · have hseven : 2 + i < 7 := by omega
    have height : 2 + i < 8 := by omega
    simp only [hi, hfive, hseven, height, decide_true, Bool.true_and]
  · have hseven : ¬ 2 + i < 7 := by omega
    simp only [hfive, hseven, decide_false, Bool.false_and, Bool.and_false]

theorem extractLsb'_funct12 (w : Word) :
    (w.extractLsb' 20 12).extractLsb' 5 7 = w.extractLsb' 25 7 :=
  extractLsb'_extractLsb' w (by decide)

/-- The operation that a word names, read off the bits of the word. -/
def operation? (w : Word) : Option Operation :=
  match w.extractLsb' 0 7 with
  | 0b0110011 => (RegOp.ofFunct? w.funct7 w.funct3).map .reg
  | 0b0101111 =>
      (if w.funct3 = 2 then RegOp.ofAtomic? ((w.extractLsb' 27 5).setWidth 8) else none).map .reg
  | 0b0010011 =>
      ((ImmArithOp.ofFunct? w.funct3 (w.extractLsb' 25 7)).map ImmOp.arith).map .imm
  | 0b0000011 => ((LoadOp.ofFunct? w.funct3).map ImmOp.load).map .imm
  | 0b1100111 => (if w.funct3 = 0 then some ImmOp.jalr else none).map .imm
  | 0b1110011 => (ImmOp.ofSystem? w.funct3 (w.extractLsb' 20 12)).map .imm
  | 0b0100011 =>
      (SType.operation? ⟨w.opcode, w.funct3, w.rs1, w.rs2, w.immS⟩).map .store
  | 0b1100011 =>
      (BType.operation? ⟨w.opcode, w.funct3, w.rs1, w.rs2, w.immB⟩).map .branch
  | 0b1101111 => some (.jump .jal)
  | 0b0110111 => some (.upper .lui)
  | 0b0010111 => some (.upper .auipc)
  | 0b0001111 =>
      (FenceType.operation? ⟨w.opcode, w.rd, w.funct3, w.rs1, (w.extractLsb' 28 4).setWidth 8,
        .ofBits (w.extractLsb' 24 4), .ofBits (w.extractLsb' 20 4)⟩).map .fence
  | _ => none

end Word

/-! ## Every operation that a word names -/

namespace Encoding

theorem matches_of_eq {e : Encoding} {w : Word} {o : BitVec 7} {m : Option (BitVec 3)}
    {s : Selector} (he : e = ⟨o, m, s⟩) (ho : w.extractLsb' 0 7 = o)
    (hm : m = none ∨ m = some (w.extractLsb' 12 3)) (hs : s.Matches w) : e.Matches w := by
  subst he
  refine ⟨ho, ?_, hs⟩
  rintro bits hbits
  rcases hm with rfl | rfl
  · cases hbits
  · cases hbits
    rfl

end Encoding

open Encoding (matches_of_eq)

theorem Word.matches_of_operation? {w : Word} {op : Operation} (h : w.operation? = some op) :
    op.encoding.Matches w := by
  have hm : some (w.funct3.setWidth 3) = none
      ∨ some (w.funct3.setWidth 3) = some (w.extractLsb' 12 3) :=
    .inr (congrArg some w.setWidth_funct3)
  -- One case for each opcode, in the order of the definition.
  unfold Word.operation? at h
  split at h
  case h_1 ho =>
    obtain ⟨op, hop, rfl⟩ := Option.map_eq_some_iff.mp h
    exact matches_of_eq (RegOp.encoding_of_ofFunct? hop) ho hm w.setWidth_funct7.symm
  case h_2 ho =>
    obtain ⟨op, hop, rfl⟩ := Option.map_eq_some_iff.mp h
    split_ifs at hop with hfunct3
    rw [hfunct3] at hm
    have hs : ((w.extractLsb' 27 5).setWidth 8).setWidth 5 = w.extractLsb' 27 5 :=
      Word.setWidth_setWidth_self _ (by decide)
    exact matches_of_eq (RegOp.encoding_of_ofAtomic? hop) ho hm hs.symm
  case h_3 ho =>
    obtain ⟨_, himm, rfl⟩ := Option.map_eq_some_iff.mp h
    obtain ⟨op, hop, rfl⟩ := Option.map_eq_some_iff.mp himm
    obtain ⟨s, he, rfl | rfl⟩ := ImmArithOp.encoding_of_ofFunct? hop
    · exact matches_of_eq he ho hm trivial
    · exact matches_of_eq he ho hm rfl
  case h_4 ho =>
    obtain ⟨_, himm, rfl⟩ := Option.map_eq_some_iff.mp h
    obtain ⟨op, hop, rfl⟩ := Option.map_eq_some_iff.mp himm
    exact matches_of_eq (LoadOp.encoding_of_ofFunct? hop) ho hm trivial
  case h_5 ho =>
    obtain ⟨op, hop, rfl⟩ := Option.map_eq_some_iff.mp h
    split_ifs at hop with hfunct3
    cases hop
    rw [hfunct3] at hm
    exact matches_of_eq rfl ho hm trivial
  case h_6 ho =>
    obtain ⟨op, hop, rfl⟩ := Option.map_eq_some_iff.mp h
    obtain ⟨s, he, rfl | rfl | rfl⟩ := ImmOp.encoding_of_ofSystem? hop
    · exact matches_of_eq he ho hm trivial
    · exact matches_of_eq he ho hm rfl
    · exact matches_of_eq he ho hm w.extractLsb'_funct12.symm
  case h_7 ho =>
    obtain ⟨op, hop, rfl⟩ := Option.map_eq_some_iff.mp h
    exact matches_of_eq (StoreOp.encoding_of_operation? hop) ho hm trivial
  case h_8 ho =>
    obtain ⟨op, hop, rfl⟩ := Option.map_eq_some_iff.mp h
    exact matches_of_eq (BranchOp.encoding_of_operation? hop) ho hm trivial
  case h_9 ho =>
    cases h
    exact matches_of_eq rfl ho (.inl rfl) trivial
  case h_10 ho =>
    cases h
    exact matches_of_eq rfl ho (.inl rfl) trivial
  case h_11 ho =>
    cases h
    exact matches_of_eq rfl ho (.inl rfl) trivial
  case h_12 ho =>
    obtain ⟨op, hop, rfl⟩ := Option.map_eq_some_iff.mp h
    exact matches_of_eq (FenceOp.encoding_of_operation? hop) ho hm trivial
  case h_13 => cases h

/-! ## Every word whose bits are those of an operation -/

namespace Encoding.Matches

variable {e : Encoding} {w : Word}

theorem funct3_eq (h : e.Matches w) {bits : BitVec 3} (he : e.funct3 = some bits) :
    w.funct3 = bits.setWidth 8 := by
  rw [Word.funct3, h.2.1 bits he]

theorem selector (h : e.Matches w) {s : Selector} (he : e.selector = s) : s.Matches w := by
  rw [← he]
  exact h.2.2

theorem funct7_eq (h : e.Matches w) {bits : BitVec 7} (he : e.selector = .funct7 bits) :
    w.extractLsb' 25 7 = bits :=
  h.selector he

theorem funct5_eq (h : e.Matches w) {bits : BitVec 5} (he : e.selector = .funct5 bits) :
    w.extractLsb' 27 5 = bits :=
  h.selector he

theorem funct12_eq (h : e.Matches w) {bits : BitVec 12} (he : e.selector = .funct12 bits) :
    w.extractLsb' 20 12 = bits :=
  h.selector he

end Encoding.Matches

theorem Word.operation?_of_matches {w : Word} {op : Operation} (h : op.encoding.Matches w) :
    w.operation? = some op := by
  unfold Word.operation?
  rw [h.1]
  cases op with
  | reg op =>
    cases op with
    | arith op => cases op <;> rw [h.funct3_eq rfl, Word.funct7, h.funct7_eq rfl] <;> rfl
    | mulDiv op => cases op <;> rw [h.funct3_eq rfl, Word.funct7, h.funct7_eq rfl] <;> rfl
    | loadReserved => rw [h.funct3_eq rfl, h.funct5_eq rfl]; rfl
    | storeConditional => rw [h.funct3_eq rfl, h.funct5_eq rfl]; rfl
    | amo op => cases op <;> rw [h.funct3_eq rfl, h.funct5_eq rfl] <;> rfl
  | imm op =>
    cases op with
    | arith op =>
      cases op with
      | slli => rw [h.funct3_eq rfl, h.funct7_eq rfl]; rfl
      | srli => rw [h.funct3_eq rfl, h.funct7_eq rfl]; rfl
      | srai => rw [h.funct3_eq rfl, h.funct7_eq rfl]; rfl
      | _ => rw [h.funct3_eq rfl]; rfl
    | load op => cases op <;> rw [h.funct3_eq rfl] <;> rfl
    | jalr => rw [h.funct3_eq rfl]; rfl
    | csr action operand => cases action <;> cases operand <;> rw [h.funct3_eq rfl] <;> rfl
    | sfenceVma =>
      -- The one privileged operation that leaves bits of the whole immediate open.
      have hraw : (w.extractLsb' 20 12).extractLsb' 5 7 = 0b0001001 :=
        w.extractLsb'_funct12.trans (h.funct7_eq rfl)
      rw [h.funct3_eq rfl]
      exact congrArg (Option.map Operation.imm) (ImmOp.ofRawImm?_of_sfenceVma hraw)
    | _ => rw [h.funct3_eq rfl, h.funct12_eq rfl]; rfl
  | store op =>
    cases op <;> simp only [Operation.encoding, SType.operation?, h.funct3_eq rfl] <;> rfl
  | branch op =>
    cases op <;> simp only [Operation.encoding, BType.operation?, h.funct3_eq rfl] <;> rfl
  | upper op => cases op <;> rfl
  | jump op => cases op; rfl
  | fence op =>
    cases op <;> simp only [Operation.encoding, FenceType.operation?, h.funct3_eq rfl] <;> rfl

theorem Word.operation?_eq_some_iff {w : Word} {op : Operation} :
    w.operation? = some op ↔ op.encoding.Matches w :=
  ⟨matches_of_operation?, operation?_of_matches⟩

end Rv32
