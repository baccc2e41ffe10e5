import Rv32.Proofs.Instruction.RoundTrip

/-! # What immediates are as numbers

The bits of an immediate are scattered over the instruction word, differently in
every format. Here each format is given as the formula that adds up its pieces:
a piece is the number that stands between two positions of the word, it counts
with the power of two of its lowest bit in the immediate, and the top bit of the
word counts negative. The formulas know nothing of how a word is put together
again, so a piece that is swapped in both directions would not pass.
-/

namespace Rv32

namespace Word

/-- The number that bits `hi` down to `lo` of the word make up. -/
def slice (w : Word) (hi lo : Nat) : Nat :=
  w.toNat / 2 ^ lo % 2 ^ (hi + 1 - lo)

/-! ## Pieces -/

theorem slice_lt (w : Word) (hi lo : Nat) : w.slice hi lo < 2 ^ (hi + 1 - lo) :=
  Nat.mod_lt _ (Nat.two_pow_pos _)

theorem toNat_extractLsb'_eq_slice (w : Word) (lo n hi : Nat) (h : hi + 1 = lo + n) :
    (w.extractLsb' lo n).toNat = w.slice hi lo := by
  rw [BitVec.extractLsb'_toNat, Nat.shiftRight_eq_div_pow, slice, h, Nat.add_sub_cancel_left]

/-- A piece can be cut above any of its bits. -/
theorem slice_split (w : Word) (hi mid lo : Nat) (hlo : lo ≤ mid) (hhi : mid ≤ hi) :
    w.slice hi lo = 2 ^ (mid + 1 - lo) * w.slice hi (mid + 1) + w.slice mid lo := by
  have hwidth : hi + 1 - lo = (mid + 1 - lo) + (hi + 1 - (mid + 1)) := by omega
  have hplace : lo + (mid + 1 - lo) = mid + 1 := by omega
  unfold slice
  rw [hwidth, Nat.pow_add, Nat.mod_mul, Nat.div_div_eq_div_mul, ← Nat.pow_add, hplace, Nat.add_comm]

/-- In two's complement the highest bit counts negative. -/
theorem toInt_signExtend_of_split {n sign low : Nat} (v : BitVec (n + 1)) (hn : n + 1 ≤ 32)
    (hv : v.toNat = 2 ^ n * sign + low) (hlow : low < 2 ^ n) :
    (v.signExtend 32).toInt = (low : Int) - 2 ^ n * sign := by
  have hsign : sign = 0 ∨ sign = 1 := by
    have hlt := v.isLt
    rw [hv, Nat.pow_succ] at hlt
    have hmul : 2 ^ n * sign < 2 ^ n * 2 := by omega
    have hsmall := Nat.lt_of_mul_lt_mul_left hmul
    omega
  have hpower : ((2 ^ n : Nat) : Int) = 2 ^ n := by push_cast; rfl
  rw [BitVec.toInt_signExtend_of_le hn, BitVec.toInt_eq_toNat_cond, hv, Nat.pow_succ]
  rcases hsign with rfl | rfl
  · rw [if_pos (by omega)]
    omega
  · rw [if_neg (by omega)]
    omega

/-! ## The formulas -/

theorem toInt_immI (w : Word) : w.immI.toInt = (w.slice 30 20 : Int) - 2 ^ 11 * w.slice 31 31 := by
  have hvalue : (w.extractLsb' 20 12).toNat = 2 ^ 11 * w.slice 31 31 + w.slice 30 20 := by
    rw [w.toNat_extractLsb'_eq_slice 20 12 31 rfl]
    exact w.slice_split 31 30 20 (by decide) (by decide)
  exact toInt_signExtend_of_split _ (by decide) hvalue (w.slice_lt 30 20)

theorem toInt_immS (w : Word) :
    w.immS.toInt = 2 ^ 5 * (w.slice 30 25 : Int) + w.slice 11 7 - 2 ^ 11 * w.slice 31 31 := by
  have hhigh := w.slice_lt 30 25
  have hlow := w.slice_lt 11 7
  have hsign : w.slice 31 25 = 2 ^ 6 * w.slice 31 31 + w.slice 30 25 :=
    w.slice_split 31 30 25 (by decide) (by decide)
  have hvalue : (w.extractLsb' 25 7 ++ w.extractLsb' 7 5).toNat =
      2 ^ 11 * w.slice 31 31 + (2 ^ 5 * w.slice 30 25 + w.slice 11 7) := by
    rw [toNat_append, w.toNat_extractLsb'_eq_slice 25 7 31 rfl,
      w.toNat_extractLsb'_eq_slice 7 5 11 rfl, hsign]
    omega
  refine (toInt_signExtend_of_split _ (by decide) hvalue (by omega)).trans ?_
  omega

theorem toInt_immB (w : Word) :
    w.immB.toInt = 2 * (w.slice 11 8 : Int) + 2 ^ 5 * w.slice 30 25 + 2 ^ 11 * w.slice 7 7
      - 2 ^ 12 * w.slice 31 31 := by
  have hlow := w.slice_lt 11 8
  have hmiddle := w.slice_lt 30 25
  have hhigh := w.slice_lt 7 7
  have hvalue : (w.extractLsb' 31 1 ++ w.extractLsb' 7 1 ++ w.extractLsb' 25 6
      ++ w.extractLsb' 8 4 ++ 0#1).toNat =
      2 ^ 12 * w.slice 31 31
        + (2 * w.slice 11 8 + 2 ^ 5 * w.slice 30 25 + 2 ^ 11 * w.slice 7 7) := by
    simp only [toNat_append, BitVec.toNat_zero]
    rw [w.toNat_extractLsb'_eq_slice 31 1 31 rfl, w.toNat_extractLsb'_eq_slice 7 1 7 rfl,
      w.toNat_extractLsb'_eq_slice 25 6 30 rfl, w.toNat_extractLsb'_eq_slice 8 4 11 rfl]
    omega
  refine (toInt_signExtend_of_split _ (by decide) hvalue (by omega)).trans ?_
  omega

theorem toInt_immJ (w : Word) :
    w.immJ.toInt = 2 * (w.slice 30 21 : Int) + 2 ^ 11 * w.slice 20 20 + 2 ^ 12 * w.slice 19 12
      - 2 ^ 20 * w.slice 31 31 := by
  have hlow := w.slice_lt 30 21
  have hmiddle := w.slice_lt 20 20
  have hhigh := w.slice_lt 19 12
  have hvalue : (w.extractLsb' 31 1 ++ w.extractLsb' 12 8 ++ w.extractLsb' 20 1
      ++ w.extractLsb' 21 10 ++ 0#1).toNat =
      2 ^ 20 * w.slice 31 31
        + (2 * w.slice 30 21 + 2 ^ 11 * w.slice 20 20 + 2 ^ 12 * w.slice 19 12) := by
    simp only [toNat_append, BitVec.toNat_zero]
    rw [w.toNat_extractLsb'_eq_slice 31 1 31 rfl, w.toNat_extractLsb'_eq_slice 12 8 19 rfl,
      w.toNat_extractLsb'_eq_slice 20 1 20 rfl, w.toNat_extractLsb'_eq_slice 21 10 30 rfl]
    omega
  refine (toInt_signExtend_of_split _ (by decide) hvalue (by omega)).trans ?_
  omega

theorem toNat_immU (w : Word) : w.immU.toNat = 2 ^ 12 * w.slice 31 12 := by
  rw [immU, toNat_append_zero, w.toNat_extractLsb'_eq_slice 12 20 31 rfl, Nat.mul_comm]

/-! ## Fields that are part of an immediate, or stand for one -/

theorem setWidth_immI (w : Word) : w.immI.setWidth 12 = w.extractLsb' 20 12 :=
  setWidth_signExtend (w.extractLsb' 20 12) (by decide)

/-- The low bits of a piece are a piece. -/
theorem slice_mod (w : Word) (hi mid lo : Nat) (hlo : lo ≤ mid) (hhi : mid ≤ hi) :
    w.slice hi lo % 2 ^ (mid + 1 - lo) = w.slice mid lo := by
  rw [w.slice_split hi mid lo hlo hhi, Nat.mul_add_mod, Nat.mod_eq_of_lt (w.slice_lt mid lo)]

end Word

namespace IType

variable {x : IType} {w : Word}

theorem toNat_rawImm_of_immI (h : x.imm = w.immI) : x.rawImm.toNat = w.slice 31 20 := by
  rw [rawImm, h, w.setWidth_immI, w.toNat_extractLsb'_eq_slice 20 12 31 rfl]

theorem toNat_shamt_of_immI (h : x.imm = w.immI) : x.shamt.toNat = w.slice 24 20 := by
  rw [shamt, BitVec.toNat_setWidth, toNat_rawImm_of_immI h]
  exact w.slice_mod 31 24 20 (by decide) (by decide)

theorem toNat_uimm_of_rs1 (h : x.rs1 = w.rs1) : x.uimm.toNat = w.slice 19 15 := by
  rw [uimm, h, BitVec.toNat_setWidth_of_le (by decide), Word.rs1,
    w.toNat_extractLsb'_eq_slice 15 5 19 rfl]

end IType

/-! ## Decoded words -/

/--
What the bits of a word make the immediate of an instruction, by format. The
immediate format also has values without a sign that are read off the same
bits, and one in the place of the first source register.
-/
def Instruction.HasImmediateOf (w : Word) : Instruction → Prop
  | .i x =>
      x.imm.toInt = (w.slice 30 20 : Int) - 2 ^ 11 * w.slice 31 31
        ∧ x.rawImm.toNat = w.slice 31 20 ∧ x.csr.toNat = w.slice 31 20
        ∧ x.shamt.toNat = w.slice 24 20 ∧ x.uimm.toNat = w.slice 19 15
  | .s x =>
      x.imm.toInt = 2 ^ 5 * (w.slice 30 25 : Int) + w.slice 11 7 - 2 ^ 11 * w.slice 31 31
  | .b x =>
      x.imm.toInt = 2 * (w.slice 11 8 : Int) + 2 ^ 5 * w.slice 30 25 + 2 ^ 11 * w.slice 7 7
        - 2 ^ 12 * w.slice 31 31
  | .u x => x.imm.toNat = 2 ^ 12 * w.slice 31 12
  | .j x =>
      x.imm.toInt = 2 * (w.slice 30 21 : Int) + 2 ^ 11 * w.slice 20 20 + 2 ^ 12 * w.slice 19 12
        - 2 ^ 20 * w.slice 31 31
  | .r _ => True
  | .fence _ => True

theorem Format.hasImmediateOf_fields (f : Format) (w : Word) : (f.fields w).HasImmediateOf w := by
  cases f with
  | r => trivial
  | i =>
      exact ⟨w.toInt_immI, IType.toNat_rawImm_of_immI rfl, IType.toNat_rawImm_of_immI rfl,
        IType.toNat_shamt_of_immI rfl, IType.toNat_uimm_of_rs1 rfl⟩
  | s => exact w.toInt_immS
  | b => exact w.toInt_immB
  | u => exact w.toNat_immU
  | j => exact w.toInt_immJ
  | fence => trivial

namespace Instruction

/-- Whatever a word is decoded to has the immediate that the bits of the word make up. -/
theorem immediates_of_decode (w : Word) (i : Instruction) (h : decode w = .ok i) :
    i.HasImmediateOf w := by
  obtain ⟨f, -, rfl⟩ := decode_eq_ok_iff.mp h
  exact f.hasImmediateOf_fields w

/-- One word of each format, with the sign bit set and no two pieces alike. -/
theorem immediates_of_decode_negative :
    (∃ x, decode 0xC05CD073 = .ok (.i x) ∧ x.imm.toInt = -1019 ∧ x.csr.toNat = 0xC05
        ∧ x.shamt.toNat = 5 ∧ x.uimm.toNat = 25)
      ∧ (∃ x, decode 0x8A20AE23 = .ok (.s x) ∧ x.imm.toInt = -1860)
      ∧ (∃ x, decode 0x8A2094E3 = .ok (.b x) ∧ x.imm.toInt = -1880)
      ∧ (∃ x, decode 0x800010B7 = .ok (.u x) ∧ x.imm.toNat = 0x80001000)
      ∧ ∃ x, decode 0xAAB5A06F = .ok (.j x) ∧ x.imm.toInt = -677206 := by
  obtain ⟨himm, -, hcsr, hshamt, huimm⟩ := immediates_of_decode 0xC05CD073 (.i _) rfl
  have hstore := immediates_of_decode 0x8A20AE23 (.s _) rfl
  have hbranch := immediates_of_decode 0x8A2094E3 (.b _) rfl
  have hupper := immediates_of_decode 0x800010B7 (.u _) rfl
  have hjump := immediates_of_decode 0xAAB5A06F (.j _) rfl
  exact ⟨⟨_, rfl, himm, hcsr, hshamt, huimm⟩, ⟨_, rfl, hstore⟩, ⟨_, rfl, hbranch⟩,
    ⟨_, rfl, hupper⟩, ⟨_, rfl, hjump⟩⟩

end Instruction

end Rv32
