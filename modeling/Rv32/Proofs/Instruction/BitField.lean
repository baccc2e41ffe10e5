import Mathlib.Data.Int.ModEq
import Rv32.Proofs.Instruction.Place

/-! # Bit fields and their signed values

The bits between two positions of a word make up a number, and the bits up to a
position make up a signed number. Both are stated here for every position, up
to fields as wide as the word. Both can also be computed by shifts: a field by a
shift down and a mask, a signed value by a shift up and a shift down that keeps
the sign. The signed immediates of an instruction word are values of this kind,
of fields that have been moved to their places.
-/

namespace Rv32

namespace Word

variable {lo hi bit : Nat}

/-! ## Fields -/

theorem toNat_field (w : Word) (hle : lo ≤ hi) (hhi : hi ≤ 31) :
    (w.field lo hi).toNat = w.toNat / 2 ^ lo % 2 ^ (hi - lo + 1) := by
  have hwidth : hi - lo + 1 ≤ 32 := by omega
  rw [field, BitVec.toNat_setWidth_of_le hwidth, BitVec.extractLsb_toNat,
    Nat.shiftRight_eq_div_pow]

theorem toNat_field_zero (w : Word) (hbit : bit ≤ 31) :
    (w.field 0 bit).toNat = w.toNat % 2 ^ (bit + 1) := by
  rw [toNat_field w (Nat.zero_le bit) hbit, Nat.pow_zero, Nat.div_one, Nat.sub_zero]

/--
The word whose `n` low bits are set. It is made of a double word, in which the bit above the mask
of a whole word still has a place.
-/
def lowMask (n : Nat) : Word :=
  (((1 : DoubleWord) <<< n) - 1).setWidth 32

def maskedField (w : Word) (lo hi : Nat) : Word :=
  (w >>> lo) &&& lowMask (hi - lo + 1)

theorem toNat_lowMask {n : Nat} (hn : n ≤ 32) : (lowMask n).toNat = 2 ^ n - 1 := by
  have hone : (1 : DoubleWord).toNat = 1 := rfl
  have hpositive := Nat.two_pow_pos n
  have hle : 2 ^ n ≤ 2 ^ 32 := Nat.pow_le_pow_right (by decide) hn
  have hplace : ((1 : DoubleWord) <<< n).toNat = 2 ^ n := by
    rw [BitVec.toNat_shiftLeft, hone, Nat.shiftLeft_eq, Nat.one_mul]
    exact Nat.mod_eq_of_lt (Nat.lt_of_le_of_lt hle (by decide))
  have hbelow : (1 : DoubleWord) ≤ (1 : DoubleWord) <<< n := by
    rw [BitVec.le_def, hplace, hone]
    exact hpositive
  rw [lowMask, BitVec.toNat_setWidth, BitVec.toNat_sub_of_le hbelow, hplace, hone]
  exact Nat.mod_eq_of_lt (by omega)

theorem maskedField_eq (w : Word) (hle : lo ≤ hi) (hhi : hi ≤ 31) :
    w.maskedField lo hi = w.field lo hi := by
  have hwidth : hi - lo + 1 ≤ 32 := by omega
  apply BitVec.eq_of_toNat_eq
  rw [toNat_field w hle hhi, maskedField, BitVec.toNat_and, BitVec.toNat_ushiftRight,
    toNat_lowMask hwidth, Nat.and_two_pow_sub_one_eq_mod, Nat.shiftRight_eq_div_pow]

/-! ## Signed values -/

/-- The signed value of the low bits is the one number in their range that ends in them. -/
theorem toInt_signExtendFrom_eq_iff (w : Word) (hbit : bit ≤ 31) (x : Int) :
    (w.signExtendFrom bit).toInt = x ↔
      (-2 ^ bit ≤ x ∧ x ≤ 2 ^ bit - 1) ∧ x ≡ w.toNat [ZMOD 2 ^ (bit + 1)] := by
  have hwidth : bit + 1 ≤ 32 := by omega
  have hpower : ((2 ^ (bit + 1) : Nat) : Int) = 2 ^ bit * 2 := by
    push_cast
    exact Int.pow_succ 2 bit
  rw [signExtendFrom, BitVec.toInt_signExtend_of_le hwidth, BitVec.toInt_setWidth,
    Int.bmod_eq_iff (Nat.two_pow_pos _), Int.modEq_comm, Int.modEq_iff_dvd, Int.pow_succ, hpower,
    and_assoc]
  generalize (2 : Int) ^ bit = half
  refine and_congr ?_ (and_congr_left fun _ => ?_)
  · omega
  · omega

theorem setWidth_signExtendFrom (w : Word) (hbit : bit ≤ 31) :
    (w.signExtendFrom bit).setWidth (bit + 1) = w.setWidth (bit + 1) :=
  setWidth_signExtend _ (by omega)

theorem toNat_signExtendFrom_mod (w : Word) (hbit : bit ≤ 31) :
    (w.signExtendFrom bit).toNat % 2 ^ (bit + 1) = w.toNat % 2 ^ (bit + 1) := by
  have hlow := congrArg BitVec.toNat (w.setWidth_signExtendFrom hbit)
  rwa [BitVec.toNat_setWidth, BitVec.toNat_setWidth] at hlow

theorem signExtendFrom_signExtendFrom (w : Word) (hbit : bit ≤ 31) :
    (w.signExtendFrom bit).signExtendFrom bit = w.signExtendFrom bit := by
  rw [signExtendFrom, setWidth_signExtendFrom w hbit, ← signExtendFrom]

/-- The low bits determine the signed value and are determined by it. -/
theorem signExtendFrom_eq_iff (w v : Word) (hbit : bit ≤ 31) :
    w.signExtendFrom bit = v.signExtendFrom bit ↔
      w.toNat % 2 ^ (bit + 1) = v.toNat % 2 ^ (bit + 1) := by
  constructor
  · intro h
    rw [← toNat_signExtendFrom_mod w hbit, ← toNat_signExtendFrom_mod v hbit, h]
  · intro h
    have hlow : w.setWidth (bit + 1) = v.setWidth (bit + 1) := by
      apply BitVec.eq_of_toNat_eq
      rw [BitVec.toNat_setWidth, BitVec.toNat_setWidth, h]
    rw [signExtendFrom, signExtendFrom, hlow]

theorem field_signExtendFrom (w : Word) (hbit : bit ≤ 31) :
    (w.signExtendFrom bit).field 0 bit = w.field 0 bit := by
  apply BitVec.eq_of_toNat_eq
  rw [toNat_field_zero _ hbit, toNat_field_zero _ hbit, toNat_signExtendFrom_mod w hbit]

/-- The signed value of the low bits, shifted up to the top of the word and down again. -/
def shiftedSigned (w : Word) (bit : Nat) : Word :=
  (w <<< (31 - bit)).sshiftRight (31 - bit)

theorem shiftedSigned_eq (w : Word) (hbit : bit ≤ 31) :
    w.shiftedSigned bit = w.signExtendFrom bit := by
  apply BitVec.eq_of_getLsbD_eq
  intro i hi
  -- Above the low bits, both are filled with bit `bit`.
  have htop : (w <<< (31 - bit)).msb = w.getLsbD bit := by
    rw [BitVec.msb_eq_getLsbD_last, BitVec.getLsbD_shiftLeft]
    simp [show ¬ 31 < 31 - bit by omega, show 31 - (31 - bit) = bit by omega]
  have hsign : (w.setWidth (bit + 1)).msb = w.getLsbD bit := by
    rw [BitVec.msb_setWidth]
    simp
  rw [shiftedSigned, signExtendFrom, BitVec.getLsbD_sshiftRight, BitVec.getLsbD_signExtend, htop,
    hsign, BitVec.getLsbD_shiftLeft, BitVec.getLsbD_setWidth]
  by_cases hlow : i < bit + 1
  · have hin : ¬ 32 ≤ i := by omega
    have hshift : 31 - bit + i < 32 := by omega
    have habove : ¬ 31 - bit + i < 31 - bit := by omega
    have hback : 31 - bit + i - (31 - bit) = i := by omega
    simp [hi, hin, hlow, hshift, habove, hback]
  · have hshift : ¬ 31 - bit + i < 32 := by omega
    simp [hi, hlow, hshift]

/-! ## The pieces of instruction words -/

/-- A piece that is cut out by its position and its width is a field. -/
theorem setWidth_extractLsb' (w : Word) (lo n : Nat) :
    (w.extractLsb' lo (n + 1)).setWidth 32 = w.field lo (lo + n) := by
  apply BitVec.eq_of_toNat_eq
  rw [field, BitVec.toNat_setWidth, BitVec.toNat_setWidth, BitVec.extractLsb'_toNat,
    BitVec.extractLsb_toNat, Nat.add_sub_cancel_left]

/-- Pieces that stand side by side are a union of words, of which the front one is moved up. -/
theorem setWidth_append {n m : Nat} (u : BitVec n) (v : BitVec m) :
    (u ++ v).setWidth 32 = (u.setWidth 32 <<< m) ||| v.setWidth 32 := by
  apply BitVec.eq_of_getLsbD_eq
  intro i hi
  rw [BitVec.getLsbD_setWidth, BitVec.getLsbD_append, BitVec.getLsbD_or, BitVec.getLsbD_shiftLeft,
    BitVec.getLsbD_setWidth, BitVec.getLsbD_setWidth]
  by_cases hlow : i < m
  · simp [hi, hlow]
  · have hsub : i - m < 32 := by omega
    have hbehind : v.getLsbD i = false := BitVec.getLsbD_of_ge v i (by omega)
    simp [hi, hlow, hsub, hbehind]

theorem signExtend_eq_signExtendFrom {n : Nat} (v : BitVec (n + 1)) (hn : n ≤ 31) :
    v.signExtend 32 = signExtendFrom (v.setWidth 32) n := by
  rw [signExtendFrom, setWidth_setWidth_self v (by omega)]

theorem immI_eq (w : Word) : w.immI = signExtendFrom (w.field 20 31) 11 := by
  rw [immI, signExtend_eq_signExtendFrom _ (by decide), w.setWidth_extractLsb' 20 11]

theorem immS_eq (w : Word) :
    w.immS = signExtendFrom ((w.field 25 31 <<< 5) ||| w.field 7 11) 11 := by
  rw [immS, signExtend_eq_signExtendFrom _ (by decide), setWidth_append,
    w.setWidth_extractLsb' 25 6, w.setWidth_extractLsb' 7 4]

theorem immB_eq (w : Word) :
    w.immB =
      signExtendFrom
        ((w.field 31 31 <<< 12) ||| (w.field 7 7 <<< 11) ||| (w.field 25 30 <<< 5)
          ||| (w.field 8 11 <<< 1)) 12 := by
  rw [immB, signExtend_eq_signExtendFrom _ (by decide)]
  simp only [setWidth_append, BitVec.shiftLeft_or_distrib, ← BitVec.shiftLeft_add,
    w.setWidth_extractLsb' 31 0, w.setWidth_extractLsb' 7 0, w.setWidth_extractLsb' 25 5,
    w.setWidth_extractLsb' 8 3, BitVec.setWidth_zero, BitVec.or_zero]

theorem immJ_eq (w : Word) :
    w.immJ =
      signExtendFrom
        ((w.field 31 31 <<< 20) ||| (w.field 12 19 <<< 12) ||| (w.field 20 20 <<< 11)
          ||| (w.field 21 30 <<< 1)) 20 := by
  rw [immJ, signExtend_eq_signExtendFrom _ (by decide)]
  simp only [setWidth_append, BitVec.shiftLeft_or_distrib, ← BitVec.shiftLeft_add,
    w.setWidth_extractLsb' 31 0, w.setWidth_extractLsb' 12 7, w.setWidth_extractLsb' 20 0,
    w.setWidth_extractLsb' 21 9, BitVec.setWidth_zero, BitVec.or_zero]

/-! ## Both for all words -/

/--
A field is the number that is left of the word when the bits below are dropped by a division and
the bits above by a remainder, for fields as wide as the word too. A sign extension is the one
number congruent to the word, modulo the power of two of the bits that count, in the signed range
of that many bits. So it ignores the bits above, repeating it changes nothing, and it keeps the
field of the bits that count. Shifts and masks compute the same.
-/
theorem bit_fields_exact (w v : Word) (lo hi bit : Nat) (hle : lo ≤ hi) (hhi : hi ≤ 31)
    (hbit : bit ≤ 31) :
    ((w.field lo hi).toNat = w.toNat / 2 ^ lo % 2 ^ (hi - lo + 1) ∧
        w.maskedField lo hi = w.field lo hi) ∧
      (∀ x : Int, (v.signExtendFrom bit).toInt = x ↔
        (-2 ^ bit ≤ x ∧ x ≤ 2 ^ bit - 1) ∧ x ≡ v.toNat [ZMOD 2 ^ (bit + 1)]) ∧
      v.shiftedSigned bit = v.signExtendFrom bit ∧
      (∀ u : Word, u.signExtendFrom bit = v.signExtendFrom bit ↔
        u.toNat % 2 ^ (bit + 1) = v.toNat % 2 ^ (bit + 1)) ∧
      (v.signExtendFrom bit).signExtendFrom bit = v.signExtendFrom bit ∧
      (v.signExtendFrom bit).field 0 bit = v.field 0 bit :=
  ⟨⟨w.toNat_field hle hhi, w.maskedField_eq hle hhi⟩, v.toInt_signExtendFrom_eq_iff hbit,
    v.shiftedSigned_eq hbit, fun u => u.signExtendFrom_eq_iff v hbit,
    v.signExtendFrom_signExtendFrom hbit, v.field_signExtendFrom hbit⟩

/-- The widest and the narrowest field, and the signed values of all bits and of one. -/
theorem bit_fields_exact_outermost :
    ((0x80000001 : Word).field 0 31).toNat = 0x80000001 ∧
      ((0x80000001 : Word).field 31 31).toNat = 1 ∧
      ((0x80000000 : Word).signExtendFrom 31).toInt = -2 ^ 31 ∧
      ((0x7FFFFFFF : Word).signExtendFrom 0).toInt = -1 ∧
      (0x7FFFFFFF : Word).signExtendFrom 0 = (1 : Word).signExtendFrom 0 := by
  obtain ⟨⟨hwhole, -⟩, hlowest, -⟩ :=
    bit_fields_exact 0x80000001 0x80000000 0 31 31 (by decide) (by decide) (by decide)
  obtain ⟨⟨htop, -⟩, hminus, -, hignored, -⟩ :=
    bit_fields_exact 0x80000001 0x7FFFFFFF 31 31 0 (by decide) (by decide) (by decide)
  exact ⟨hwhole.trans (by decide), htop.trans (by decide), (hlowest _).mpr (by decide),
    (hminus _).mpr (by decide), ((hignored 1).mpr (by decide)).symm⟩

end Word

end Rv32
