import Mathlib.Tactic.IntervalCases
import Rv32.Proofs.Csr.Status

/-! # The status register, bit by bit

Every field has its own bits in the register, so a bit of the packed register
can be read off the fields and the fields off the bits: packing and unpacking
are inverse, but for the bits that belong to no field. Traps and the rules for
legal values are then told apart by the positions they touch, and a masked
write keeps what the mask leaves out, but for four bits that the rules fix.
-/

namespace Rv32

namespace Status

def bit (s : Status) (k : Nat) : Bool :=
  match k with
  | 1 => s.sie
  | 3 => s.mie
  | 5 => s.spie
  | 6 => s.ube
  | 7 => s.mpie
  | 8 => s.spp
  | 9 => s.vs.bits.getLsbD 0
  | 10 => s.vs.bits.getLsbD 1
  | 11 => s.mpp.bits.getLsbD 0
  | 12 => s.mpp.bits.getLsbD 1
  | 13 => s.fs.bits.getLsbD 0
  | 14 => s.fs.bits.getLsbD 1
  | 15 => s.xs.bits.getLsbD 0
  | 16 => s.xs.bits.getLsbD 1
  | 17 => s.mprv
  | 18 => s.sum
  | 19 => s.mxr
  | 20 => s.tvm
  | 21 => s.tw
  | 22 => s.tsr
  | 31 => s.sd
  | _ => false

theorem getLsbD_pack (s : Status) (k : Nat) : s.pack.getLsbD k = s.bit k := by
  by_cases hk : k < 32
  · have hbit (i : Nat) : s.pack.getLsbD i = _ := BitVec.getLsbD_append
    rw [hbit]
    interval_cases k <;>
      simp only [BitVec.getLsbD_append, BitVec.getLsbD_ofBool, Nat.reduceLT, Nat.reduceSub, if_true,
        if_false, decide_true, Bool.true_and, BitVec.getLsbD_zero, bit]
  · rw [BitVec.getLsbD_of_ge _ _ (Nat.le_of_not_lt hk)]
    unfold bit
    split <;> first | rfl | omega

/-- The bits of the register that belong to a field. -/
def fieldMask : Word := 0x807FFFEA

theorem bit_unpack (w : Word) (k : Nat) :
    (unpack w).bit k = (w.getLsbD k && fieldMask.getLsbD k) := by
  by_cases hk : k < 32
  · interval_cases k <;>
      simp [bit, unpack, fieldMask, ContextStatus.bits_ofBits, LevelField.bits_ofBits]
  · rw [BitVec.getLsbD_of_ge w _ (Nat.le_of_not_lt hk), Bool.false_and]
    unfold bit
    split <;> first | rfl | omega

theorem pack_unpack (w : Word) : (unpack w).pack = w &&& fieldMask := by
  apply BitVec.eq_of_getLsbD_eq
  intro i _
  rw [getLsbD_pack, bit_unpack, BitVec.getLsbD_and]

/-! ## Positions that are touched -/

/-- The rules for legal values touch four fields and the summary bit. -/
theorem bit_legalize (s old : Status) {k : Nat} (hk : k ∉ [6, 11, 12, 15, 16, 31]) :
    (s.legalize old).bit k = s.bit k := by
  unfold bit
  split <;> first | rfl | exact absurd (by decide) hk

theorem bit_enterSupervisor (s : Status) (origin : Level) {k : Nat} (hk : k ∉ [1, 5, 8]) :
    (s.enterSupervisor origin).bit k = s.bit k := by
  unfold bit
  split <;> first | rfl | exact absurd (by decide) hk

theorem bit_enterMachine (s : Status) (origin : Level) {k : Nat} (hk : k ∉ [3, 7, 11, 12]) :
    (s.enterMachine origin).bit k = s.bit k := by
  unfold bit
  split <;> first | rfl | exact absurd (by decide) hk

/-! ## Masked writes -/

theorem pack_and_fieldMask (s : Status) : s.pack &&& fieldMask = s.pack := by
  rw [← pack_unpack, unpack_pack]

/-- Where no rule for legal values applies the register takes the bits of the mask. -/
theorem getLsbD_pack_write (s : Status) (value mask : Word) {k : Nat}
    (hk : k ∉ [6, 11, 12, 15, 16, 31]) : (s.write value mask).pack.getLsbD k =
      ((if mask.getLsbD k then value.getLsbD k else s.pack.getLsbD k) && fieldMask.getLsbD k) := by
  rw [getLsbD_pack, write, bit_legalize _ _ hk, bit_unpack, Word.getLsbD_merge]

/-- The previous level of machine mode is kept as a whole or takes the bits of the mask. -/
theorem mpp_write_cases (s : Status) (value mask : Word) :
    (s.write value mask).mpp = s.mpp ∨
      (s.write value mask).mpp = (unpack (Word.merge s.pack value mask)).mpp := by
  unfold write legalize
  split
  · exact .inl rfl
  · exact .inr rfl

/-- A bit that the mask leaves out is kept, unless the rules give it a value of their own. -/
theorem getLsbD_pack_write_of_clear (s : Status) (value : Word) {mask : Word} {k : Nat}
    (hclear : mask.getLsbD k = false) (hk : k ∉ [6, 15, 16, 31]) :
    (s.write value mask).pack.getLsbD k = s.pack.getLsbD k := by
  by_cases hlevel : k ∈ [11, 12]
  · have hmpp := s.mpp_write_cases value mask
    have hmerged : (unpack (Word.merge s.pack value mask)).bit k = s.bit k := by
      rw [bit_unpack, s.getLsbD_merge_pack value hclear, ← BitVec.getLsbD_and, pack_and_fieldMask,
        getLsbD_pack]
    rw [getLsbD_pack, getLsbD_pack]
    simp only [List.mem_cons, List.not_mem_nil, or_false] at hlevel
    rcases hmpp with hkept | hwritten
    · rcases hlevel with rfl | rfl <;> simp only [bit, hkept]
    · rcases hlevel with rfl | rfl <;> simpa only [bit, hwritten] using hmerged
  · have hrule : k ∉ [6, 11, 12, 15, 16, 31] := by
      simp only [List.mem_cons, List.not_mem_nil, or_false] at hk hlevel ⊢
      omega
    rw [s.getLsbD_pack_write value mask hrule, hclear, if_neg Bool.false_ne_true,
      ← BitVec.getLsbD_and, pack_and_fieldMask]

end Status

end Rv32
