import Rv32.Csr.Status
import Rv32.Proofs.Word

/-! # Writes of the status register, field by field

Packing loses nothing, so a masked write can be read off the fields: a field
whose bits the mask leaves out keeps its value, and the rules for legal values
do not touch it. The supervisor's mask leaves out the fields of machine mode.
-/

namespace Rv32

namespace Status

theorem unpack_pack (s : Status) : unpack s.pack = s := by
  -- The width of `pack` is a numeral and that of its parts a sum; these two equations join them.
  have hbit (i : Nat) : s.pack.getLsbD i = _ := BitVec.getLsbD_append
  have hfield (lo : Nat) (hlo : 1 ≤ lo) : s.pack.extractLsb' lo 2 = _ :=
    BitVec.extractLsb'_append_eq_of_le hlo
  simp only [unpack, hbit, hfield 9 (by decide), hfield 11 (by decide), hfield 13 (by decide),
    hfield 15 (by decide)]
  simp (disch := decide) only [BitVec.getLsbD_append, BitVec.getLsbD_ofBool, Nat.reduceLT,
    Nat.reduceSub, if_true, if_false, decide_true, Bool.true_and,
    BitVec.extractLsb'_append_eq_of_add_le, BitVec.extractLsb'_append_eq_of_le,
    BitVec.extractLsb'_eq_self, ContextStatus.ofBits_bits, LevelField.ofBits_bits]

/-- The fields that belong to machine mode, without the one that a supervisor return clears. -/
structure MachineFieldsKept (before after : Status) : Prop where
  mie : after.mie = before.mie
  mpie : after.mpie = before.mpie
  mpp : after.mpp = before.mpp
  tvm : after.tvm = before.tvm
  tw : after.tw = before.tw
  tsr : after.tsr = before.tsr

theorem MachineFieldsKept.refl (s : Status) : MachineFieldsKept s s :=
  ⟨rfl, rfl, rfl, rfl, rfl, rfl⟩

/-- A bit that the mask leaves out is unpacked as it was. -/
theorem getLsbD_merge_pack (s : Status) (value : Word) {mask : Word} {i : Nat}
    (hmask : mask.getLsbD i = false) :
    (Word.merge s.pack value mask).getLsbD i = s.pack.getLsbD i := by
  rw [Word.getLsbD_merge, hmask]
  rfl

theorem supervisorMask_clear (mask : Word) {i : Nat} (hi : supervisorMask.getLsbD i = false) :
    (mask &&& supervisorMask).getLsbD i = false := by
  rw [BitVec.getLsbD_and, hi, Bool.and_false]

theorem machineFieldsKept_writeSupervisor (s : Status) (value mask : Word) :
    MachineFieldsKept s (s.writeSupervisor value mask) := by
  have hbit {i : Nat} (hi : supervisorMask.getLsbD i = false) :
      (Word.merge s.pack value (mask &&& supervisorMask)).getLsbD i = s.pack.getLsbD i :=
    s.getLsbD_merge_pack value (supervisorMask_clear mask hi)
  have hpack := s.unpack_pack
  have hmpp : (unpack (Word.merge s.pack value (mask &&& supervisorMask))).mpp = s.mpp := by
    have hclear : (mask &&& supervisorMask).extractLsb' 11 2 = 0 := by
      rw [BitVec.extractLsb'_and]
      exact BitVec.and_zero
    have hkept := Word.extractLsb'_merge_of_clear s.pack value hclear
    exact (congrArg LevelField.ofBits hkept).trans (congrArg mpp hpack)
  exact
    { mie := (hbit (i := 3) (by decide)).trans (congrArg mie hpack)
      mpie := (hbit (i := 7) (by decide)).trans (congrArg mpie hpack)
      mpp := by simp [writeSupervisor, write, legalize, hmpp]
      tvm := (hbit (i := 20) (by decide)).trans (congrArg tvm hpack)
      tw := (hbit (i := 21) (by decide)).trans (congrArg tw hpack)
      tsr := (hbit (i := 22) (by decide)).trans (congrArg tsr hpack) }

theorem mprv_writeSupervisor (s : Status) (value mask : Word) :
    (s.writeSupervisor value mask).mprv = s.mprv := by
  have hclear := supervisorMask_clear mask (i := 17) (by decide)
  exact (s.getLsbD_merge_pack value hclear).trans (congrArg mprv s.unpack_pack)

theorem machineFieldsKept_leaveSupervisor (s : Status) :
    MachineFieldsKept s s.leaveSupervisor :=
  ⟨rfl, rfl, rfl, rfl, rfl, rfl⟩

end Status

end Rv32
