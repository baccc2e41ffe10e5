import Rv32.Memory.Ram

/-! # What memory holds

A write of no more bytes than there are addresses can be read back from any
place in it, also where it goes on at address zero. Memories that hold the same
bytes cannot be told apart by accesses, whatever pages they keep.
-/

namespace Rv32

namespace Ram

theorem get_empty (a : Word) : empty.get a = 0 :=
  SparseBytes.get_empty a.toNat

theorem read_empty (a : Word) (n : Nat) : empty.read a n = zeroBytes n := by
  induction n generalizing a with
  | zero => rfl
  | succ n ih =>
      rw [read, get_empty, ih (a + 1)]
      rfl

/-- An address is as far from where it was counted from as it was counted. -/
theorem toNat_distance (a : Word) {k : Nat} (h : k < addressCount) :
    (a + BitVec.ofNat 32 k - a).toNat = k := by
  unfold addressCount at h
  have ha := a.isLt
  rw [BitVec.toNat_sub, BitVec.toNat_add, BitVec.toNat_ofNat]
  omega

theorem read_write (r : Ram) (a : Word) {bytes : List Byte} {k n : Nat}
    (h : bytes.length ≤ addressCount) (hin : k + n ≤ bytes.length) :
    (r.write a bytes).read (a + BitVec.ofNat 32 k) n = (bytes.drop k).take n := by
  apply List.ext_getElem?
  intro i
  rw [getElem?_read, List.getElem?_take, List.getElem?_drop]
  by_cases hi : i < n
  · have hdistance : (a + BitVec.ofNat 32 k + BitVec.ofNat 32 i - a).toNat = k + i := by
      rw [BitVec.add_assoc, ← BitVec.ofNat_add, toNat_distance a (by omega)]
    rw [if_pos hi, if_pos hi, get_write r a _ bytes h, hdistance,
      List.getElem?_eq_getElem (by omega)]
    rfl
  · rw [if_neg hi, if_neg hi]

def SameContents (r s : Ram) : Prop :=
  ∀ a, r.get a = s.get a

theorem SameContents.refl (r : Ram) : r.SameContents r := fun _ => rfl

theorem SameContents.read_eq {r s : Ram} (h : r.SameContents s) (a : Word) (n : Nat) :
    r.read a n = s.read a n := by
  induction n generalizing a with
  | zero => rfl
  | succ n ih => rw [read, read, h a, ih]

theorem SameContents.set {r s : Ram} (h : r.SameContents s) (a : Word) (b : Byte) :
    (r.set a b).SameContents (s.set a b) := by
  intro x
  rw [get_set, get_set, h x]

theorem SameContents.write {r s : Ram} (h : r.SameContents s) (a : Word) (bytes : List Byte) :
    (r.write a bytes).SameContents (s.write a bytes) := by
  induction bytes generalizing r s a with
  | nil => exact h
  | cons b rest ih => exact ih (h.set a b) (a + 1)

end Ram

end Rv32
