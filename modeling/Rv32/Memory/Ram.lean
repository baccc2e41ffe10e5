import Rv32.Bus
import Rv32.Memory.Sparse

/-!
# Main memory

Byte-addressed memory over the whole 32-bit address space. Accesses may start
anywhere, have any length, and go on at address zero after the last address.
-/

namespace Rv32

structure Ram where
  bytes : SparseBytes

namespace Ram

def empty : Ram :=
  ⟨.empty⟩

def get (r : Ram) (a : Word) : Byte :=
  r.bytes.get a.toNat

def set (r : Ram) (a : Word) (b : Byte) : Ram :=
  ⟨r.bytes.set a.toNat b⟩

def pageCount (r : Ram) : Nat :=
  r.bytes.pageCount

theorem get_set (r : Ram) (a b : Word) (v : Byte) :
    (r.set a v).get b = if a = b then v else r.get b := by
  unfold get set
  rw [SparseBytes.get_set]
  by_cases h : a = b
  · simp [h]
  · have hnat : ¬ a.toNat = b.toNat := fun hn => h (BitVec.eq_of_toNat_eq hn)
    simp [h, hnat]

def read (r : Ram) (a : Word) : Nat → List Byte
  | 0 => []
  | n + 1 => r.get a :: r.read (a + 1) n

def write (r : Ram) (a : Word) : List Byte → Ram
  | [] => r
  | b :: rest => (r.set a b).write (a + 1) rest

@[simp] theorem length_read (r : Ram) (a : Word) (n : Nat) : (r.read a n).length = n := by
  induction n generalizing a with
  | zero => rfl
  | succ n ih => simp [read, ih]

theorem add_one_ofNat (a : Word) (i : Nat) :
    a + 1 + BitVec.ofNat 32 i = a + BitVec.ofNat 32 (i + 1) := by
  rw [BitVec.add_assoc, Nat.add_comm i, BitVec.ofNat_add]
  rfl

theorem getElem?_read (r : Ram) (a : Word) (n i : Nat) :
    (r.read a n)[i]? = if i < n then some (r.get (a + BitVec.ofNat 32 i)) else none := by
  induction n generalizing a i with
  | zero => simp [read]
  | succ n ih =>
      cases i with
      | zero => simp [read]
      | succ i =>
          rw [read, List.getElem?_cons_succ, ih, add_one_ofNat]
          simp

/-- A write changes the bytes it covers, which are those at a distance below its length. -/
theorem get_write (r : Ram) (a x : Word) (bytes : List Byte) (h : bytes.length ≤ addressCount) :
    (r.write a bytes).get x = bytes[(x - a).toNat]?.getD (r.get x) := by
  induction bytes generalizing r a with
  | nil => rfl
  | cons b rest ih =>
      have hlength : rest.length + 1 ≤ addressCount := h
      rw [write, ih _ _ (by omega), get_set]
      by_cases hx : a = x
      · subst hx
        have hlast : (a - (a + 1)).toNat = addressCount - 1 := by
          unfold addressCount
          bv_omega
        rw [hlast, List.getElem?_eq_none (by omega)]
        simp
      · have hne : (x - a).toNat ≠ 0 := by
          bv_omega
        have hpred : (x - (a + 1)).toNat = (x - a).toNat - 1 := by
          bv_omega
        obtain ⟨k, hk⟩ := Nat.exists_eq_succ_of_ne_zero hne
        rw [hpred, hk]
        simp [hx]

instance : AudibleBus Ram where
  read r a n := (r.read a n, r)
  write r a bytes := r.write a bytes
  readNotices _ _ _ := []
  writeNotices _ _ _ := []

end Ram

end Rv32
