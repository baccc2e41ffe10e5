import Mathlib.Algebra.Group.Nat.Defs
import Rv32.Proofs.Memory.Ram

/-! # The order of bytes in memory

A number stands in memory with its least significant byte first. What is read
from some address on is the number that stands there, and a number that is
written there is the one that stands there then, also where its bytes go on at
address zero. All other bytes stay.
-/

namespace Rv32

/-- The number that stands in the `n` bytes from `address` on. -/
def littleEndian (byteAt : Word → Byte) (address : Word) : Nat → Nat
  | 0 => 0
  | n + 1 => (byteAt address).toNat + 2 ^ 8 * littleEndian byteAt (address + 1) n

theorem two_pow_bytes_succ (n : Nat) : 2 ^ (8 * (n + 1)) = 2 ^ 8 * 2 ^ (8 * n) := by
  rw [Nat.mul_succ, Nat.add_comm, Nat.pow_add]

theorem littleEndian_lt (byteAt : Word → Byte) (address : Word) (n : Nat) :
    littleEndian byteAt address n < 2 ^ (8 * n) := by
  induction n generalizing address with
  | zero => exact Nat.one_pos
  | succ n ih =>
      have hbyte := (byteAt address).isLt
      have hrest := ih (address + 1)
      rw [littleEndian, two_pow_bytes_succ]
      omega

/-- A number stands where its bytes stand, from the one at position `k` on. -/
theorem littleEndian_of_bytes {byteAt : Word → Byte} {address v : Word} {k n : Nat}
    (h : ∀ i < n, byteAt (address + BitVec.ofNat 32 i) = v.extractLsb' (8 * (k + i)) 8) :
    littleEndian byteAt address n = v.toNat / 2 ^ (8 * k) % 2 ^ (8 * n) := by
  induction n generalizing address k with
  | zero => exact (Nat.mod_one _).symm
  | succ n ih =>
      have hfirst : (byteAt address).toNat = v.toNat / 2 ^ (8 * k) % 2 ^ 8 := by
        have hzero := h 0 (Nat.succ_pos n)
        rw [BitVec.add_zero, Nat.add_zero] at hzero
        rw [hzero, BitVec.extractLsb'_toNat, Nat.shiftRight_eq_div_pow]
      have hrest : ∀ i < n, byteAt (address + 1 + BitVec.ofNat 32 i) =
          v.extractLsb' (8 * (k + 1 + i)) 8 := by
        intro i hi
        rw [Ram.add_one_ofNat, h (i + 1) (Nat.succ_lt_succ hi), Nat.add_assoc, Nat.add_comm 1]
      rw [littleEndian, hfirst, ih hrest, two_pow_bytes_succ k, Nat.mul_comm (2 ^ 8) (2 ^ (8 * k)),
        ← Nat.div_div_eq_div_mul, ← Nat.mod_mul, ← two_pow_bytes_succ]

/-- The byte in front of a value is its least significant one. -/
theorem toNat_ofLeBytes_cons {w : Nat} (b : Byte) {rest : List Byte} (hw : 8 ≤ w)
    (hrest : 2 ^ 8 * (ofLeBytes w rest).toNat < 2 ^ w) :
    (ofLeBytes w (b :: rest)).toNat = b.toNat + 2 ^ 8 * (ofLeBytes w rest).toNat := by
  have hbyte : b.toNat % 2 ^ w = b.toNat :=
    Nat.mod_eq_of_lt (Nat.lt_of_lt_of_le b.isLt (Nat.pow_le_pow_right (by decide) hw))
  rw [ofLeBytes, BitVec.toNat_or, BitVec.toNat_setWidth, BitVec.toNat_shiftLeft, Nat.shiftLeft_eq,
    Nat.mul_comm, hbyte, Nat.mod_eq_of_lt hrest, Nat.or_comm, ← Nat.two_pow_add_eq_or_of_lt b.isLt,
    Nat.add_comm]

theorem getElem?_leBytes {w : Nat} (n : Nat) (v : BitVec w) (i : Nat) :
    (leBytes n v)[i]? = if i < n then some (v.extractLsb' (8 * i) 8) else none := by
  rw [leBytes, List.getElem?_map]
  by_cases hi : i < n
  · rw [List.getElem?_range hi, if_pos hi]
    rfl
  · rw [List.getElem?_eq_none (by simpa using hi), if_neg hi]
    rfl

/-- Bit `i` of a value stands in byte `i / 8` of its byte string. -/
theorem getLsbD_ofLeBytes {w i : Nat} (bytes : List Byte) (hi : i < w) :
    (ofLeBytes w bytes).getLsbD i = (bytes[i / 8]?.getD 0).getLsbD (i % 8) := by
  induction bytes generalizing i with
  | nil => simp [ofLeBytes]
  | cons b rest ih =>
      simp only [ofLeBytes, BitVec.getLsbD_or, BitVec.getLsbD_setWidth, BitVec.getLsbD_shiftLeft,
        hi, decide_true, Bool.true_and]
      by_cases hlow : i < 8
      · have hfirst : i / 8 = 0 := Nat.div_eq_of_lt hlow
        simp [hlow, hfirst, Nat.mod_eq_of_lt hlow]
      · have hplace : i / 8 = (i - 8) / 8 + 1 := by omega
        have hbit : i % 8 = (i - 8) % 8 := by omega
        rw [ih (by omega), BitVec.getLsbD_of_ge b i (by omega), hplace, hbit,
          List.getElem?_cons_succ]
        simp [hlow]

/-- A byte string of the width of a value is the one that the value is stored as. -/
theorem leBytes_ofLeBytes {w : Nat} {bytes : List Byte} (h : 8 * bytes.length ≤ w) :
    leBytes bytes.length (ofLeBytes w bytes) = bytes := by
  apply List.ext_getElem?
  intro k
  rw [getElem?_leBytes]
  by_cases hk : k < bytes.length
  · rw [if_pos hk, List.getElem?_eq_getElem hk, Option.some_inj]
    apply BitVec.eq_of_getLsbD_eq
    intro i hi
    have hplace : (8 * k + i) / 8 = k := by omega
    have hbit : (8 * k + i) % 8 = i := by omega
    rw [BitVec.getLsbD_extractLsb', getLsbD_ofLeBytes bytes (by omega), hplace, hbit,
      List.getElem?_eq_getElem hk]
    simp [hi]
  · rw [if_neg hk, List.getElem?_eq_none (by omega)]

namespace Ram

theorem toNat_ofLeBytes_read (r : Ram) (a : Word) {n w : Nat} (h : 8 * n ≤ w) :
    (ofLeBytes w (r.read a n)).toNat = littleEndian r.get a n := by
  induction n generalizing a with
  | zero => exact BitVec.toNat_zero
  | succ n ih =>
      have hrest := ih (a + 1) (by omega)
      have hlt : 2 ^ 8 * littleEndian r.get (a + 1) n < 2 ^ w := by
        calc 2 ^ 8 * littleEndian r.get (a + 1) n
            < 2 ^ 8 * 2 ^ (8 * n) :=
              Nat.mul_lt_mul_of_pos_left (littleEndian_lt r.get (a + 1) n) (by decide)
          _ = 2 ^ (8 * (n + 1)) := (two_pow_bytes_succ n).symm
          _ ≤ 2 ^ w := Nat.pow_le_pow_right (by decide) h
      rw [read, toNat_ofLeBytes_cons (r.get a) (by omega) (by rwa [hrest]), hrest, littleEndian]

/-- The memory `after` is `r` with the `width` low bytes of `v` stored from `base` on. -/
structure Stores (r : Ram) (base : Word) (width : Nat) (v : Word) (after : Ram) : Prop where
  stored : ∀ i < width, after.get (base + BitVec.ofNat 32 i) = v.extractLsb' (8 * i) 8
  kept : ∀ a, (∀ i < width, a ≠ base + BitVec.ofNat 32 i) → after.get a = r.get a

theorem stores_write_leBytes (r : Ram) (base : Word) (width : Nat) (v : Word)
    (h : width ≤ addressCount) : r.Stores base width v (r.write base (leBytes width v)) := by
  have hget (a : Word) : (r.write base (leBytes width v)).get a =
      (leBytes width v)[(a - base).toNat]?.getD (r.get a) :=
    r.get_write base a _ (by rwa [length_leBytes])
  constructor
  · intro i hi
    rw [hget, toNat_distance base (Nat.lt_of_lt_of_le hi h), getElem?_leBytes, if_pos hi,
      Option.getD_some]
  · intro a ha
    have hout : ¬ (a - base).toNat < width := by
      intro hin
      apply ha (a - base).toNat hin
      rw [BitVec.ofNat_toNat, BitVec.setWidth_eq, BitVec.add_comm, BitVec.sub_add_cancel]
    rw [hget, getElem?_leBytes, if_neg hout, Option.getD_none]

/-- The number that the stored bytes make up stands where they have been stored. -/
theorem Stores.littleEndian_eq {r after : Ram} {base v : Word} {width : Nat}
    (h : r.Stores base width v after) :
    littleEndian after.get base width = v.toNat % 2 ^ (8 * width) := by
  have hbytes : ∀ i < width, after.get (base + BitVec.ofNat 32 i) =
      v.extractLsb' (8 * (0 + i)) 8 := by
    intro i hi
    rw [h.stored i hi, Nat.zero_add]
  rw [littleEndian_of_bytes hbytes, Nat.mul_zero, Nat.pow_zero, Nat.div_one]

end Ram

end Rv32
