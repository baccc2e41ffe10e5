/-!
# Machine words and byte strings

The 32-bit words and 8-bit bytes that every other module computes with, the
bit-field helpers on them, and the little-endian byte order in which values
travel between the hart, the memory and the devices.
-/

namespace Rv32

/-- A 32-bit machine word. Also used for physical addresses. -/
abbrev Word := BitVec 32

def addressCount : Nat := 0x100000000

abbrev Byte := BitVec 8

/-- A 64-bit counter value: a time, a deadline, or a count of retired steps. -/
abbrev DoubleWord := BitVec 64

namespace Word

/-- Bits `lo` to `hi` of `w`, both included, shifted down so that bit `lo` becomes bit 0. -/
def field (w : Word) (lo hi : Nat) : Word :=
  (w.extractLsb hi lo).setWidth 32

/-- The low `bit + 1` bits of `w` read as a signed number. Higher bits of `w` are ignored. -/
def signExtendFrom (w : Word) (bit : Nat) : Word :=
  (w.setWidth (bit + 1)).signExtend 32

/-- The bits of `value` where `mask` is set, and those of `old` where it is clear. -/
def merge (old value mask : Word) : Word :=
  (old &&& ~~~mask) ||| (value &&& mask)

theorem getLsbD_merge (old value mask : Word) (i : Nat) :
    (merge old value mask).getLsbD i =
      if mask.getLsbD i then value.getLsbD i else old.getLsbD i := by
  by_cases hi : i < 32
  · simp only [merge, BitVec.getLsbD_or, BitVec.getLsbD_and, BitVec.getLsbD_not, hi, decide_true]
    cases mask.getLsbD i <;> simp
  · simp [BitVec.getLsbD_of_ge _ _ (Nat.le_of_not_lt hi)]

@[simp] theorem merge_zero (old value : Word) : merge old value 0 = old := by
  apply BitVec.eq_of_getLsbD_eq
  intro i _
  simp [getLsbD_merge]

@[simp] theorem merge_allOnes (old value : Word) : merge old value (BitVec.allOnes 32) = value := by
  apply BitVec.eq_of_getLsbD_eq
  intro i hi
  simp only [getLsbD_merge, BitVec.getLsbD_allOnes, hi, decide_true, if_true]

/-- `w` with its two low bits cleared, the form in which resume addresses are kept. -/
def alignDown (w : Word) : Word :=
  w &&& ~~~3#32

/-- One machine word holding the truth value `b`: one for true and zero for false. -/
def ofBool (b : Bool) : Word :=
  if b then 1 else 0

end Word

/-! ## Halves of double words -/

inductive Half where
  | low
  | high
  deriving DecidableEq, Repr

namespace DoubleWord

def half (v : DoubleWord) : Half → Word
  | .low => v.extractLsb' 0 32
  | .high => v.extractLsb' 32 32

def withHalf (v : DoubleWord) (h : Half) (w : Word) : DoubleWord :=
  match h with
  | .low => v.half .high ++ w
  | .high => w ++ v.half .low

theorem half_withHalf (v : DoubleWord) (h k : Half) (w : Word) :
    (withHalf v h w).half k = if h = k then w else v.half k := by
  cases h <;> cases k <;> apply BitVec.eq_of_getLsbD_eq <;> intro i hi
  all_goals
    simp only [withHalf, half, BitVec.getLsbD_extractLsb', BitVec.getLsbD_append, reduceCtorEq,
      if_true, if_false, hi, decide_true, Bool.true_and]
    simp [hi, show ¬ 32 + i < 32 by omega]

theorem high_append_low (v : DoubleWord) : v.half .high ++ v.half .low = v := by
  apply BitVec.eq_of_getLsbD_eq
  intro i hi
  simp only [half, BitVec.getLsbD_append, BitVec.getLsbD_extractLsb']
  by_cases hlow : i < 32
  · simp [hlow]
  · simp [hlow, show i - 32 < 32 by omega, show 32 + (i - 32) = i by omega]

end DoubleWord

/-! ## Little-endian byte strings -/

/-- The `n` low bytes of `v`, least significant first. -/
def leBytes {w : Nat} (n : Nat) (v : BitVec w) : List Byte :=
  (List.range n).map fun i => v.extractLsb' (8 * i) 8

@[simp] theorem length_leBytes {w : Nat} (n : Nat) (v : BitVec w) :
    (leBytes n v).length = n := by
  simp [leBytes]

/-- The `w`-bit value whose bytes are given, least significant first. -/
def ofLeBytes (w : Nat) : List Byte → BitVec w
  | [] => 0
  | b :: rest => b.setWidth w ||| (ofLeBytes w rest <<< 8)

def zeroBytes (n : Nat) : List Byte :=
  List.replicate n 0

@[simp] theorem length_zeroBytes (n : Nat) : (zeroBytes n).length = n := by
  simp [zeroBytes]

end Rv32
