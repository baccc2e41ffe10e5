import Rv32.Bus
import Rv32.Memory.Sparse
import Rv32.Numeral

/-!
# The framebuffer

A picture of four-byte pixels in row-major order, which the guest sees as an
array of bytes. A snapshot of the picture is the picture itself: later writes
make new ones. Bytes that were never written are zero, which is black.
-/

namespace Rv32

/-- A picture of `width` by `height` pixels. -/
structure Frame where
  width : Nat
  height : Nat
  bytes : SparseBytes

namespace Frame

inductive AccessError where
  | outOfBounds (offset : Word) (size : Nat)
  deriving DecidableEq, Repr

def AccessError.message : AccessError → String
  | outOfBounds offset size =>
      let offset := Numeral.hex offset.toNat
      s!"access of {size} bytes at offset {offset} is outside the framebuffer"

def black (width height : Nat) : Frame :=
  { width := width, height := height, bytes := .empty }

def pixelCount (f : Frame) : Nat :=
  f.width * f.height

def byteCount (f : Frame) : Nat :=
  4 * f.pixelCount

def bytesFrom (f : Frame) (i : Nat) : Nat → List Byte
  | 0 => []
  | n + 1 => f.bytes.get i :: f.bytesFrom (i + 1) n

def writeFrom (f : Frame) (i : Nat) : List Byte → Frame
  | [] => f
  | b :: rest => { f with bytes := f.bytes.set i b }.writeFrom (i + 1) rest

/-- The `size` bytes from `offset` on, which may cover parts of several pixels. -/
def read (f : Frame) (offset : Word) (size : Nat) : Except AccessError (List Byte) :=
  if offset.toNat + size ≤ f.byteCount then .ok (f.bytesFrom offset.toNat size)
  else .error (.outOfBounds offset size)

def write (f : Frame) (offset : Word) (bytes : List Byte) : Except AccessError Frame :=
  if offset.toNat + bytes.length ≤ f.byteCount then .ok (f.writeFrom offset.toNat bytes)
  else .error (.outOfBounds offset bytes.length)

def pixelAt (f : Frame) (i : Nat) : Word :=
  ofLeBytes 32 (f.bytesFrom (4 * i) 4)

/-- The pixel in column `x` of row `y`, if it is in the picture. -/
def pixel? (f : Frame) (x y : Nat) : Option Word :=
  if x < f.width ∧ y < f.height then some (f.pixelAt (y * f.width + x)) else none

def pixels (f : Frame) : List Word :=
  (List.range f.pixelCount).map f.pixelAt

/-- The numbers and values of the pixels that are not black, in row-major order. -/
def litPixels (f : Frame) : List (Nat × Word) :=
  f.bytes.pageNumbers.flatMap fun page =>
    (List.range (pageSize / 4)).filterMap fun i =>
      let number := page * (pageSize / 4) + i
      let pixel := f.pixelAt number
      if pixel = 0 then none else some (number, pixel)

@[simp] theorem length_bytesFrom (f : Frame) (i n : Nat) : (f.bytesFrom i n).length = n := by
  induction n generalizing i with
  | zero => rfl
  | succ n ih => simp [bytesFrom, ih]

theorem getElem?_bytesFrom (f : Frame) (i n k : Nat) :
    (f.bytesFrom i n)[k]? = if k < n then some (f.bytes.get (i + k)) else none := by
  induction n generalizing i k with
  | zero => simp [bytesFrom]
  | succ n ih =>
      cases k with
      | zero => simp [bytesFrom]
      | succ k => simp [bytesFrom, ih, show i + 1 + k = i + (k + 1) by omega]

@[simp] theorem byteCount_writeFrom (f : Frame) (i : Nat) (bytes : List Byte) :
    (f.writeFrom i bytes).byteCount = f.byteCount := by
  induction bytes generalizing f i with
  | nil => rfl
  | cons b rest ih =>
      rw [writeFrom, ih]
      rfl

/-- A write changes the bytes from position `i` on that it covers, and no others. -/
theorem get_writeFrom (f : Frame) (i k : Nat) (bytes : List Byte) :
    (f.writeFrom i bytes).bytes.get k =
      if i ≤ k then bytes[k - i]?.getD (f.bytes.get k) else f.bytes.get k := by
  induction bytes generalizing f i with
  | nil => simp [writeFrom]
  | cons b rest ih =>
      rw [writeFrom, ih]
      rcases Nat.lt_trichotomy i k with hlt | heq | hgt
      · obtain ⟨d, rfl⟩ := Nat.exists_eq_add_of_lt hlt
        simp [SparseBytes.get_set, show i + d + 1 - (i + 1) = d by omega,
          show i + d + 1 - i = d + 1 by omega, show i + 1 ≤ i + d + 1 by omega,
          show i ≤ i + d + 1 by omega, show i ≠ i + d + 1 by omega]
      · subst heq
        simp [SparseBytes.get_set, show ¬ i + 1 ≤ i by omega]
      · simp [SparseBytes.get_set, show ¬ i + 1 ≤ k by omega, show ¬ i ≤ k by omega,
          show i ≠ k by omega]

instance : AudibleBus Frame where
  read f offset size :=
    match f.read offset size with
    | .ok bytes => (bytes, f)
    | .error _ => (zeroBytes size, f)
  write f offset bytes :=
    match f.write offset bytes with
    | .ok f => f
    | .error _ => f
  readNotices f offset size :=
    match f.read offset size with
    | .ok _ => []
    | .error e => [⟨.warn, s!"framebuffer: read: {e.message}"⟩]
  writeNotices f offset bytes :=
    match f.write offset bytes with
    | .ok _ => []
    | .error e => [⟨.warn, s!"framebuffer: write: {e.message}"⟩]

end Frame

end Rv32
