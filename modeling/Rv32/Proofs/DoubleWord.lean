import Mathlib.Algebra.Group.Nat.Defs
import Rv32.Word

/-! # Double words and their halves

A double word is known by its two halves. As a number it is the high half times
2^32 plus the low half, and it can be put together by replacing one half after
the other, in either order.
-/

namespace Rv32

/-- What stands in front counts with the power of two of the bits behind it. -/
theorem Word.toNat_append {n m : Nat} (u : BitVec n) (v : BitVec m) :
    (u ++ v).toNat = u.toNat * 2 ^ m + v.toNat := by
  rw [BitVec.toNat_append, ← Nat.shiftLeft_add_eq_or_of_lt v.isLt, Nat.shiftLeft_eq]

def Half.other : Half → Half
  | low => .high
  | high => .low

namespace DoubleWord

theorem eq_of_half_eq {v w : DoubleWord} (h : ∀ k, half v k = half w k) : v = w := by
  rw [← v.high_append_low, ← w.high_append_low, h .high, h .low]

theorem toNat_halves (v : DoubleWord) :
    (v.half .high).toNat * 2 ^ 32 + (v.half .low).toNat = v.toNat := by
  rw [← Word.toNat_append, v.high_append_low]

/-- Whatever was there before, two replaced halves make up the double word that they are of. -/
theorem withHalf_withHalf (v w : DoubleWord) (h : Half) :
    withHalf (withHalf v h (half w h)) h.other (half w h.other) = w := by
  apply eq_of_half_eq
  intro k
  rw [half_withHalf, half_withHalf]
  cases h <;> cases k <;> rfl

end DoubleWord

end Rv32
