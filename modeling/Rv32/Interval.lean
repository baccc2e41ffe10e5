import Rv32.Numeral
import Rv32.Word

/-!
# Address intervals

Non-empty intervals of the 32-bit address space, with both bounds included, so
that the whole space is one of them. The order of the bounds is part of the
type: an interval can only be built from bounds that have been compared.
-/

namespace Rv32

/-- The addresses from `first` to `last`, both included. -/
structure Interval where
  first : Word
  last : Word
  first_le_last : first ≤ last
  deriving DecidableEq

/-- Two bounds that enclose no address. -/
structure BadBounds where
  first : Word
  last : Word
  deriving DecidableEq, Repr

def BadBounds.message (e : BadBounds) : String :=
  let first := Numeral.hex e.first.toNat
  let last := Numeral.hex e.last.toNat
  s!"bounds [{first}, {last}] do not form a valid 32-bit address range"

namespace Interval

/-- The interval between two bounds, if the first is not above the last. -/
def ofBounds (first last : Word) : Except BadBounds Interval :=
  if h : first ≤ last then .ok ⟨first, last, h⟩ else .error ⟨first, last⟩

/--
The `size` addresses from `first` on. Refused when there are none, or when
they do not all fit below the end of the address space.
-/
def ofSize (first size : Word) : Except BadBounds Interval :=
  if size = 0 ∨ addressCount ≤ first.toNat + (size.toNat - 1) then
    .error ⟨first, first + size⟩
  else ofBounds first (first + (size - 1))

def full : Interval :=
  ⟨0, BitVec.allOnes 32, by decide⟩

def contains (i : Interval) (a : Word) : Bool :=
  i.first ≤ a && a ≤ i.last

def containsAccess (i : Interval) (a : Word) (len : Nat) : Bool :=
  i.contains a &&
    match len with
    | 0 => true
    | delta + 1 => decide (delta ≤ (i.last - a).toNat)

/-- The distance between the bounds, one less than the size. -/
def delta (i : Interval) : Word :=
  i.last - i.first

def size (i : Interval) : Nat :=
  i.delta.toNat + 1

def text (i : Interval) : String :=
  let first := Numeral.hex i.first.toNat
  let last := Numeral.hex i.last.toNat
  s!"[{first}, {last}]"

theorem contains_eq_true_iff (i : Interval) (a : Word) :
    i.contains a = true ↔ i.first ≤ a ∧ a ≤ i.last := by
  simp [contains]

end Interval

end Rv32
