/-!
# Sets of characters

A set of characters is kept as the ranges of their code points. The ranges
ascend and are separated by gaps, so that each set is written in one way.
`CharSet.has_iff` says which characters are in it.
-/

namespace Rv32

/-- Whether the ranges ascend, with a gap between each and the next. -/
def CharSet.areAscending : List (Nat × Nat) → Bool
  | [] => true
  | [r] => decide (r.1 ≤ r.2)
  | r :: s :: rest => decide (r.1 ≤ r.2 ∧ r.2 + 1 < s.1) && areAscending (s :: rest)

/-- Characters, as ranges of code points with both ends included. -/
structure CharSet where
  ranges : List (Nat × Nat)
  ascending : CharSet.areAscending ranges = true

namespace CharSet

def has (s : CharSet) (c : Char) : Bool :=
  s.ranges.any fun r => decide (r.1 ≤ c.toNat) && decide (c.toNat ≤ r.2)

theorem has_iff {s : CharSet} {c : Char} :
    s.has c = true ↔ ∃ r ∈ s.ranges, r.1 ≤ c.toNat ∧ c.toNat ≤ r.2 := by
  simp [has]

end CharSet

end Rv32
