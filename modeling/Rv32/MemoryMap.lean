import Rv32.Interval

/-!
# Memory maps

A memory map assigns values to disjoint intervals of the address space. Every
address can be looked up: it lies either in one of the listed intervals or in
a gap, and in the second case the answer is the widest interval around it that
meets no listed one.
-/

namespace Rv32

/-- Disjoint intervals in ascending order, each with the value it is mapped to. -/
structure MemoryMap (α : Type) where
  entries : List (Interval × α)
  ascending : entries.Pairwise fun a b => a.1.last < b.1.first

structure Overlap where
  lower : Interval
  upper : Interval
  deriving DecidableEq

def Overlap.message (e : Overlap) : String :=
  let lower := e.lower.text
  let upper := e.upper.text
  s!"address range {lower} overlaps with address range {upper}"

namespace MemoryMap

variable {α : Type}

/-- The first two neighbours of which the second does not start above the end of the first. -/
def firstOverlap : List (Interval × α) → Option Overlap
  | a :: b :: rest =>
      if b.1.first ≤ a.1.last then some ⟨a.1, b.1⟩ else firstOverlap (b :: rest)
  | _ => none

theorem pairwise_of_firstOverlap_eq_none {entries : List (Interval × α)}
    (h : firstOverlap entries = none) :
    entries.Pairwise fun a b => a.1.last < b.1.first := by
  induction entries with
  | nil => exact .nil
  | cons a rest ih =>
      cases rest with
      | nil => simp
      | cons b rest =>
          rw [firstOverlap] at h
          split at h
          · contradiction
          · rename_i hgap
            have hlt : a.1.last < b.1.first := BitVec.not_le.mp hgap
            have hrest := ih h
            refine .cons ?_ hrest
            intro c hc
            cases hc with
            | head => exact hlt
            | tail _ hc =>
                have hbc := (List.pairwise_cons.mp hrest).1 c hc
                have hb := b.1.first_le_last
                simp only [BitVec.le_def, BitVec.lt_def] at *
                omega

def arrange (entries : List (Interval × α)) : List (Interval × α) :=
  entries.mergeSort fun a b => a.1.first ≤ b.1.first

/-- The map of the listed intervals, if no two of them overlap. -/
def ofList (entries : List (Interval × α)) : Except Overlap (MemoryMap α) :=
  let arranged := arrange entries
  match h : firstOverlap arranged with
  | some overlap => .error overlap
  | none => .ok ⟨arranged, pairwise_of_firstOverlap_eq_none h⟩

def empty : MemoryMap α :=
  ⟨[], .nil⟩

theorem le_pred_of_lt {low a first : Word} (hlow : low ≤ a) (ha : a < first) :
    low ≤ first - 1 := by
  simp only [BitVec.le_def, BitVec.lt_def] at *
  have hone : (1 : Word).toNat = 1 := rfl
  rw [BitVec.toNat_sub_of_le (by rw [BitVec.le_def, hone]; omega), hone]
  omega

theorem succ_le_of_lt {last a : Word} (h : last < a) : last + 1 ≤ a := by
  simp only [BitVec.le_def, BitVec.lt_def] at *
  have ha := a.isLt
  rw [BitVec.toNat_add]
  have hone : (1 : Word).toNat = 1 := rfl
  omega

theorem le_last_address (a : Word) : a ≤ BitVec.allOnes 32 := by
  have ha := a.isLt
  simp only [BitVec.le_def, BitVec.toNat_allOnes]
  omega

/--
Looks `a` up among entries that all lie at or above `low`. A gap found on the
way starts at `low` and ends just below the entry that follows it.
-/
def locate (low a : Word) (hlow : low ≤ a) : List (Interval × α) → Interval × Option α
  | [] => (⟨low, BitVec.allOnes 32, le_last_address low⟩, none)
  | (i, v) :: rest =>
      if hbelow : a < i.first then
        (⟨low, i.first - 1, le_pred_of_lt hlow hbelow⟩, none)
      else if hin : a ≤ i.last then (i, some v)
      else locate (i.last + 1) a (succ_le_of_lt (BitVec.not_le.mp hin)) rest

/--
The interval around `a` and the value it is mapped to, or no value and the
widest unmapped interval when `a` lies in a gap.
-/
def lookup (m : MemoryMap α) (a : Word) : Interval × Option α :=
  locate 0 a (Nat.zero_le a.toNat) m.entries

end MemoryMap

end Rv32
