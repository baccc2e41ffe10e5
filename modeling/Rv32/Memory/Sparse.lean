import Rv32.Word
import Std.Data.HashMap

/-!
# Sparse byte stores

A store of bytes at natural positions, of which only the pages that were ever
written are kept. A position that was never written holds zero. The number of
pages is part of what a store shows.
-/

namespace Rv32

def pageSize : Nat := 4096

abbrev Page := Vector Byte pageSize

def Page.blank : Page :=
  Vector.replicate pageSize 0

/-- Bytes at natural positions, kept in pages. -/
structure SparseBytes where
  pages : Std.HashMap Nat Page

namespace SparseBytes

theorem offset_lt (i : Nat) : i % pageSize < pageSize :=
  Nat.mod_lt i (by decide)

def empty : SparseBytes :=
  ⟨∅⟩

def pageCount (s : SparseBytes) : Nat :=
  s.pages.size

def get (s : SparseBytes) (i : Nat) : Byte :=
  have := offset_lt i
  match s.pages[i / pageSize]? with
  | some page => page[i % pageSize]
  | none => 0

def set (s : SparseBytes) (i : Nat) (b : Byte) : SparseBytes :=
  ⟨s.pages.alter (i / pageSize) fun page? =>
    some ((page?.getD Page.blank).set (i % pageSize) b (offset_lt i))⟩

/-- The numbers of the pages kept, in ascending order. -/
def pageNumbers (s : SparseBytes) : List Nat :=
  s.pages.keys.mergeSort fun a b => a ≤ b

@[simp] theorem get_empty (i : Nat) : empty.get i = 0 := by
  simp [get, empty]

theorem get_set (s : SparseBytes) (i j : Nat) (b : Byte) :
    (s.set i b).get j = if i = j then b else s.get j := by
  unfold get set
  simp only [Std.HashMap.getElem?_alter, beq_iff_eq]
  by_cases hpage : i / pageSize = j / pageSize
  · simp only [hpage, if_true, Vector.getElem_set]
    have hsplit : i % pageSize = j % pageSize ↔ i = j := by
      constructor
      · intro h
        rw [← Nat.div_add_mod i pageSize, ← Nat.div_add_mod j pageSize, hpage, h]
      · intro h
        rw [h]
    by_cases hij : i = j
    · simp [hij]
    · simp only [hsplit, hij, if_false]
      cases s.pages[j / pageSize]? with
      | none => simp [Page.blank]
      | some page => rfl
  · have hij : ¬ i = j := fun h => hpage (h ▸ rfl)
    simp [hpage, hij]

end SparseBytes

end Rv32
