import Rv32.MemoryMap

/-! # Building memory maps

A list of intervals is put in order and refused if two neighbours overlap. The
entries of a map are in order and apart already, so they make up the same map
again.
-/

namespace Rv32

namespace MemoryMap

variable {α : Type}

theorem arrange_entries (m : MemoryMap α) : arrange m.entries = m.entries := by
  apply List.mergeSort_of_pairwise
  refine m.ascending.imp ?_
  intro a b hab
  have hle := a.1.first_le_last
  simp only [decide_eq_true_eq, BitVec.le_def, BitVec.lt_def] at *
  omega

theorem firstOverlap_eq_none {entries : List (Interval × α)}
    (h : entries.Pairwise fun a b => a.1.last < b.1.first) : firstOverlap entries = none := by
  induction entries with
  | nil => rfl
  | cons a rest ih =>
      cases rest with
      | nil => rfl
      | cons b rest =>
          obtain ⟨ha, hrest⟩ := List.pairwise_cons.mp h
          have hgap : ¬ b.1.first ≤ a.1.last := BitVec.not_le.mpr (ha b List.mem_cons_self)
          rw [firstOverlap, if_neg hgap]
          exact ih hrest

theorem ofList_entries (m : MemoryMap α) : ofList m.entries = .ok m := by
  have hsame := m.arrange_entries
  have hnone : firstOverlap (arrange m.entries) = none := by
    rw [hsame]
    exact firstOverlap_eq_none m.ascending
  simp only [ofList]
  split
  · rename_i overlap h
    rw [hnone] at h
    cases h
  · congr 1
    cases m
    congr

theorem entries_of_ofList {entries : List (Interval × α)} {m : MemoryMap α}
    (h : ofList entries = .ok m) : m.entries = arrange entries := by
  simp only [ofList] at h
  split at h
  · cases h
  · cases h
    rfl

end MemoryMap

end Rv32
