import Mathlib.Data.List.Perm.Subperm
import Rv32.Proofs.MemoryMap
import Rv32.Proofs.MemoryMap.Region

/-! # Gaps of a memory map

Intervals can be listed in a memory map exactly if no two of them have an
address in common, and a refused list contains two that do. What lies between
the listed intervals are the gaps, each of which is the widest interval around
its addresses that meets no listed one. A lookup returns a listed interval or a
gap, and which one is determined by the list alone.
-/

namespace Rv32

/-! ## Intervals -/

namespace Interval

def Meets (i j : Interval) : Prop :=
  ∃ a, i.contains a = true ∧ j.contains a = true

theorem meets_iff {i j : Interval} : i.Meets j ↔ i.first ≤ j.last ∧ j.first ≤ i.last := by
  have hi := i.first_le_last
  have hj := j.first_le_last
  constructor
  · rintro ⟨a, hia, hja⟩
    rw [contains_eq_true_iff] at hia hja
    simp only [BitVec.le_def] at *
    omega
  · rintro ⟨hij, hji⟩
    -- The later one of the two first addresses lies in both intervals.
    by_cases hfirst : i.first ≤ j.first
    · exact ⟨j.first, (contains_eq_true_iff _ _).mpr ⟨hfirst, hji⟩, j.contains_first⟩
    · have hlater : j.first ≤ i.first := by
        simp only [BitVec.le_def] at *
        omega
      exact ⟨i.first, i.contains_first, (contains_eq_true_iff _ _).mpr ⟨hlater, hij⟩⟩

instance (i j : Interval) : Decidable (i.Meets j) :=
  decidable_of_iff _ meets_iff.symm

theorem Meets.symm {i j : Interval} (h : i.Meets j) : j.Meets i := by
  obtain ⟨a, hia, hja⟩ := h
  exact ⟨a, hja, hia⟩

theorem not_meets_of_lt {i j : Interval} (h : i.last < j.first) : ¬ i.Meets j := by
  rw [meets_iff]
  simp only [BitVec.le_def, BitVec.lt_def] at *
  omega

end Interval

namespace MemoryMap

variable {α : Type}

/-! ## Lists that make a map -/

/-- Intervals of which no two meet, in ascending order, end before the next one starts. -/
theorem ascending_of_apart {entries : List (Interval × α)}
    (hsorted : entries.Pairwise fun e f => e.1.first ≤ f.1.first)
    (hapart : entries.Pairwise fun e f => ¬ e.1.Meets f.1) :
    entries.Pairwise fun e f => e.1.last < f.1.first := by
  refine (hsorted.and hapart).imp ?_
  rintro e f ⟨hle, hnot⟩
  have hf := f.1.first_le_last
  rw [Interval.meets_iff] at hnot
  simp only [BitVec.le_def, BitVec.lt_def] at *
  omega

theorem sorted_arrange (entries : List (Interval × α)) :
    (arrange entries).Pairwise fun e f => e.1.first ≤ f.1.first := by
  have hsorted : (arrange entries).Pairwise fun e f => decide (e.1.first ≤ f.1.first) = true := by
    apply List.pairwise_mergeSort
    · intro e f g hef hfg
      simp only [decide_eq_true_eq, BitVec.le_def] at *
      omega
    · intro e f
      simp only [Bool.or_eq_true, decide_eq_true_eq, BitVec.le_def]
      omega
  exact hsorted.imp fun h => of_decide_eq_true h

theorem perm_arrange (entries : List (Interval × α)) : (arrange entries).Perm entries :=
  List.mergeSort_perm _ _

theorem apart_arrange_iff {entries : List (Interval × α)} :
    (arrange entries).Pairwise (fun e f => ¬ e.1.Meets f.1) ↔
      entries.Pairwise fun e f => ¬ e.1.Meets f.1 :=
  (perm_arrange entries).pairwise_iff fun h hmeets => h hmeets.symm

/-- The entries of a map are those of the list that it was made of. -/
theorem mem_entries_of_ofList {entries : List (Interval × α)} {m : MemoryMap α}
    (h : ofList entries = .ok m) (e : Interval × α) : e ∈ m.entries ↔ e ∈ entries := by
  rw [entries_of_ofList h]
  exact (perm_arrange entries).mem_iff

theorem firstOverlap_of_ofList {entries : List (Interval × α)} {o : Overlap}
    (h : ofList entries = .error o) : firstOverlap (arrange entries) = some o := by
  simp only [ofList] at h
  split at h
  · rename_i overlap hsome
    cases h
    exact hsome
  · cases h

/-- To compare neighbours is enough: a list makes a map if, and only if, no two entries meet. -/
theorem exists_ofList_iff (entries : List (Interval × α)) :
    (∃ m, ofList entries = .ok m) ↔ entries.Pairwise fun e f => ¬ e.1.Meets f.1 := by
  rw [← apart_arrange_iff]
  constructor
  · rintro ⟨m, h⟩
    rw [← entries_of_ofList h]
    exact m.ascending.imp Interval.not_meets_of_lt
  · intro hapart
    have hnone := firstOverlap_eq_none (ascending_of_apart (sorted_arrange entries) hapart)
    cases hresult : ofList entries with
    | ok m => exact ⟨m, rfl⟩
    | error o =>
        rw [firstOverlap_of_ofList hresult] at hnone
        cases hnone

/-- Two neighbours are reported of which the second starts before the first has ended. -/
theorem firstOverlap_eq_some {entries : List (Interval × α)} {o : Overlap}
    (h : firstOverlap entries = some o) :
    ∃ v w, [(o.lower, v), (o.upper, w)].Sublist entries ∧ o.upper.first ≤ o.lower.last := by
  induction entries with
  | nil => cases h
  | cons e rest ih =>
      cases rest with
      | nil => cases h
      | cons f rest =>
          rw [firstOverlap] at h
          split at h
          · rename_i hover
            cases h
            exact ⟨e.2, f.2, .cons_cons _ (.cons_cons _ (List.nil_sublist rest)), hover⟩
          · obtain ⟨v, w, hsub, hover⟩ := ih h
            exact ⟨v, w, hsub.cons e, hover⟩

/-- The overlap that is reported is one of two entries of the list that really meet. -/
theorem meets_of_ofList_eq_error {entries : List (Interval × α)} {o : Overlap}
    (h : ofList entries = .error o) :
    ∃ v w, [(o.lower, v), (o.upper, w)].Subperm entries ∧ o.lower.Meets o.upper := by
  obtain ⟨v, w, hsub, hover⟩ := firstOverlap_eq_some (firstOverlap_of_ofList h)
  refine ⟨v, w, hsub.subperm.trans (perm_arrange entries).subperm, ?_⟩
  have hsorted := (sorted_arrange entries).sublist hsub
  have hle : o.lower.first ≤ o.upper.first :=
    (List.pairwise_cons.mp hsorted).1 (o.upper, w) List.mem_cons_self
  have hupper := o.upper.first_le_last
  rw [Interval.meets_iff]
  simp only [BitVec.le_def] at *
  omega

/-! ## Gaps -/

/--
`g` is the gap around `a` between the entries: none of them meets it, and on both sides it goes
on to the next entry or to the end of the address space.
-/
structure IsGap (entries : List (Interval × α)) (a : Word) (g : Interval) : Prop where
  around : g.contains a = true
  clear : ∀ e ∈ entries, ¬ g.Meets e.1
  lower : g.first = 0 ∨ ∃ e ∈ entries, e.1.last.toNat + 1 = g.first.toNat
  upper : g.last = BitVec.allOnes 32 ∨ ∃ e ∈ entries, g.last.toNat + 1 = e.1.first.toNat

/-- A gap depends only on which entries there are, not on their order. -/
theorem IsGap.of_mem_iff {entries more : List (Interval × α)} (h : ∀ e, e ∈ entries ↔ e ∈ more)
    {a : Word} {g : Interval} (hg : IsGap entries a g) : IsGap more a g where
  around := hg.around
  clear := fun e he => hg.clear e ((h e).mpr he)
  lower := hg.lower.imp_right fun ⟨e, he, hlast⟩ => ⟨e, (h e).mp he, hlast⟩
  upper := hg.upper.imp_right fun ⟨e, he, hfirst⟩ => ⟨e, (h e).mp he, hfirst⟩

theorem IsGap.congr {entries more : List (Interval × α)} (h : ∀ e, e ∈ entries ↔ e ∈ more)
    {a : Word} {g : Interval} : IsGap entries a g ↔ IsGap more a g :=
  ⟨.of_mem_iff h, .of_mem_iff fun e => (h e).symm⟩

/-- A gap is the widest interval around an address that meets no entry. -/
theorem IsGap.widest {entries : List (Interval × α)} {a : Word} {g h : Interval}
    (hg : IsGap entries a g) (ha : h.contains a = true) (hclear : ∀ e ∈ entries, ¬ h.Meets e.1) :
    g.first ≤ h.first ∧ h.last ≤ g.last := by
  have haround := hg.around
  rw [Interval.contains_eq_true_iff] at ha haround
  -- An interval that went further would meet the entry that the gap goes on to.
  constructor
  · rcases hg.lower with hzero | ⟨e, he, hlast⟩
    · rw [hzero]
      exact Nat.zero_le h.first.toNat
    · have hapart := hclear e he
      have hentry := e.1.first_le_last
      rw [Interval.meets_iff] at hapart
      simp only [BitVec.le_def] at *
      omega
  · rcases hg.upper with hend | ⟨e, he, hfirst⟩
    · rw [hend]
      exact le_last_address h.last
    · have hapart := hclear e he
      have hentry := e.1.first_le_last
      rw [Interval.meets_iff] at hapart
      simp only [BitVec.le_def] at *
      omega

theorem IsGap.unique {entries : List (Interval × α)} {a : Word} {g h : Interval}
    (hg : IsGap entries a g) (hh : IsGap entries a h) : g = h := by
  obtain ⟨hfirst, hlast⟩ := hg.widest hh.around hh.clear
  obtain ⟨hfirst', hlast'⟩ := hh.widest hg.around hg.clear
  cases g
  cases h
  congr
  · exact BitVec.le_antisymm hfirst hfirst'
  · exact BitVec.le_antisymm hlast' hlast

theorem isGap_of_lookup {m : MemoryMap α} {a : Word} (hnone : (m.lookup a).2 = none) :
    IsGap m.entries a (m.lookup a).1 := by
  have hfound := m.located_lookup a
  refine
    { around := hfound.around
      clear := ?_
      lower := hfound.lower hnone
      upper := hfound.upper hnone }
  intro e he
  rcases hfound.vacant hnone e he with hbelow | habove
  · exact fun hmeets => Interval.not_meets_of_lt hbelow hmeets.symm
  · exact Interval.not_meets_of_lt habove

/-- A lookup finds no value exactly in a gap, and returns this gap. -/
theorem lookup_eq_gap_iff {m : MemoryMap α} {a : Word} {g : Interval} :
    m.lookup a = (g, none) ↔ IsGap m.entries a g := by
  constructor
  · intro h
    have hgap := isGap_of_lookup (congrArg Prod.snd h)
    rw [h] at hgap
    exact hgap
  · intro hg
    have hvacant : m.Vacant a := by
      intro e he
      rw [← Bool.not_eq_true]
      exact fun hin => hg.clear e he ⟨a, hg.around, hin⟩
    have hnone := (m.lookup_eq_none_iff a).mpr hvacant
    exact Prod.ext ((isGap_of_lookup hnone).unique hg) hnone

/-- A lookup finds a value exactly in a listed interval, and returns this interval. -/
theorem lookup_eq_entry_iff {m : MemoryMap α} {a : Word} {i : Interval} {v : α} :
    m.lookup a = (i, some v) ↔ (i, v) ∈ m.entries ∧ i.contains a = true := by
  constructor
  · intro h
    have hmem := (m.located_lookup a).mapped v (congrArg Prod.snd h)
    have haround := m.contains_lookup a
    rw [h] at hmem haround
    exact ⟨hmem, haround⟩
  · rintro ⟨hmem, haround⟩
    exact lookup_of_mem hmem haround

end MemoryMap

end Rv32
