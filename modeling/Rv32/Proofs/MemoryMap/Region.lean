import Mathlib.Data.List.Pairwise
import Rv32.MemoryMap
import Rv32.Proofs.Interval

/-! # The regions of a memory map

A memory map divides the address space into regions: the listed intervals, and
the gaps that are left around and between them. Two addresses lie in one region
if a listed interval contains both, or if no listed interval contains any
address from the one to the other. A lookup returns the whole region around an
address, and the value that belongs to it.
-/

namespace Rv32

namespace MemoryMap

variable {α : Type}

def Vacant (m : MemoryMap α) (a : Word) : Prop :=
  ∀ e ∈ m.entries, e.1.contains a = false

instance (m : MemoryMap α) (a : Word) : Decidable (m.Vacant a) :=
  inferInstanceAs (Decidable (∀ e ∈ m.entries, e.1.contains a = false))

/-- Whether `x` is one of the addresses from `a` to `c`, in whichever order these are. -/
def Between (a c x : Word) : Prop :=
  (a ≤ x ∧ x ≤ c) ∨ (c ≤ x ∧ x ≤ a)

inductive SameRegion (m : MemoryMap α) (a c : Word) : Prop where
  | mapped (e : Interval × α) (he : e ∈ m.entries) (ha : e.1.contains a = true)
      (hc : e.1.contains c = true)
  | vacant (h : ∀ x, Between a c x → m.Vacant x)

/-! ## Lookup -/

/--
What is known of the region that has been located for `a` among entries that
all lie at or above `low`. A gap is bounded by `low` or the entry below it, and
by the entry above it or the end of the address space.
-/
structure Located (entries : List (Interval × α)) (low a : Word) (found : Interval × Option α) :
    Prop where
  around : found.1.contains a = true
  above : low ≤ found.1.first
  mapped : ∀ v, found.2 = some v → (found.1, v) ∈ entries
  vacant : found.2 = none → ∀ e ∈ entries, e.1.last < found.1.first ∨ found.1.last < e.1.first
  lower : found.2 = none →
    found.1.first = low ∨ ∃ e ∈ entries, e.1.last.toNat + 1 = found.1.first.toNat
  upper : found.2 = none →
    found.1.last = BitVec.allOnes 32 ∨ ∃ e ∈ entries, found.1.last.toNat + 1 = e.1.first.toNat

theorem toNat_succ_of_lt {last a : Word} (h : last < a) : (last + 1).toNat = last.toNat + 1 := by
  have hone : (1 : Word).toNat = 1 := rfl
  have ha := a.isLt
  rw [BitVec.lt_def] at h
  rw [BitVec.toNat_add, hone]
  omega

theorem toNat_pred_of_lt {a first : Word} (h : a < first) :
    (first - 1).toNat + 1 = first.toNat := by
  have hone : (1 : Word).toNat = 1 := rfl
  have hfirst := first.isLt
  rw [BitVec.lt_def] at h
  rw [BitVec.toNat_sub, hone]
  omega

/-- The gap from `low` to just below the first entry. -/
theorem located_below {i : Interval} {v : α} {rest : List (Interval × α)} {low a : Word}
    (hlow : low ≤ a) (hbelow : a < i.first)
    (hordered : ((i, v) :: rest).Pairwise fun e f => e.1.last < f.1.first) :
    Located ((i, v) :: rest) low a
      (⟨low, i.first - 1, le_pred_of_lt hlow hbelow⟩, none) := by
  have hlast := toNat_pred_of_lt hbelow
  refine
    { around := ?_
      above := Nat.le_refl low.toNat
      mapped := fun v hv => by cases hv
      vacant := ?_
      lower := fun _ => .inl rfl
      upper := fun _ => .inr ⟨(i, v), List.mem_cons_self, hlast⟩ }
  · rw [Interval.contains_eq_true_iff]
    change low ≤ a ∧ a ≤ i.first - 1
    simp only [BitVec.le_def, BitVec.lt_def] at *
    omega
  · intro _ e he
    right
    change i.first - 1 < e.1.first
    cases he with
    | head =>
        simp only [BitVec.lt_def]
        omega
    | tail _ he =>
        have hafter := (List.pairwise_cons.mp hordered).1 e he
        have hi := i.first_le_last
        simp only [BitVec.le_def, BitVec.lt_def] at *
        omega

/-- What is located above an entry is located among all entries. -/
theorem Located.cons {i : Interval} {v : α} {rest : List (Interval × α)} {low a : Word}
    {found : Interval × Option α} (hlow : low ≤ i.first) (habove : i.last < a)
    (h : Located rest (i.last + 1) a found) : Located ((i, v) :: rest) low a found := by
  have hsucc := toNat_succ_of_lt habove
  have hi := i.first_le_last
  have hfirst := h.above
  simp only [BitVec.le_def, BitVec.lt_def] at hlow habove hi hfirst
  refine
    { around := h.around
      above := ?_
      mapped := fun w hw => List.mem_cons_of_mem _ (h.mapped w hw)
      vacant := ?_
      lower := ?_
      upper := ?_ }
  · rw [BitVec.le_def]
    omega
  · intro hnone e he
    cases he with
    | head =>
        left
        change i.last < found.1.first
        rw [BitVec.lt_def]
        omega
    | tail _ he => exact h.vacant hnone e he
  · intro hnone
    rcases h.lower hnone with heq | ⟨e, he, hlast⟩
    · right
      refine ⟨(i, v), List.mem_cons_self, ?_⟩
      rw [heq, hsucc]
    · exact .inr ⟨e, List.mem_cons_of_mem _ he, hlast⟩
  · intro hnone
    rcases h.upper hnone with heq | ⟨e, he, hfirst⟩
    · exact .inl heq
    · exact .inr ⟨e, List.mem_cons_of_mem _ he, hfirst⟩

theorem located_locate {entries : List (Interval × α)} {low a : Word} (hlow : low ≤ a)
    (hordered : entries.Pairwise fun e f => e.1.last < f.1.first)
    (habove : ∀ e ∈ entries, low ≤ e.1.first) :
    Located entries low a (locate low a hlow entries) := by
  induction entries generalizing low with
  | nil =>
      refine
        { around := ?_
          above := Nat.le_refl low.toNat
          mapped := fun v hv => by cases hv
          vacant := fun _ e he => by cases he
          lower := fun _ => .inl rfl
          upper := fun _ => .inl rfl }
      exact (Interval.contains_eq_true_iff _ a).mpr ⟨hlow, le_last_address a⟩
  | cons e rest ih =>
      obtain ⟨i, v⟩ := e
      obtain ⟨hnext, hrest⟩ := List.pairwise_cons.mp hordered
      have hfirst : low ≤ i.first := habove (i, v) List.mem_cons_self
      rw [locate]
      split
      · rename_i hbelow
        exact located_below hlow hbelow hordered
      · rename_i hbelow
        split
        · rename_i hin
          have haround : i.contains a = true :=
            (i.contains_eq_true_iff a).mpr ⟨BitVec.not_lt.mp hbelow, hin⟩
          exact
            { around := haround
              above := hfirst
              mapped := fun w hw => by
                cases hw
                exact List.mem_cons_self
              vacant := fun hnone => by cases hnone
              lower := fun hnone => by cases hnone
              upper := fun hnone => by cases hnone }
        · rename_i hin
          have hlast := BitVec.not_le.mp hin
          refine Located.cons hfirst hlast (ih _ hrest ?_)
          intro f hf
          exact succ_le_of_lt (hnext f hf)

theorem located_lookup (m : MemoryMap α) (a : Word) : Located m.entries 0 a (m.lookup a) :=
  located_locate _ m.ascending fun e _ => Nat.zero_le e.1.first.toNat

theorem contains_lookup (m : MemoryMap α) (a : Word) : (m.lookup a).1.contains a = true :=
  (m.located_lookup a).around

/-! ## Regions -/

/-- Of two listed intervals one lies below the other, unless they are the same. -/
theorem apart_of_ne {m : MemoryMap α} {e f : Interval × α} (he : e ∈ m.entries)
    (hf : f ∈ m.entries) (hne : e ≠ f) : e.1.last < f.1.first ∨ f.1.last < e.1.first := by
  have hsymm : Std.Symm fun e f : Interval × α => e.1.last < f.1.first ∨ f.1.last < e.1.first :=
    ⟨fun _ _ h => h.symm⟩
  have happart := m.ascending.imp
    (S := fun e f : Interval × α => e.1.last < f.1.first ∨ f.1.last < e.1.first) .inl
  exact happart.forall he hf hne

theorem eq_of_contains {m : MemoryMap α} {e f : Interval × α} (he : e ∈ m.entries)
    (hf : f ∈ m.entries) {a : Word} (hea : e.1.contains a = true) (hfa : f.1.contains a = true) :
    e = f := by
  rw [Interval.contains_eq_true_iff] at hea hfa
  refine Classical.byContradiction fun hne => ?_
  have happart := apart_of_ne he hf hne
  simp only [BitVec.le_def, BitVec.lt_def] at *
  omega

theorem vacant_of_lookup {m : MemoryMap α} {a x : Word} (hnone : (m.lookup a).2 = none)
    (hx : (m.lookup a).1.contains x = true) : m.Vacant x := by
  intro e he
  have hapart := (m.located_lookup a).vacant hnone e he
  rw [Interval.contains_eq_true_iff] at hx
  rw [← Bool.not_eq_true, Interval.contains_eq_true_iff]
  simp only [BitVec.le_def, BitVec.lt_def] at *
  omega

theorem lookup_eq_none_iff (m : MemoryMap α) (a : Word) :
    (m.lookup a).2 = none ↔ m.Vacant a := by
  constructor
  · intro hnone
    exact vacant_of_lookup hnone (m.contains_lookup a)
  · intro hvacant
    cases hvalue : (m.lookup a).2 with
    | none => rfl
    | some v =>
        have hclear := hvacant _ ((m.located_lookup a).mapped v hvalue)
        rw [m.contains_lookup a] at hclear
        cases hclear

/-- A listed interval and its value are found at each of its addresses. -/
theorem lookup_of_mem {m : MemoryMap α} {e : Interval × α} (he : e ∈ m.entries) {a : Word}
    (ha : e.1.contains a = true) : m.lookup a = (e.1, some e.2) := by
  cases hvalue : (m.lookup a).2 with
  | none =>
      have hclear := (m.lookup_eq_none_iff a).mp hvalue e he
      rw [ha] at hclear
      cases hclear
  | some v =>
      have hmem := (m.located_lookup a).mapped v hvalue
      have heq := eq_of_contains he hmem ha (m.contains_lookup a)
      rw [heq, ← hvalue]

/-- A gap that has been located goes as far as addresses are vacant. -/
theorem contains_of_vacant {m : MemoryMap α} {a c : Word} (h : ∀ x, Between a c x → m.Vacant x) :
    (m.lookup a).1.contains c = true := by
  have hnone : (m.lookup a).2 = none :=
    (m.lookup_eq_none_iff a).mpr (h a (by unfold Between; simp only [BitVec.le_def]; omega))
  have hfound := m.located_lookup a
  have haround := hfound.around
  -- An entry next to the gap ends or starts at an address that is not vacant.
  have hend (e : Interval × α) (he : e ∈ m.entries) :
      ¬ Between a c e.1.last ∧ ¬ Between a c e.1.first := by
    have hentry := e.1.first_le_last
    refine ⟨fun hbetween => ?_, fun hbetween => ?_⟩
    · have hclear := h _ hbetween e he
      rw [← Bool.not_eq_true, Interval.contains_eq_true_iff] at hclear
      exact hclear ⟨hentry, Nat.le_refl _⟩
    · have hclear := h _ hbetween e he
      rw [← Bool.not_eq_true, Interval.contains_eq_true_iff] at hclear
      exact hclear ⟨Nat.le_refl _, hentry⟩
  rw [Interval.contains_eq_true_iff] at haround ⊢
  constructor
  · rcases hfound.lower hnone with heq | ⟨e, he, hlast⟩
    · rw [heq]
      exact Nat.zero_le c.toNat
    · have hout := (hend e he).1
      simp only [Between, BitVec.le_def] at *
      omega
  · rcases hfound.upper hnone with heq | ⟨e, he, hfirst⟩
    · rw [heq]
      exact le_last_address c
    · have hout := (hend e he).2
      simp only [Between, BitVec.le_def] at *
      omega

/-- What a lookup returns is the region of the address: all addresses of it, and no others. -/
theorem sameRegion_iff (m : MemoryMap α) (a c : Word) :
    m.SameRegion a c ↔ (m.lookup a).1.contains c = true := by
  constructor
  · intro h
    cases h with
    | mapped e he ha hc =>
        rw [lookup_of_mem he ha]
        exact hc
    | vacant h => exact contains_of_vacant h
  · intro hc
    have haround := m.contains_lookup a
    cases hvalue : (m.lookup a).2 with
    | some v => exact .mapped _ ((m.located_lookup a).mapped v hvalue) haround hc
    | none =>
        refine .vacant fun x hx => vacant_of_lookup hvalue ?_
        rw [Interval.contains_eq_true_iff] at *
        simp only [Between, BitVec.le_def] at *
        omega

/-- The `size` addresses from `a` on exist, and they lie in one region. -/
def InOneRegion (m : MemoryMap α) (a : Word) (size : Nat) : Prop :=
  ∀ k < size, a.toNat + k < addressCount ∧ m.SameRegion a (a + BitVec.ofNat 32 k)

/-- Addresses lie in one region if they do not go past the end of the region of the first one. -/
theorem inOneRegion_succ_iff (m : MemoryMap α) (a : Word) (delta : Nat) :
    m.InOneRegion a (delta + 1) ↔ delta ≤ ((m.lookup a).1.last - a).toNat := by
  have haround := (Interval.contains_iff_toNat _ a).mp (m.contains_lookup a)
  have hlast := (m.lookup a).1.last.isLt
  have hplace (k : Nat) (hk : a.toNat + k < addressCount) :
      (a + BitVec.ofNat 32 k).toNat = a.toNat + k := by
    unfold addressCount at hk
    rw [BitVec.toNat_add, BitVec.toNat_ofNat]
    omega
  rw [Interval.toNat_last_sub (m.contains_lookup a)]
  constructor
  · intro h
    obtain ⟨hexists, hsame⟩ := h delta (Nat.lt_succ_self delta)
    rw [sameRegion_iff, Interval.contains_iff_toNat, hplace delta hexists] at hsame
    omega
  · intro h k hk
    have hexists : a.toNat + k < addressCount := by
      unfold addressCount
      omega
    refine ⟨hexists, ?_⟩
    rw [sameRegion_iff, Interval.contains_iff_toNat, hplace k hexists]
    omega

end MemoryMap

end Rv32
