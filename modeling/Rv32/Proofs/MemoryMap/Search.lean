import Rv32.Proofs.MemoryMap.Gap

/-! # Searching a memory map

The order of the listed intervals makes a search by bisection possible. Around
an address that no interval contains it ends between two neighbours, and the
bounds of the gap are computed from theirs. No such computation leaves the
address space, and the bounds are always in order, so the search leads to the
interval or to the gap around the address.
-/

namespace Rv32

namespace Interval

/-- Where the interval lies, seen from `a`: below, around or above. -/
def order (a : Word) (i : Interval) : Ordering :=
  if a < i.first then .gt else if a ≤ i.last then .eq else .lt

theorem order_eq_gt_iff {a : Word} {i : Interval} : i.order a = .gt ↔ a < i.first := by
  unfold order
  split
  · simp [*]
  · split
    · simp [*]
    · simp [*]

theorem order_eq_lt_iff {a : Word} {i : Interval} : i.order a = .lt ↔ i.last < a := by
  have hi := i.first_le_last
  unfold order
  split
  · rename_i hbelow
    simp only [reduceCtorEq, false_iff, BitVec.le_def, BitVec.lt_def] at *
    omega
  · split
    · rename_i hin
      simpa using hin
    · rename_i hin
      simpa using hin

theorem order_eq_eq_iff {a : Word} {i : Interval} : i.order a = .eq ↔ i.contains a = true := by
  rw [contains_eq_true_iff]
  unfold order
  split
  · rename_i hbelow
    simp [BitVec.not_le.mpr hbelow]
  · rename_i hbelow
    have hfirst := BitVec.not_lt.mp hbelow
    split
    · rename_i hin
      simp [hfirst, hin]
    · rename_i hin
      simp [hin]

end Interval

namespace MemoryMap

variable {α β : Type}

/-! ## Searches -/

/-- The end of a search: the place of an element, or the place where it would have to stand. -/
inductive SearchResult where
  | found (place : Nat)
  | missing (place : Nat)
  deriving DecidableEq, Repr

/-- Elements that are too small come first in the list, and those that are too large come last. -/
def Graded (order : β → Ordering) (l : List β) : Prop :=
  l.Pairwise fun x y => (order y = .lt → order x = .lt) ∧ (order x = .gt → order y = .gt)

/-- The result is right: a fitting element, or the place between the too small and the too large. -/
inductive Answers (order : β → Ordering) (l : List β) : SearchResult → Prop where
  | found {place : Nat} {x : β} (hx : l[place]? = some x) (hfits : order x = .eq) :
      Answers order l (.found place)
  | missing {place : Nat} (hplace : place ≤ l.length) (hsmall : ∀ x ∈ l.take place, order x = .lt)
      (hlarge : ∀ x ∈ l.drop place, order x = .gt) : Answers order l (.missing place)

/-- What a search function owes: a right result wherever the list is in order. -/
def IsSearch (search : (β → Ordering) → List β → SearchResult) : Prop :=
  ∀ order l, Graded order l → Answers order l (search order l)

def bisect (order : β → Ordering) (l : List β) (low high : Nat) : SearchResult :=
  if low < high then
    match l[low + (high - low) / 2]? with
    | none => .missing low
    | some x =>
        match order x with
        | .eq => .found (low + (high - low) / 2)
        | .lt => bisect order l (low + (high - low) / 2 + 1) high
        | .gt => bisect order l low (low + (high - low) / 2)
  else .missing low
termination_by high - low

def binarySearch (order : β → Ordering) (l : List β) : SearchResult :=
  bisect order l 0 l.length

theorem Graded.take {order : β → Ordering} {l : List β} (h : Graded order l) {i : Nat} {x : β}
    (hx : l[i]? = some x) (hsmall : order x = .lt) : ∀ y ∈ l.take (i + 1), order y = .lt := by
  intro y hy
  rw [List.take_add_one, hx] at hy
  rcases List.mem_append.mp hy with hbefore | hself
  · have hpair : ((l.take i) ++ [x]).Pairwise fun x y =>
        (order y = .lt → order x = .lt) ∧ (order x = .gt → order y = .gt) := by
      refine List.Pairwise.sublist ?_ h
      have htake := List.take_sublist (i + 1) l
      rwa [List.take_add_one, hx] at htake
    exact ((List.pairwise_append.mp hpair).2.2 y hbefore x (List.mem_singleton.mpr rfl)).1 hsmall
  · rw [Option.toList_some, List.mem_singleton] at hself
    rw [hself]
    exact hsmall

theorem Graded.drop {order : β → Ordering} {l : List β} (h : Graded order l) {i : Nat} {x : β}
    (hx : l[i]? = some x) (hlarge : order x = .gt) : ∀ y ∈ l.drop i, order y = .gt := by
  obtain ⟨hi, hget⟩ := List.getElem?_eq_some_iff.mp hx
  have hdrop : l.drop i = x :: l.drop (i + 1) := by
    rw [List.drop_eq_getElem_cons hi, hget]
  have hpair := List.Pairwise.sublist (List.drop_sublist i l) h
  rw [hdrop] at hpair ⊢
  intro y hy
  cases hy with
  | head => exact hlarge
  | tail _ hy => exact ((List.pairwise_cons.mp hpair).1 y hy).2 hlarge

/-- What is left of `low` stays too small, and what is not left of `high` too large. -/
theorem answers_bisect {order : β → Ordering} {l : List β} (h : Graded order l) {low high : Nat}
    (hle : low ≤ high) (hhigh : high ≤ l.length) (hsmall : ∀ x ∈ l.take low, order x = .lt)
    (hlarge : ∀ x ∈ l.drop high, order x = .gt) : Answers order l (bisect order l low high) := by
  fun_induction bisect order l low high with
  | case1 low high hlt hnone =>
      have hout := List.getElem?_eq_none_iff.mp hnone
      omega
  | case2 low high hlt x hx hfits => exact .found hx hfits
  | case3 low high hlt x hx hfits ih => exact ih (by omega) hhigh (h.take hx hfits) hlarge
  | case4 low high hlt x hx hfits ih => exact ih (by omega) (by omega) hsmall (h.drop hx hfits)
  | case5 low high hlt =>
      have heq : low = high := by omega
      exact .missing (by omega) hsmall (heq ▸ hlarge)

theorem isSearch_binarySearch : IsSearch (@binarySearch β) := by
  intro order l h
  refine answers_bisect h (Nat.zero_le _) (Nat.le_refl _) ?_ ?_
  · intro x hx
    cases hx
  · intro x hx
    rw [List.drop_length] at hx
    cases hx

/-! ## Lookups by search -/

def next? (w : Word) : Option Word :=
  if w = BitVec.allOnes 32 then none else some (w + 1)

def previous? (w : Word) : Option Word :=
  if w = 0 then none else some (w - 1)

def before? (l : List β) : Nat → Option β
  | 0 => none
  | place + 1 => l[place]?

/-- The first address after a neighbour. A gap without a neighbour below it starts at zero. -/
def startAfter? : Option (Interval × α) → Option Word
  | some e => next? e.1.last
  | none => some 0

def endBefore? : Option (Interval × α) → Option Word
  | some e => previous? e.1.first
  | none => some (BitVec.allOnes 32)

/--
The gap between two neighbours, as computed from their bounds. There is no result where an address
beyond the address space would be needed, or where the bounds would not be in order.
-/
def gapBetween? (below above : Option (Interval × α)) : Option Interval := do
  let first ← startAfter? below
  let last ← endBefore? above
  (Interval.ofBounds first last).toOption

/-- The lookup of `a` by a search among the entries, and from the neighbours of its place. -/
def lookupBy? (search : (Interval × α → Ordering) → List (Interval × α) → SearchResult)
    (m : MemoryMap α) (a : Word) : Option (Interval × Option α) :=
  match search (fun e => e.1.order a) m.entries with
  | .found place => m.entries[place]?.map fun e => (e.1, some e.2)
  | .missing place =>
      (gapBetween? (before? m.entries place) m.entries[place]?).map fun g => (g, none)

theorem next?_of_lt {w a : Word} (h : w < a) : next? w = some (w + 1) := by
  unfold next?
  rw [if_neg]
  rintro rfl
  exact BitVec.not_lt.mpr (le_last_address a) h

theorem previous?_of_lt {a w : Word} (h : a < w) : previous? w = some (w - 1) := by
  unfold previous?
  rw [if_neg]
  rintro rfl
  exact Nat.not_lt_zero _ h

/-- The order of the entries as seen from an address fits the search. -/
theorem graded_entries (m : MemoryMap α) (a : Word) :
    Graded (fun e => e.1.order a) m.entries := by
  refine m.ascending.imp ?_
  intro e f hef
  have he := e.1.first_le_last
  have hf := f.1.first_le_last
  simp only [Interval.order_eq_lt_iff, Interval.order_eq_gt_iff, BitVec.le_def, BitVec.lt_def] at *
  omega

/-- The first address of a gap: nothing below it overflows, and all entries before it lie below. -/
theorem startAfter?_before {m : MemoryMap α} {a : Word} {place : Nat}
    (hplace : place ≤ m.entries.length) (hsmall : ∀ e ∈ m.entries.take place, e.1.last < a) :
    ∃ first, startAfter? (before? m.entries place) = some first ∧ first ≤ a ∧
      (first = 0 ∨ ∃ e ∈ m.entries, e.1.last.toNat + 1 = first.toNat) ∧
      ∀ e ∈ m.entries.take place, e.1.last < first := by
  cases place with
  | zero =>
      refine ⟨0, rfl, Nat.zero_le _, .inl rfl, ?_⟩
      intro e he
      cases he
  | succ place =>
      have hget := List.getElem?_eq_getElem hplace
      have hmem := List.mem_of_getElem? hget
      generalize m.entries[place] = e at hget hmem
      have htake : m.entries.take (place + 1) = m.entries.take place ++ [e] := by
        rw [List.take_add_one, hget, Option.toList_some]
      rw [htake] at hsmall ⊢
      have hlast : e.1.last < a := hsmall e (by simp)
      have hsucc := toNat_succ_of_lt hlast
      refine ⟨e.1.last + 1, ?_, succ_le_of_lt hlast, .inr ⟨e, hmem, hsucc.symm⟩, ?_⟩
      · rw [before?, hget]
        exact next?_of_lt hlast
      · have hpair := List.Pairwise.sublist (List.take_sublist (place + 1) m.entries) m.ascending
        rw [htake] at hpair
        intro f hf
        have hentry := e.1.first_le_last
        rcases List.mem_append.mp hf with hbelow | hself
        · have hapart := (List.pairwise_append.mp hpair).2.2 f hbelow e (by simp)
          simp only [BitVec.le_def, BitVec.lt_def] at *
          omega
        · rw [List.mem_singleton.mp hself, BitVec.lt_def]
          omega

/-- The last address of a gap: nothing above it overflows, and all entries after it lie above. -/
theorem endBefore?_at {m : MemoryMap α} {a : Word} {place : Nat}
    (hlarge : ∀ e ∈ m.entries.drop place, a < e.1.first) :
    ∃ last, endBefore? m.entries[place]? = some last ∧ a ≤ last ∧
      (last = BitVec.allOnes 32 ∨ ∃ e ∈ m.entries, last.toNat + 1 = e.1.first.toNat) ∧
      ∀ e ∈ m.entries.drop place, last < e.1.first := by
  cases hget : m.entries[place]? with
  | none =>
      refine ⟨BitVec.allOnes 32, rfl, le_last_address a, .inl rfl, ?_⟩
      intro e he
      rw [List.drop_eq_nil_of_le (List.getElem?_eq_none_iff.mp hget)] at he
      cases he
  | some e =>
      obtain ⟨hplace, heq⟩ := List.getElem?_eq_some_iff.mp hget
      have hdrop : m.entries.drop place = e :: m.entries.drop (place + 1) := by
        rw [List.drop_eq_getElem_cons hplace, heq]
      rw [hdrop] at hlarge ⊢
      have hfirst : a < e.1.first := hlarge e List.mem_cons_self
      have hpred := toNat_pred_of_lt hfirst
      refine ⟨e.1.first - 1, previous?_of_lt hfirst, le_pred_of_lt (Nat.le_refl _) hfirst,
        .inr ⟨e, List.mem_of_getElem? hget, hpred⟩, ?_⟩
      have hpair := List.Pairwise.sublist (List.drop_sublist place m.entries) m.ascending
      rw [hdrop] at hpair
      intro f hf
      have hentry := e.1.first_le_last
      cases hf with
      | head =>
          rw [BitVec.lt_def]
          omega
      | tail _ hf =>
          have hapart := (List.pairwise_cons.mp hpair).1 f hf
          simp only [BitVec.le_def, BitVec.lt_def] at *
          omega

/-- Between the entries below an address and those above it lies the gap around it. -/
theorem isGap_gapBetween? {m : MemoryMap α} {a : Word} {place : Nat}
    (hplace : place ≤ m.entries.length) (hsmall : ∀ e ∈ m.entries.take place, e.1.last < a)
    (hlarge : ∀ e ∈ m.entries.drop place, a < e.1.first) :
    ∃ g, gapBetween? (before? m.entries place) m.entries[place]? = some g ∧
      IsGap m.entries a g := by
  obtain ⟨first, hstart, hfirst, hlower, hbelow⟩ := startAfter?_before hplace hsmall
  obtain ⟨last, hend, hlast, hupper, habove⟩ := endBefore?_at hlarge
  have hle : first ≤ last := Nat.le_trans hfirst hlast
  refine ⟨⟨first, last, hle⟩, ?_, ?_⟩
  · simp [gapBetween?, hstart, hend, Interval.ofBounds, hle, Except.toOption]
  · refine
      { around := (Interval.contains_eq_true_iff _ _).mpr ⟨hfirst, hlast⟩
        clear := ?_
        lower := hlower
        upper := hupper }
    intro e he
    rw [← List.take_append_drop place m.entries] at he
    rcases List.mem_append.mp he with he | he
    · exact fun hmeets => Interval.not_meets_of_lt (hbelow e he) hmeets.symm
    · exact Interval.not_meets_of_lt (habove e he)

/-- Whichever way the search goes, the lookup ends with the interval or the gap around `a`. -/
theorem lookupBy?_eq {search : (Interval × α → Ordering) → List (Interval × α) → SearchResult}
    (hsearch : IsSearch search) (m : MemoryMap α) (a : Word) :
    m.lookupBy? search a = some (m.lookup a) := by
  unfold lookupBy?
  have hanswers := hsearch _ _ (m.graded_entries a)
  generalize search (fun e => e.1.order a) m.entries = result at hanswers
  cases hanswers with
  | found hx hfits =>
      have haround := Interval.order_eq_eq_iff.mp hfits
      simp only [hx, Option.map_some]
      rw [lookup_of_mem (List.mem_of_getElem? hx) haround]
  | missing hplace hsmall hlarge =>
      obtain ⟨g, hgap, hg⟩ := isGap_gapBetween? hplace
        (fun e he => Interval.order_eq_lt_iff.mp (hsmall e he))
        (fun e he => Interval.order_eq_gt_iff.mp (hlarge e he))
      simp only [hgap, Option.map_some]
      rw [lookup_eq_gap_iff.mpr hg]

/--
A list of intervals makes a memory map if, and only if, no two of them meet, and otherwise two
entries that really meet are reported. A lookup in the map returns the listed interval around an
address, with its value. Outside all intervals it returns the gap around the address, which meets
none of them, reaches on both sides to the next one or to the end of the address space, and is the
widest interval of this kind. A search of any kind, as long as its results are right, leads to the
same: no address beyond the address space is ever needed for the bounds of a gap, and these are
always in order.
-/
theorem lookup_finds_entry_or_gap (entries : List (Interval × α)) :
    ((∃ m, ofList entries = .ok m) ↔ entries.Pairwise fun e f => ¬ e.1.Meets f.1) ∧
      (∀ o, ofList entries = .error o →
        ∃ v w, [(o.lower, v), (o.upper, w)].Subperm entries ∧ o.lower.Meets o.upper) ∧
      ∀ m, ofList entries = .ok m → ∀ a,
        (∀ i v, m.lookup a = (i, some v) ↔ (i, v) ∈ entries ∧ i.contains a = true) ∧
        (∀ g, m.lookup a = (g, none) ↔ IsGap entries a g) ∧
        (∀ g h : Interval, IsGap entries a g → h.contains a = true → (∀ e ∈ entries, ¬ h.Meets e.1) →
          g.first ≤ h.first ∧ h.last ≤ g.last) ∧
        ∀ search, IsSearch search → m.lookupBy? search a = some (m.lookup a) := by
  refine ⟨exists_ofList_iff entries, fun o => meets_of_ofList_eq_error, ?_⟩
  intro m hm a
  have hmem := mem_entries_of_ofList hm
  refine ⟨?_, ?_, fun g h hg => hg.widest, fun search hsearch => lookupBy?_eq hsearch m a⟩
  · intro i v
    rw [lookup_eq_entry_iff, hmem]
  · intro g
    rw [lookup_eq_gap_iff, IsGap.congr hmem]

def outermost : List (Interval × Nat) :=
  [(⟨0xFFFFFF00, 0xFFFFFFFF, by decide⟩, 0), (⟨0x100, 0x1FF, by decide⟩, 1),
    (⟨0, 0xFF, by decide⟩, 2)]

/-- Between them lies one gap, and an interval that starts in one of them is refused. -/
theorem lookup_finds_entry_or_gap_outermost :
    (∃ m, ofList outermost = .ok m ∧ m.lookup 0x1FF = (⟨0x100, 0x1FF, by decide⟩, some 1) ∧
        m.lookup 0x200 = (⟨0x200, 0xFFFFFEFF, by decide⟩, none) ∧
        m.lookupBy? binarySearch 0x200 = some (⟨0x200, 0xFFFFFEFF, by decide⟩, none)) ∧
      ¬ ∃ m, ofList ((⟨0x1FF, 0x1FF, by decide⟩, 3) :: outermost) = .ok m := by
  obtain ⟨hmap, -, hlookup⟩ := lookup_finds_entry_or_gap outermost
  obtain ⟨hrefused, -, -⟩ :=
    lookup_finds_entry_or_gap ((⟨0x1FF, 0x1FF, by decide⟩, 3) :: outermost)
  obtain ⟨m, hm⟩ := hmap.mpr (by decide)
  obtain ⟨hentry, -, -, -⟩ := hlookup m hm 0x1FF
  obtain ⟨-, hgap, -, hsearch⟩ := hlookup m hm 0x200
  have hfound : m.lookup 0x200 = (⟨0x200, 0xFFFFFEFF, by decide⟩, none) :=
    (hgap _).mpr
      { around := by decide, clear := by decide, lower := by decide, upper := by decide }
  refine ⟨⟨m, hm, (hentry _ 1).mpr (by decide), hfound, ?_⟩, mt hrefused.mp (by decide)⟩
  rw [hsearch binarySearch isSearch_binarySearch, hfound]

end MemoryMap

end Rv32
