import Rv32.Device.Plic

/-! # The interrupt controller

A context's line is up exactly when the context may claim some source, and a
claim takes one that may be claimed. A source becomes pending only by its line,
so of a controller to which one line is connected no other source is ever
claimed, whatever software writes to its registers.
-/

namespace Rv32

theorem SourceSet.has_zero (s : Fin 64) : SourceSet.has 0 s = false :=
  BitVec.getLsbD_zero

theorem SourceSet.has_put_self (set : SourceSet) (s : Fin 64) (member : Bool) :
    (set.put s member).has s = member := by
  rw [has_put, if_pos rfl]

namespace Plic

/-! ## Claims -/

theorem isSome_better (p : Plic) (best : Option (Fin 64)) (s : Fin 64) :
    (p.better best s).isSome = true := by
  cases best with
  | none => rfl
  | some b =>
      simp only [better]
      split
      · rfl
      · rfl

theorem isSome_foldl_better (p : Plic) (sources : List (Fin 64)) (best : Option (Fin 64)) :
    (sources.foldl p.better best).isSome = true ↔ best.isSome = true ∨ sources ≠ [] := by
  induction sources generalizing best with
  | nil => simp
  | cons s rest ih =>
      rw [List.foldl_cons, ih]
      have hbetter := p.isSome_better best s
      constructor
      · intro _
        exact .inr (List.cons_ne_nil s rest)
      · intro _
        exact .inl hbetter

theorem better_eq_some {p : Plic} {best : Option (Fin 64)} {s t : Fin 64}
    (h : p.better best s = some t) : best = some t ∨ t = s := by
  cases best with
  | none =>
      cases h
      exact .inr rfl
  | some b =>
      simp only [better] at h
      split at h
      · cases h
        exact .inr rfl
      · cases h
        exact .inl rfl

theorem mem_of_foldl_better {p : Plic} {sources : List (Fin 64)} {best : Option (Fin 64)}
    {t : Fin 64} (h : sources.foldl p.better best = some t) : best = some t ∨ t ∈ sources := by
  induction sources generalizing best with
  | nil => exact .inl h
  | cons s rest ih =>
      rw [List.foldl_cons] at h
      rcases ih h with hbetter | hrest
      · rcases better_eq_some hbetter with hbest | rfl
        · exact .inl hbest
        · exact .inr List.mem_cons_self
      · exact .inr (List.mem_cons_of_mem s hrest)

theorem isClaimable_of_candidate? {p : Plic} {c : Fin 2} {s : Fin 64}
    (h : p.candidate? c = some s) : p.isClaimable c s = true := by
  rcases mem_of_foldl_better h with hnone | hmem
  · cases hnone
  · exact (List.mem_filter.mp hmem).2

theorem isSome_candidate?_iff (p : Plic) (c : Fin 2) :
    (p.candidate? c).isSome = true ↔ ∃ s, p.isClaimable c s = true := by
  constructor
  · intro h
    obtain ⟨s, hs⟩ := Option.isSome_iff_exists.mp h
    exact ⟨s, isClaimable_of_candidate? hs⟩
  · rintro ⟨s, hs⟩
    have hmem : s ∈ (List.finRange 64).filter (p.isClaimable c) :=
      List.mem_filter.mpr ⟨List.mem_finRange s, hs⟩
    unfold candidate?
    rw [isSome_foldl_better]
    exact .inr (List.ne_nil_of_mem hmem)

theorem context?_val (c : Fin 2) : context? c.val = some c := by
  unfold context?
  rw [dif_pos c.isLt]

theorem contextLine_iff (p : Plic) (c : Fin 2) :
    p.contextLine c.val = true ↔ ∃ s, p.isClaimable c s = true := by
  rw [← isSome_candidate?_iff]
  unfold contextLine
  rw [context?_val]

theorem claim_of_none {p : Plic} {c : Fin 2} (h : p.candidate? c = none) :
    p.claim c.val = (0, p) := by
  unfold claim
  rw [context?_val, Option.bind_some, h]

theorem claim_of_some {p : Plic} {c : Fin 2} {s : Fin 64} (h : p.candidate? c = some s) :
    p.claim c.val =
      (BitVec.ofNat 32 s.val,
        { p with pending := p.pending.put s false, inService := p.inService.put s true }) := by
  unfold claim
  rw [context?_val, Option.bind_some, h]

/-! ## A controller with one line -/

structure OnlySource (p : Plic) (n : Nat) : Prop where
  level : ∀ s, p.levels.has s = true → s.val = n
  pending : ∀ s, p.pending.has s = true → s.val = n

theorem onlySource_reset (n : Nat) : reset.OnlySource n := by
  constructor
  · intro s hs
    rw [show reset.levels.has s = false from SourceSet.has_zero s] at hs
    cases hs
  · intro s hs
    rw [show reset.pending.has s = false from SourceSet.has_zero s] at hs
    cases hs

theorem source?_eq_some {n : Nat} {s : Fin 64} (h : source? n = some s) : s.val = n := by
  unfold source? at h
  split at h
  · cases h
    rfl
  · cases h

/-- A set of which only source `n` can be a member stays so when `n` or nothing is put in. -/
theorem has_put_only {set : SourceSet} {n : Nat} (hset : ∀ t, set.has t = true → t.val = n)
    {s : Fin 64} {member : Bool} (hs : member = true → s.val = n) :
    ∀ t, (set.put s member).has t = true → t.val = n := by
  intro t ht
  rw [SourceSet.has_put] at ht
  split at ht
  · rename_i hst
    subst hst
    exact hs ht
  · exact hset t ht

theorem OnlySource.setLevel {p : Plic} {n : Nat} (hp : p.OnlySource n) (level : Bool) :
    (p.setLevel n level).OnlySource n := by
  unfold Plic.setLevel
  cases hs : source? n with
  | none => exact hp
  | some s =>
      have hval := source?_eq_some hs
      exact
        { level := has_put_only hp.level fun _ => hval
          pending := has_put_only hp.pending fun _ => hval }

theorem OnlySource.claim {p : Plic} {n : Nat} (hp : p.OnlySource n) (c : Fin 2) :
    (p.claim c.val).2.OnlySource n := by
  cases hc : p.candidate? c with
  | none =>
      rw [claim_of_none hc]
      exact hp
  | some s =>
      rw [claim_of_some hc]
      exact { level := hp.level, pending := has_put_only hp.pending (fun h => by cases h) }

theorem OnlySource.complete {p : Plic} {n : Nat} (hp : p.OnlySource n) (k : Nat) :
    (p.complete k).OnlySource n := by
  unfold Plic.complete
  split
  · exact hp
  · split
    · exact { level := hp.level, pending := has_put_only hp.pending (hp.level _) }
    · exact hp

theorem OnlySource.candidate {p : Plic} {n : Nat} (hp : p.OnlySource n) {c : Fin 2}
    {s : Fin 64} (h : p.candidate? c = some s) : s.val = n := by
  have hclaimable := isClaimable_of_candidate? h
  simp only [isClaimable, Bool.and_eq_true] at hclaimable
  exact hp.pending s hclaimable.1.1

/-- Whenever some source can be claimed, a claim returns the number of the one line. -/
theorem OnlySource.claim_eq {p : Plic} {n : Nat} (hp : p.OnlySource n) {c : Fin 2}
    (h : ∃ s, p.isClaimable c s = true) : (p.claim c.val).1 = BitVec.ofNat 32 n := by
  rw [← isSome_candidate?_iff] at h
  obtain ⟨s, hs⟩ := Option.isSome_iff_exists.mp h
  rw [claim_of_some hs, hp.candidate hs]

/-! ## Register accesses -/

theorem readWord_cases {p after : Plic} {offset v : Word}
    (h : p.readWord offset = .ok (v, after)) :
    after = p ∨ ∃ c : Fin 2, (v, after) = p.claim c.val := by
  unfold readWord at h
  split at h
  · cases h
    exact .inl rfl
  · cases h
    exact .inl rfl
  · cases h
    exact .inl rfl
  · cases h
    exact .inl rfl
  · rename_i c _
    exact .inr ⟨c, (Except.ok.inj h).symm⟩
  · cases h

/-- A read changes the controller only by a claim, the answer to which is the word read. -/
theorem read_cases (p : Plic) (offset : Word) (size : Nat) :
    (Bus.read p offset size).2 = p ∨
      ∃ c : Fin 2, Bus.read p offset size = (leBytes 4 (p.claim c.val).1, (p.claim c.val).2) := by
  simp only [Bus.read]
  cases hfetch : p.fetch offset size with
  | error e => exact .inl rfl
  | ok result =>
      obtain ⟨v, after⟩ := result
      have hread : p.readWord offset = .ok (v, after) := by
        unfold fetch at hfetch
        split at hfetch
        · exact hfetch
        · cases hfetch
      rcases readWord_cases hread with rfl | ⟨c, hc⟩
      · exact .inl rfl
      · refine .inr ⟨c, ?_⟩
        rw [← hc]

theorem OnlySource.read {p : Plic} {n : Nat} (hp : p.OnlySource n) (offset : Word) (size : Nat) :
    (Bus.read p offset size).2.OnlySource n := by
  rcases p.read_cases offset size with hsame | ⟨c, hc⟩
  · rw [hsame]
    exact hp
  · rw [hc]
    exact hp.claim c

theorem OnlySource.writeWord {p after : Plic} {n : Nat} (hp : p.OnlySource n) {offset v : Word}
    (h : p.writeWord offset v = .ok after) : after.OnlySource n := by
  unfold Plic.writeWord at h
  split at h
  · split at h
    · cases h
      exact hp
    · cases h
      exact ⟨hp.level, hp.pending⟩
  · cases h
  · cases h
    exact ⟨hp.level, hp.pending⟩
  · cases h
    exact ⟨hp.level, hp.pending⟩
  · cases h
    exact hp.complete _
  · cases h

theorem OnlySource.write {p : Plic} {n : Nat} (hp : p.OnlySource n) (offset : Word)
    (bytes : List Byte) : (Bus.write p offset bytes).OnlySource n := by
  simp only [Bus.write]
  cases hstore : p.store offset bytes with
  | error e => exact hp
  | ok after =>
      unfold store at hstore
      split at hstore
      · exact hp.writeWord hstore
      · cases hstore

/-- A read that changes the controller returns the number of the one line, or zero. -/
theorem OnlySource.read_cases {p : Plic} {n : Nat} (hp : p.OnlySource n) (offset : Word)
    (size : Nat) :
    (Bus.read p offset size).2 = p ∨
      (Bus.read p offset size).1 = leBytes 4 (BitVec.ofNat 32 n) := by
  rcases p.read_cases offset size with hsame | ⟨c, hc⟩
  · exact .inl hsame
  · rw [hc]
    cases hcandidate : p.candidate? c with
    | none =>
        rw [claim_of_none hcandidate]
        exact .inl rfl
    | some s =>
        rw [claim_of_some hcandidate, hp.candidate hcandidate]
        exact .inr rfl

end Plic

end Rv32
