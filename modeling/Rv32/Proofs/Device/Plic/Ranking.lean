import Mathlib.Data.List.FinRange
import Rv32.Proofs.Device.Plic.Gateway

/-! # The order of claims

Of the sources that a context may claim, those of higher priority go before
those of lower priority, and among equal ones the number decides. A claim takes
the first source in this order, and the line of the context is high as long as
there is one. So a context that claims again and again gets all of them in
order, and zero after the last one.
-/

namespace Rv32

namespace Plic

/-! ## Ranks -/

/-- What context `c` may claim: pending, enabled for it, and of a priority above its threshold. -/
structure Claimable (p : Plic) (c : Fin 2) (s : Fin 64) : Prop where
  pending : p.pending.has s = true
  enabled : (p.enabled.get c).has s = true
  above : p.thresholds.get c < p.priorities.get s

/-- `s` has the higher priority, or the same one and the lower number. -/
def Precedes (p : Plic) (s t : Fin 64) : Prop :=
  p.priorities.get t < p.priorities.get s ∨ p.priorities.get s = p.priorities.get t ∧ s < t

instance (p : Plic) (s t : Fin 64) : Decidable (p.Precedes s t) :=
  inferInstanceAs (Decidable (_ ∨ _))

structure Best (p : Plic) (c : Fin 2) (s : Fin 64) : Prop where
  claimable : p.Claimable c s
  first : ∀ t, p.Claimable c t → t ≠ s → p.Precedes s t

structure Claimed (p : Plic) (s : Fin 64) (next : Plic) : Prop where
  pending : ∀ t, next.pending.has t = if s = t then false else p.pending.has t
  inService : ∀ t, next.inService.has t = if s = t then true else p.inService.has t
  kept : next = { p with pending := next.pending, inService := next.inService }

def replies (p : Plic) (n : Nat) : Nat → List Word
  | 0 => []
  | k + 1 => (p.claim n).1 :: (p.claim n).2.replies n k

variable {p : Plic} {c : Fin 2}

theorem isClaimable_iff {s : Fin 64} : p.isClaimable c s = true ↔ p.Claimable c s := by
  unfold isClaimable
  simp only [Bool.and_eq_true, decide_eq_true_eq]
  constructor
  · rintro ⟨⟨hpending, henabled⟩, habove⟩
    exact ⟨hpending, henabled, habove⟩
  · intro h
    exact ⟨⟨h.pending, h.enabled⟩, h.above⟩

theorem mem_filter_isClaimable {s : Fin 64} :
    s ∈ (List.finRange 64).filter (p.isClaimable c) ↔ p.Claimable c s := by
  rw [List.mem_filter, isClaimable_iff]
  exact and_iff_right (List.mem_finRange s)

theorem Precedes.trans {s t u : Fin 64} (h : p.Precedes s t) (h' : p.Precedes t u) :
    p.Precedes s u := by
  unfold Precedes at *
  omega

theorem not_precedes_self (p : Plic) (s : Fin 64) : ¬ p.Precedes s s := by
  unfold Precedes
  omega

/-- Of two different sources one precedes the other. -/
theorem precedes_of_not_precedes {s t : Fin 64} (hne : s ≠ t) (h : ¬ p.Precedes t s) :
    p.Precedes s t := by
  unfold Precedes at *
  omega

theorem Best.unique {s t : Fin 64} (hs : p.Best c s) (ht : p.Best c t) : s = t := by
  by_contra hne
  exact p.not_precedes_self s
    ((hs.first t ht.claimable (Ne.symm hne)).trans (ht.first s hs.claimable hne))

/-! ## The best candidate -/

/-- What precedes all others of a list precedes whatever comes after one of them. -/
theorem Precedes.of_first {sources : List (Fin 64)} {s t u : Fin 64}
    (hfirst : ∀ t ∈ sources, t ≠ s → p.Precedes s t) (ht : t ∈ sources) (h : p.Precedes t u) :
    p.Precedes s u := by
  by_cases hts : t = s
  · exact hts ▸ h
  · exact (hfirst t ht hts).trans h

/-- The sources come in ascending order, so the running best precedes all that have been seen. -/
theorem foldl_better_some {sources : List (Fin 64)} {b : Fin 64}
    (hsorted : (b :: sources).Pairwise (· < ·)) :
    ∃ s ∈ b :: sources, sources.foldl p.better (some b) = some s ∧
      ∀ t ∈ b :: sources, t ≠ s → p.Precedes s t := by
  induction sources generalizing b with
  | nil =>
      refine ⟨b, List.mem_cons_self, rfl, ?_⟩
      intro t ht hne
      exact absurd (List.mem_singleton.mp ht) hne
  | cons u rest ih =>
      obtain ⟨hb, hrest⟩ := List.pairwise_cons.mp hsorted
      have hbu : b < u := hb u List.mem_cons_self
      simp only [List.foldl_cons, better]
      split
      · -- The new source takes over. What precedes it precedes the old best as well.
        rename_i hlt
        have hub : p.Precedes u b := .inl hlt
        obtain ⟨s, hs, hfold, hfirst⟩ := ih hrest
        refine ⟨s, List.mem_cons_of_mem b hs, hfold, ?_⟩
        intro t ht hne
        rcases List.mem_cons.mp ht with rfl | ht
        · exact hub.of_first hfirst List.mem_cons_self
        · exact hfirst t ht hne
      · rename_i hge
        have hbu' : p.Precedes b u := by
          have hle : ¬ p.priorities.get b < p.priorities.get u := hge
          unfold Precedes
          omega
        obtain ⟨s, hs, hfold, hfirst⟩ := ih (b := b)
          (List.pairwise_cons.mpr
            ⟨fun t ht => hb t (List.mem_cons_of_mem u ht), (List.pairwise_cons.mp hrest).2⟩)
        refine ⟨s, ?_, hfold, ?_⟩
        · rcases List.mem_cons.mp hs with rfl | hs
          · exact List.mem_cons_self
          · exact List.mem_cons_of_mem b (List.mem_cons_of_mem u hs)
        · intro t ht hne
          rcases List.mem_cons.mp ht with rfl | ht
          · exact hfirst t List.mem_cons_self hne
          · rcases List.mem_cons.mp ht with rfl | ht
            · exact hbu'.of_first hfirst List.mem_cons_self
            · exact hfirst t (List.mem_cons_of_mem b ht) hne

theorem exists_best (h : ∃ s, p.Claimable c s) : ∃ s, p.candidate? c = some s ∧ p.Best c s := by
  have hsorted : ((List.finRange 64).filter (p.isClaimable c)).Pairwise (· < ·) :=
    (List.pairwise_lt_finRange 64).filter _
  unfold candidate?
  cases hlist : (List.finRange 64).filter (p.isClaimable c) with
  | nil =>
      obtain ⟨s, hs⟩ := h
      rw [← mem_filter_isClaimable, hlist] at hs
      cases hs
  | cons b rest =>
      rw [hlist] at hsorted
      obtain ⟨s, hs, hfold, hfirst⟩ := foldl_better_some (p := p) hsorted
      rw [← hlist, mem_filter_isClaimable] at hs
      refine ⟨s, hfold, hs, ?_⟩
      intro t ht hne
      rw [← mem_filter_isClaimable, hlist] at ht
      exact hfirst t ht hne

theorem candidate?_eq_none_iff : p.candidate? c = none ↔ ¬ ∃ s, p.Claimable c s := by
  rw [← Option.not_isSome_iff_eq_none, isSome_candidate?_iff]
  simp only [isClaimable_iff]

theorem candidate?_of_best {s : Fin 64} (hs : p.Best c s) : p.candidate? c = some s := by
  obtain ⟨t, hcandidate, ht⟩ := exists_best ⟨s, hs.claimable⟩
  rw [hcandidate, ht.unique hs]

/-! ## Claims -/

theorem claim_of_best {s : Fin 64} (hs : p.Best c s) :
    (p.claim c.val).1 = BitVec.ofNat 32 s.val ∧ p.Claimed s (p.claim c.val).2 := by
  rw [claim_of_some (candidate?_of_best hs)]
  exact ⟨rfl,
    { pending := fun t => SourceSet.has_put _ _ _ _
      inService := fun t => SourceSet.has_put _ _ _ _
      kept := rfl }⟩

theorem claim_of_nothing (h : ¬ ∃ s, p.Claimable c s) : p.claim c.val = (0, p) :=
  claim_of_none (candidate?_eq_none_iff.mpr h)

/-- A context number that there is not finds nothing. -/
theorem claim_of_no_context {n : Nat} (h : 2 ≤ n) :
    p.contextLine n = false ∧ p.claim n = (0, p) := by
  have hnone : context? n = none := by
    unfold context?
    rw [dif_neg (Nat.not_lt.mpr h)]
  constructor
  · simp only [contextLine, hnone]
  · simp only [claim, hnone, Option.bind_none]

theorem Claimed.precedes_iff {s t u : Fin 64} {next : Plic} (h : p.Claimed s next) :
    next.Precedes t u ↔ p.Precedes t u := by
  rw [h.kept]
  exact Iff.rfl

/-- A claim takes its source away and leaves the others. -/
theorem Claimed.claimable_iff {s t : Fin 64} {next : Plic} (h : p.Claimed s next) :
    next.Claimable c t ↔ s ≠ t ∧ p.Claimable c t := by
  have hpending := h.pending t
  have hkept := h.kept
  constructor
  · intro hnext
    have hbit := hnext.pending
    rw [hpending] at hbit
    have hne : s ≠ t := by
      intro hst
      rw [if_pos hst] at hbit
      cases hbit
    rw [if_neg hne] at hbit
    refine ⟨hne, { pending := hbit, enabled := ?_, above := ?_ }⟩
    · have henabled := hnext.enabled
      rw [hkept] at henabled
      exact henabled
    · have habove := hnext.above
      rw [hkept] at habove
      exact habove
  · rintro ⟨hne, hclaimable⟩
    rw [if_neg hne] at hpending
    refine { pending := hpending.trans hclaimable.pending, enabled := ?_, above := ?_ }
    · rw [hkept]
      exact hclaimable.enabled
    · rw [hkept]
      exact hclaimable.above

/-! ## Claims in a row -/

/-- The sources that a context may claim can be put in order. -/
theorem exists_ranking (p : Plic) (c : Fin 2) :
    ∃ sources : List (Fin 64), sources.Pairwise p.Precedes ∧
      ∀ s, s ∈ sources ↔ p.Claimable c s := by
  let claimable := (List.finRange 64).filter (p.isClaimable c)
  let sources := claimable.mergeSort fun s t => decide (¬ p.Precedes t s)
  have hsorted : sources.Pairwise fun s t => decide (¬ p.Precedes t s) = true := by
    apply List.pairwise_mergeSort
    · intro s t u hst htu
      simp only [decide_eq_true_eq] at *
      unfold Precedes at *
      omega
    · intro s t
      simp only [Bool.or_eq_true, decide_eq_true_eq]
      unfold Precedes
      omega
  have hperm : sources.Perm claimable := List.mergeSort_perm _ _
  have hnodup : sources.Nodup := hperm.nodup_iff.mpr ((List.nodup_finRange 64).filter _)
  refine ⟨sources, (hsorted.and hnodup).imp ?_, ?_⟩
  · rintro s t ⟨hnot, hne⟩
    exact precedes_of_not_precedes hne (of_decide_eq_true hnot)
  · intro s
    rw [hperm.mem_iff]
    exact mem_filter_isClaimable

theorem replies_of_nothing (h : ¬ ∃ s, p.Claimable c s) (k : Nat) :
    p.replies c.val k = List.replicate k 0 := by
  induction k with
  | zero => rfl
  | succ k ih => rw [replies, claim_of_nothing h, ih, List.replicate_succ]

/-- Each claim takes the head of what is left of the ranking. -/
theorem replies_of_ranking {sources : List (Fin 64)} (hsorted : sources.Pairwise p.Precedes)
    (hmem : ∀ s, s ∈ sources ↔ p.Claimable c s) (k : Nat) :
    p.replies c.val k =
      (sources.take k).map (fun s => BitVec.ofNat 32 s.val) ++
        List.replicate (k - sources.length) 0 := by
  induction sources generalizing p k with
  | nil =>
      have hnone : ¬ ∃ s, p.Claimable c s := by
        rintro ⟨s, hs⟩
        cases (hmem s).mpr hs
      rw [replies_of_nothing hnone]
      simp
  | cons s rest ih =>
      obtain ⟨hs, hrest⟩ := List.pairwise_cons.mp hsorted
      have hbest : p.Best c s :=
        { claimable := (hmem s).mp List.mem_cons_self
          first := fun t ht hne =>
            hs t ((List.mem_cons.mp ((hmem t).mpr ht)).resolve_left hne) }
      obtain ⟨hreply, hclaimed⟩ := claim_of_best hbest
      have hleft (t : Fin 64) : t ∈ rest ↔ (p.claim c.val).2.Claimable c t := by
        rw [hclaimed.claimable_iff, ← hmem, List.mem_cons]
        constructor
        · intro ht
          refine ⟨?_, .inr ht⟩
          rintro rfl
          exact p.not_precedes_self s (hs s ht)
        · rintro ⟨hne, ht⟩
          exact ht.resolve_left (Ne.symm hne)
      cases k with
      | zero => simp [replies]
      | succ k =>
          rw [replies, hreply, ih (hrest.imp hclaimed.precedes_iff.mpr) hleft]
          simp

/--
After every run of operations, the line of a context is high exactly if some source is pending,
enabled for it and of a priority above its threshold. A claim of the context then returns the one
with the highest priority, of several such sources the one with the lowest number. It takes the
source from the pending ones to those in service and changes nothing else. While the line is low a
claim returns zero and changes nothing, and so does every claim of a context that there is not.
Claims made one right after the other return all those sources, each one before all that have a
lower priority, or the same one and a higher number, and from then on zero.
-/
theorem claims_optimal (ops : List Operation) :
    let p := reset.play ops
    (∀ c : Fin 2,
      (p.contextLine c.val = true ↔ ∃ s, p.Claimable c s) ∧
      (p.contextLine c.val = true → ∃ s, p.Best c s ∧ s ≠ 0 ∧
        (p.claim c.val).1 = BitVec.ofNat 32 s.val ∧ p.Claimed s (p.claim c.val).2) ∧
      (p.contextLine c.val = false → p.claim c.val = (0, p)) ∧
      ∃ sources : List (Fin 64), sources.Pairwise p.Precedes ∧
        (∀ s, s ∈ sources ↔ p.Claimable c s) ∧ 0 ∉ sources ∧
        ∀ k, p.replies c.val k =
          (sources.take k).map (fun s => BitVec.ofNat 32 s.val) ++
            List.replicate (k - sources.length) 0) ∧
      ∀ n, 2 ≤ n → p.contextLine n = false ∧ p.claim n = (0, p) := by
  intro p
  have hp : p.Gated := gated_reset.play ops
  have hnonzero {c : Fin 2} {s : Fin 64} (hs : p.Claimable c s) : s ≠ 0 :=
    (hp.of_isClaimable (isClaimable_iff.mpr hs)).2.2
  have hline (c : Fin 2) : p.contextLine c.val = true ↔ ∃ s, p.Claimable c s := by
    rw [contextLine_iff]
    simp only [isClaimable_iff]
  refine ⟨fun c => ⟨hline c, ?_, ?_, ?_⟩, fun n => claim_of_no_context⟩
  · intro hhigh
    obtain ⟨s, -, hs⟩ := exists_best ((hline c).mp hhigh)
    exact ⟨s, hs, hnonzero hs.claimable, claim_of_best hs⟩
  · intro hlow
    refine claim_of_nothing ?_
    rw [← hline c, hlow]
    exact Bool.false_ne_true
  · obtain ⟨sources, hsorted, hmem⟩ := p.exists_ranking c
    exact ⟨sources, hsorted, hmem, fun h => hnonzero ((hmem 0).mp h) rfl,
      replies_of_ranking hsorted hmem⟩

def tiedRun : List Operation :=
  [.writeWord 0x0C 2, .writeWord 0x14 6, .writeWord 0x1C 6, .writeWord 0x2000 0xFFFFFFFF,
    .setLevel 3 true, .setLevel 7 true, .setLevel 5 true]

theorem claims_optimal_tied :
    (reset.play tiedRun).contextLine 0 = true ∧
      (∃ s, (reset.play tiedRun).Best 0 s ∧ s ≠ 0 ∧
        ((reset.play tiedRun).claim 0).1 = BitVec.ofNat 32 s.val ∧
        (reset.play tiedRun).Claimed s ((reset.play tiedRun).claim 0).2) ∧
      (reset.play tiedRun).claim 2 = (0, reset.play tiedRun) ∧
      (reset.play tiedRun).replies 0 4 = [5, 7, 3, 0] := by
  have hhigh : (reset.play tiedRun).contextLine 0 = true := by decide +kernel
  obtain ⟨hcontext, hother⟩ := claims_optimal tiedRun
  obtain ⟨-, hbest, -, -⟩ := hcontext 0
  exact ⟨hhigh, hbest hhigh, (hother 2 (Nat.le_refl 2)).2, by decide +kernel⟩

end Plic

end Rv32
