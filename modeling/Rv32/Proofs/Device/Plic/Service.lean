import Mathlib.Data.List.Induction
import Rv32.Proofs.Device.Plic.Gateway

/-! # Who has a source in service

Two contexts claim from the same sources. A claim that returns the number of a
source puts it in service for the context that has claimed, until somebody
completes the source. The interrupt controller keeps one bit of this for each
source and does not keep the context. The bit suffices: whatever is done to the
controller, in any order, no source is ever in service twice.
-/

namespace Rv32

namespace Plic

/-! ## Claims and completions -/

/-- The context that an operation claims for, if it is a claim. A claim register can be read. -/
def Operation.claimant? : Operation → Option (Fin 2)
  | claim n => context? n
  | readWord offset =>
      match Register.ofOffset? offset with
      | some (.claim c) => some c
      | _ => none
  | _ => none

/-- The number that is completed, if the operation does so. A claim register can be written. -/
def Operation.completed? : Operation → Option Nat
  | complete n => some n
  | writeWord offset v =>
      match Register.ofOffset? offset with
      | some (.claim _) => some v.toNat
      | _ => none
  | _ => none

def reply? (p : Plic) : Operation → Option Word
  | .claim n => some (p.claim n).1
  | .readWord offset =>
      match p.readWord offset with
      | .ok (v, _) => some v
      | .error _ => none
  | _ => none

/-- The operation is a claim of context `c`, and it returns the number of source `s`. -/
structure Gives (p : Plic) (op : Operation) (c : Fin 2) (s : Fin 64) : Prop where
  claimant : op.claimant? = some c
  reply : p.reply? op = some (BitVec.ofNat 32 s.val)
  source : s ≠ 0

/-- A claim of context `c` in the run has returned source `s`, which has not been completed since. -/
def Serving (ops : List Operation) (c : Fin 2) (s : Fin 64) : Prop :=
  ∃ before op since, ops = before ++ op :: since ∧ (reset.play before).Gives op c s ∧
    ∀ later ∈ since, later.completed? ≠ some s.val

theorem context?_eq_some {n : Nat} {c : Fin 2} (h : context? n = some c) : n = c.val := by
  unfold context? at h
  split at h
  · cases h
    rfl
  · cases h

theorem after_of_claimant {op : Operation} {c : Fin 2} (h : op.claimant? = some c) (p : Plic) :
    p.after op = (p.claim c.val).2 ∧ p.reply? op = some (p.claim c.val).1 := by
  cases op with
  | claim n =>
      rw [context?_eq_some h]
      exact ⟨rfl, rfl⟩
  | readWord offset =>
      simp only [Operation.claimant?] at h
      split at h
      · rename_i hregister
        cases h
        simp only [after, reply?, readWord, hregister, true_and]
      · cases h
  | _ => cases h

theorem after_of_completed {op : Operation} {n : Nat} (h : op.completed? = some n) (p : Plic) :
    p.after op = p.complete n := by
  cases op with
  | complete k =>
      cases h
      rfl
  | writeWord offset v =>
      simp only [Operation.completed?] at h
      split at h
      · rename_i hregister
        cases h
        simp only [after, writeWord, hregister]
      · cases h
  | _ => cases h

theorem completed?_of_claimant {op : Operation} {c : Fin 2} (h : op.claimant? = some c) :
    op.completed? = none := by
  cases op with
  | claim n => rfl
  | readWord offset => rfl
  | _ => cases h

/-- Only claims and completions change what is in service. -/
theorem inService_after_of_other {op : Operation} (hclaim : op.claimant? = none)
    (hcompleted : op.completed? = none) (p : Plic) : (p.after op).inService = p.inService := by
  cases op with
  | setLevel n level =>
      simp only [after, setLevel]
      split
      · rfl
      · rfl
  | claim n =>
      have hnone : context? n = none := hclaim
      simp only [after, claim, hnone, Option.bind_none]
  | complete n => cases hcompleted
  | readWord offset =>
      simp only [Operation.claimant?] at hclaim
      cases hregister : Register.ofOffset? offset with
      | none => simp only [after, readWord, hregister]
      | some r =>
          simp only [hregister] at hclaim
          cases r with
          | claim c => cases hclaim
          | _ => simp only [after, readWord, hregister]
  | writeWord offset v =>
      simp only [Operation.completed?] at hcompleted
      cases hregister : Register.ofOffset? offset with
      | none => simp only [after, writeWord, hregister]
      | some r =>
          simp only [hregister] at hcompleted
          cases r with
          | claim c => cases hcompleted
          | priority s =>
              simp only [after, writeWord, hregister]
              by_cases hs : s = 0
              · simp only [hs, if_true]
              · simp only [hs, if_false]
          | _ => simp only [after, writeWord, hregister]

/-! ## What is in service -/

variable {p : Plic}

theorem eq_of_ofNat_eq {s t : Fin 64} (h : BitVec.ofNat 32 s.val = BitVec.ofNat 32 t.val) :
    s = t := by
  have hval := congrArg BitVec.toNat h
  rw [BitVec.toNat_ofNat, BitVec.toNat_ofNat] at hval
  have hs := s.isLt
  have ht := t.isLt
  exact Fin.ext (by omega)

theorem Gated.gives_iff (hp : p.Gated) {op : Operation} {c : Fin 2} {s : Fin 64} :
    p.Gives op c s ↔ op.claimant? = some c ∧ p.candidate? c = some s := by
  constructor
  · intro h
    refine ⟨h.claimant, ?_⟩
    have hreply := h.reply
    rw [(after_of_claimant h.claimant p).2] at hreply
    cases hcandidate : p.candidate? c with
    | none =>
        rw [claim_of_none hcandidate] at hreply
        have hzero : (0 : Fin 64) = s := eq_of_ofNat_eq (Option.some.inj hreply)
        exact absurd hzero.symm h.source
    | some t =>
        rw [claim_of_some hcandidate] at hreply
        rw [eq_of_ofNat_eq (Option.some.inj hreply)]
  · rintro ⟨hclaim, hcandidate⟩
    refine { claimant := hclaim, reply := ?_, source := ?_ }
    · rw [(after_of_claimant hclaim p).2, claim_of_some hcandidate]
    · exact (hp.of_isClaimable (isClaimable_of_candidate? hcandidate)).2.2

theorem has_inService_claim (p : Plic) (c : Fin 2) (s : Fin 64) :
    (p.claim c.val).2.inService.has s = true ↔
      p.candidate? c = some s ∨ p.inService.has s = true := by
  cases hcandidate : p.candidate? c with
  | none =>
      rw [claim_of_none hcandidate]
      simp
  | some t =>
      rw [claim_of_some hcandidate]
      change (p.inService.put t true).has s = true ↔ _
      rw [SourceSet.has_put]
      by_cases hts : t = s
      · simp [hts]
      · simp [hts]

theorem complete_of_not_in_service {n : Nat}
    (h : ∀ s, source? n = some s → p.inService.has s = false) : p.complete n = p := by
  unfold complete
  cases hn : source? n with
  | none => rfl
  | some s => simp [h s hn]

theorem Gated.has_inService_complete (hp : p.Gated) (n : Nat) (s : Fin 64) :
    (p.complete n).inService.has s = true ↔ p.inService.has s = true ∧ n ≠ s.val := by
  by_cases hserved : p.inService.has s = true
  · have hnonzero : s ≠ 0 := by
      rintro rfl
      rw [hp.unserved] at hserved
      cases hserved
    by_cases hn : n = s.val
    · subst hn
      unfold complete
      simp [source?_val hnonzero, hserved, SourceSet.has_put]
    · have hother : source? n ≠ some s := fun h => hn (source?_eq_some h).symm
      unfold complete
      cases htarget : source? n with
      | none => simp [hserved, hn]
      | some t =>
          have hts : t ≠ s := fun h => hother (h ▸ htarget)
          by_cases ht : p.inService.has t = true
          · simp [ht, SourceSet.has_put, hts, hserved, hn]
          · simp [ht, hserved, hn]
  · rw [Bool.not_eq_true] at hserved
    have hkept : (p.complete n).inService.has s = false := by
      unfold complete
      split
      · exact hserved
      · split
        · exact SourceSet.has_put_false hserved fun _ => rfl
        · exact hserved
    simp [hserved, hkept]

/-- After an operation a source is in service if it has just been claimed, or it was and stays so. -/
theorem Gated.has_inService_after (hp : p.Gated) (op : Operation) (s : Fin 64) :
    (p.after op).inService.has s = true ↔
      (∃ c, p.Gives op c s) ∨ p.inService.has s = true ∧ op.completed? ≠ some s.val := by
  cases hclaim : op.claimant? with
  | some c =>
      rw [(after_of_claimant hclaim p).1, has_inService_claim, completed?_of_claimant hclaim]
      simp [hp.gives_iff, hclaim]
  | none =>
      have hnot : ¬ ∃ c, p.Gives op c s := by
        rintro ⟨c, hgives⟩
        rw [hgives.claimant] at hclaim
        cases hclaim
      cases hcompleted : op.completed? with
      | some n =>
          rw [after_of_completed hcompleted, hp.has_inService_complete]
          simp [hnot]
      | none =>
          rw [inService_after_of_other hclaim hcompleted]
          simp [hnot]

/-! ## Runs -/

theorem play_append (p : Plic) (ops more : List Operation) :
    p.play (ops ++ more) = (p.play ops).play more := by
  induction ops generalizing p with
  | nil => rfl
  | cons op rest ih => exact ih (p.after op)

theorem gated_run (ops : List Operation) : (reset.play ops).Gated :=
  gated_reset.play ops

theorem not_serving_nil (c : Fin 2) (s : Fin 64) : ¬ Serving [] c s := by
  rintro ⟨before, op, since, hsplit, -⟩
  cases before <;> cases hsplit

theorem serving_append_singleton {ops : List Operation} {op : Operation} {c : Fin 2}
    {s : Fin 64} :
    Serving (ops ++ [op]) c s ↔
      (reset.play ops).Gives op c s ∨ Serving ops c s ∧ op.completed? ≠ some s.val := by
  constructor
  · rintro ⟨before, first, since, hsplit, hgives, hsince⟩
    -- The claim is the last operation of the run, or the last operation is one of those since then.
    rcases List.eq_nil_or_concat since with rfl | ⟨most, last, rfl⟩
    · obtain ⟨rfl, hop⟩ := List.append_inj' hsplit rfl
      cases hop
      exact .inl hgives
    · have hsplit' : ops ++ [op] = (before ++ first :: most) ++ [last] := by
        simpa using hsplit
      obtain ⟨hops, hop⟩ := List.append_inj' hsplit' rfl
      cases hop
      refine .inr ⟨⟨before, first, most, hops, hgives, ?_⟩, ?_⟩
      · intro later hlater
        exact hsince later (by simp [hlater])
      · exact hsince op (by simp)
  · rintro (hgives | ⟨⟨before, first, since, rfl, hgives, hsince⟩, hop⟩)
    · exact ⟨ops, op, [], rfl, hgives, by simp⟩
    · refine ⟨before, first, since ++ [op], by simp, hgives, ?_⟩
      intro later hlater
      rcases List.mem_append.mp hlater with hold | hlast
      · exact hsince later hold
      · rw [List.mem_singleton.mp hlast]
        exact hop

/-- The bit of a source says whether some claim of the run has put it in service until now. -/
theorem has_inService_run (ops : List Operation) (s : Fin 64) :
    (reset.play ops).inService.has s = true ↔ ∃ c, Serving ops c s := by
  induction ops using List.reverseRecOn with
  | nil =>
      have hreset : (reset.play []).inService.has s = false := SourceSet.has_zero s
      simp [hreset, not_serving_nil]
  | append_singleton ops op ih =>
      rw [play_append]
      change ((reset.play ops).after op).inService.has s = true ↔ _
      rw [(gated_run ops).has_inService_after, ih]
      simp [serving_append_singleton, exists_or]

/-- A claim returns a source whose line is high and that is in service for nobody. -/
theorem not_serving_of_gives {ops : List Operation} {op : Operation} {c : Fin 2} {s : Fin 64}
    (h : (reset.play ops).Gives op c s) : lastLevel s ops = true ∧ ∀ d, ¬ Serving ops d s := by
  have hp := gated_run ops
  obtain ⟨hhigh, hfree, -⟩ :=
    hp.of_isClaimable (isClaimable_of_candidate? (hp.gives_iff.mp h).2)
  rw [has_levels_run] at hhigh
  refine ⟨hhigh, ?_⟩
  intro d hserving
  rw [(has_inService_run ops s).mpr ⟨d, hserving⟩] at hfree
  cases hfree

theorem serving_unique {ops : List Operation} {c d : Fin 2} {s : Fin 64} (hc : Serving ops c s)
    (hd : Serving ops d s) : c = d := by
  induction ops using List.reverseRecOn with
  | nil => exact absurd hc (not_serving_nil c s)
  | append_singleton ops op ih =>
      rw [serving_append_singleton] at hc hd
      rcases hc with hc | ⟨hc, -⟩
      · rcases hd with hd | ⟨hd, -⟩
        · exact Option.some.inj (hc.claimant.symm.trans hd.claimant)
        · exact absurd hd ((not_serving_of_gives hc).2 d)
      · rcases hd with hd | ⟨hd, -⟩
        · exact absurd hc ((not_serving_of_gives hd).2 c)
        · exact ih hc hd

/-- A claim returns zero or the number of a source. -/
theorem reply_of_claimant {op : Operation} {c : Fin 2} (hp : p.Gated)
    (h : op.claimant? = some c) : p.reply? op = some 0 ∨ ∃ s, p.Gives op c s := by
  cases hcandidate : p.candidate? c with
  | none =>
      left
      rw [(after_of_claimant h p).2, claim_of_none hcandidate]
  | some s => exact .inr ⟨s, hp.gives_iff.mpr ⟨h, hcandidate⟩⟩

/--
After every run of operations, a source is in service exactly if some claim of one of the two
contexts has returned it and it has not been completed since, and this context is the only one.
A claim returns zero or a source whose line is high and that no context has in service. So between
two claims that return the same source it has been completed, whichever contexts they are of. The
completion of zero, of a number too large for a source or of a source that is not in service
changes nothing.
-/
theorem claims_exclusive (ops : List Operation) :
    let p := reset.play ops
    (∀ s, p.inService.has s = true ↔ ∃ c, Serving ops c s) ∧
      (∀ c d s, Serving ops c s → Serving ops d s → c = d) ∧
      (∀ op c, op.claimant? = some c → p.reply? op = some 0 ∨ ∃ s, p.Gives op c s) ∧
      (∀ op c s, p.Gives op c s → lastLevel s ops = true ∧ ∀ d, ¬ Serving ops d s) ∧
      (∀ before first between op c d s, ops = before ++ first :: between →
        (reset.play before).Gives first c s → p.Gives op d s →
        ∃ later ∈ between, later.completed? = some s.val) ∧
      (∀ op n, op.completed? = some n →
        (n = 0 ∨ 64 ≤ n ∨ ∃ s : Fin 64, s.val = n ∧ ∀ c, ¬ Serving ops c s) → p.after op = p) := by
  intro p
  have hp : p.Gated := gated_run ops
  refine ⟨has_inService_run ops, ?_, ?_, ?_, ?_, ?_⟩
  · intro c d s
    exact serving_unique
  · intro op c
    exact reply_of_claimant hp
  · intro op c s
    exact not_serving_of_gives
  · intro before first between op c d s hsplit hfirst hagain
    -- Without a completion the first claim would have the source in service still.
    have hfree := (not_serving_of_gives hagain).2 c
    by_contra hnone
    exact hfree ⟨before, first, between, hsplit, hfirst,
      fun later hlater hcompleted => hnone ⟨later, hlater, hcompleted⟩⟩
  · intro op n hcompleted hidle
    rw [after_of_completed hcompleted]
    refine complete_of_not_in_service ?_
    intro s hs
    have hval := source?_eq_some hs
    have hnonzero := source?_ne_zero hs
    rcases hidle with rfl | hlarge | ⟨t, ht, hnobody⟩
    · exact absurd (Fin.ext hval) hnonzero
    · have hlt := s.isLt
      omega
    · have hts : t = s := Fin.ext (ht.trans hval.symm)
      subst hts
      rw [← Bool.not_eq_true, has_inService_run]
      rintro ⟨c, hserving⟩
      exact hnobody c hserving

def contested : List Operation :=
  [.writeWord 0x28 1, .writeWord 0x2000 0x400, .writeWord 0x2080 0x400, .setLevel 10 true]

/-- The line falls and rises. Context one finds nothing to claim and completes source ten. -/
def handover : List Operation :=
  [.setLevel 10 false, .setLevel 10 true, .claim 1, .writeWord 0x201004 10]

/-- Context zero claims source ten, and context one does after the completion. -/
theorem claims_exclusive_handover :
    (reset.play contested).Gives (.readWord 0x200004) 0 10 ∧
      (reset.play (contested ++ .readWord 0x200004 :: handover)).Gives (.claim 1) 1 10 ∧
      lastLevel 10 (contested ++ .readWord 0x200004 :: handover) = true ∧
      (∀ d, ¬ Serving (contested ++ .readWord 0x200004 :: handover) d 10) ∧
      ∃ later ∈ handover, later.completed? = some 10 := by
  have hfirst : (reset.play contested).Gives (.readWord 0x200004) 0 10 :=
    { claimant := by decide, reply := by decide +kernel, source := by decide }
  have hagain : (reset.play (contested ++ .readWord 0x200004 :: handover)).Gives (.claim 1) 1 10 :=
    { claimant := by decide, reply := by decide +kernel, source := by decide }
  obtain ⟨-, -, -, hgives, hbetween, -⟩ :=
    claims_exclusive (contested ++ .readWord 0x200004 :: handover)
  obtain ⟨hhigh, hfree⟩ := hgives (.claim 1) 1 10 hagain
  exact ⟨hfirst, hagain, hhigh, hfree, hbetween _ _ _ _ 0 1 10 rfl hfirst hagain⟩

end Plic

end Rv32
