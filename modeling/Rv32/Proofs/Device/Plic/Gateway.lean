import Rv32.Proofs.Device.Plic

/-! # The gateways of the interrupt controller

Between the line of a source and its pending bit stands a gateway. It lets a
request through while the line is high, and no second one until the first has
been completed. The three sets of sources stay in step by whatever is done to
the controller, in any order and with any arguments, so that a source whose line
is high is always either pending or in service, and never both.
-/

namespace Rv32

theorem SourceSet.has_put_false {set : SourceSet} {s t : Fin 64} (h : set.has t = false)
    {member : Bool} (hs : s = t → member = false) : (set.put s member).has t = false := by
  rw [has_put]
  split
  · rename_i hst
    exact hs hst
  · exact h

namespace Plic

/-! ## Runs -/

inductive Operation where
  | setLevel (n : Nat) (level : Bool)
  | claim (n : Nat)
  | complete (n : Nat)
  | readWord (offset : Word)
  | writeWord (offset v : Word)
  deriving DecidableEq

def after (p : Plic) : Operation → Plic
  | .setLevel n level => p.setLevel n level
  | .claim n => (p.claim n).2
  | .complete n => p.complete n
  | .readWord offset =>
      match p.readWord offset with
      | .ok (_, next) => next
      | .error _ => p
  | .writeWord offset v =>
      match p.writeWord offset v with
      | .ok next => next
      | .error _ => p

def play (p : Plic) : List Operation → Plic
  | [] => p
  | op :: rest => (p.after op).play rest

/-- The level of the line of source `s` after an operation, if it was `level` before. -/
def Operation.drive (s : Fin 64) (level : Bool) : Operation → Bool
  | setLevel n next => if source? n = some s then next else level
  | _ => level

/-- The level to which the line of source `s` has been set last in a run. It is low at first. -/
def lastLevel (s : Fin 64) (ops : List Operation) : Bool :=
  ops.foldl (Operation.drive s) false

/-! ## What an operation changes -/

/-- What a claim, a completion or an access to a register can make of the controller. -/
inductive Handled (p : Plic) : Plic → Prop where
  | unchanged : Handled p p
  | claimed (c : Fin 2) (s : Fin 64) (hs : p.isClaimable c s = true) :
      Handled p
        { p with pending := p.pending.put s false, inService := p.inService.put s true }
  | completed (s : Fin 64) :
      Handled p
        { p with
          inService := p.inService.put s false
          pending := p.pending.put s (p.levels.has s) }
  | ranked (s : Fin 64) (hs : s ≠ 0) (v : Fin 8) :
      Handled p { p with priorities := p.priorities.set s.val v s.isLt }
  | enabled (c : Fin 2) (set : SourceSet)
      (hset : (p.enabled.get c).has 0 = false → set.has 0 = false) :
      Handled p { p with enabled := p.enabled.set c.val set c.isLt }
  | masked (c : Fin 2) (v : Fin 8) :
      Handled p { p with thresholds := p.thresholds.set c.val v c.isLt }

theorem handled_claim (p : Plic) (n : Nat) : p.Handled (p.claim n).2 := by
  unfold claim
  cases hfound : (context? n).bind p.candidate? with
  | none => exact .unchanged
  | some s =>
      obtain ⟨c, -, hcandidate⟩ := Option.bind_eq_some_iff.mp hfound
      exact .claimed c s (isClaimable_of_candidate? hcandidate)

theorem handled_complete (p : Plic) (n : Nat) : p.Handled (p.complete n) := by
  unfold complete
  split
  · exact .unchanged
  · split
    · exact .completed _
    · exact .unchanged

theorem handled_readWord {p next : Plic} {offset v : Word}
    (h : p.readWord offset = .ok (v, next)) : p.Handled next := by
  rcases readWord_cases h with rfl | ⟨c, hclaim⟩
  · exact .unchanged
  · have hnext : next = (p.claim c.val).2 := congrArg Prod.snd hclaim
    rw [hnext]
    exact p.handled_claim c.val

/-- The lowest bit of an enable word stands for source zero and is not written. -/
theorem has_zero_withHalf {set : SourceSet} (hset : set.has 0 = false) (h : Half) (v : Word) :
    SourceSet.has (DoubleWord.withHalf set h (enableBits h v)) 0 = false := by
  have hlow (d : DoubleWord) : SourceSet.has d 0 = (d.half .low).getLsbD 0 := by
    simp [SourceSet.has, DoubleWord.half]
  rw [hlow, DoubleWord.half_withHalf]
  cases h with
  | low => simp [enableBits]
  | high =>
      rw [hlow] at hset
      simpa using hset

theorem handled_writeWord {p next : Plic} {offset v : Word}
    (h : p.writeWord offset v = .ok next) : p.Handled next := by
  unfold writeWord at h
  split at h
  · rename_i s _
    split at h
    · cases h
      exact .unchanged
    · rename_i hs
      cases h
      exact .ranked s hs (clampPriority v)
  · cases h
  · rename_i c half _
    cases h
    exact .enabled c _ fun hzero => has_zero_withHalf hzero half v
  · rename_i c _
    cases h
    exact .masked c (clampPriority v)
  · cases h
    exact p.handled_complete v.toNat
  · cases h

/-- Only the setting of a line is more than the handling of requests. -/
theorem handled_after (p : Plic) (op : Operation) :
    (∃ n level, op = .setLevel n level) ∨
      p.Handled (p.after op) ∧ ∀ s level, op.drive s level = level := by
  cases op with
  | setLevel n level => exact .inl ⟨n, level, rfl⟩
  | claim n => exact .inr ⟨p.handled_claim n, fun _ _ => rfl⟩
  | complete n => exact .inr ⟨p.handled_complete n, fun _ _ => rfl⟩
  | readWord offset =>
      refine .inr ⟨?_, fun _ _ => rfl⟩
      simp only [after]
      split
      · rename_i hread
        exact handled_readWord hread
      · exact .unchanged
  | writeWord offset v =>
      refine .inr ⟨?_, fun _ _ => rfl⟩
      simp only [after]
      split
      · rename_i hwrite
        exact handled_writeWord hwrite
      · exact .unchanged

/-! ## Lines -/

theorem Handled.levels {p next : Plic} (h : p.Handled next) : next.levels = p.levels := by
  cases h <;> rfl

theorem has_levels_setLevel (p : Plic) (n : Nat) (level : Bool) (s : Fin 64) :
    (p.setLevel n level).levels.has s =
      if source? n = some s then level else p.levels.has s := by
  unfold setLevel
  cases hn : source? n with
  | none => simp
  | some t => simp [SourceSet.has_put]

theorem has_levels_after (p : Plic) (op : Operation) (s : Fin 64) :
    (p.after op).levels.has s = op.drive s (p.levels.has s) := by
  rcases p.handled_after op with ⟨n, level, rfl⟩ | ⟨hhandled, hkept⟩
  · exact p.has_levels_setLevel n level s
  · rw [hhandled.levels, hkept]

theorem has_levels_play (p : Plic) (ops : List Operation) (s : Fin 64) :
    (p.play ops).levels.has s = ops.foldl (Operation.drive s) (p.levels.has s) := by
  induction ops generalizing p with
  | nil => rfl
  | cons op rest ih =>
      have hfirst := p.has_levels_after op s
      rw [play, ih, hfirst]
      rfl

theorem has_levels_run (ops : List Operation) (s : Fin 64) :
    (reset.play ops).levels.has s = lastLevel s ops := by
  have hreset : reset.levels.has s = false := SourceSet.has_zero s
  rw [has_levels_play, hreset]
  rfl

/-! ## The invariant -/

/-- The gateways are in step with the lines, and source zero takes part in nothing. -/
structure Gated (p : Plic) : Prop where
  gate : ∀ s, p.pending.has s = (p.levels.has s && !p.inService.has s)
  low : p.levels.has 0 = false
  unserved : p.inService.has 0 = false
  disabled : ∀ c : Fin 2, (p.enabled.get c).has 0 = false
  unranked : p.priorities.get 0 = 0

theorem gated_reset : reset.Gated := by
  have hzero (s : Fin 64) : SourceSet.has 0 s = false := SourceSet.has_zero s
  refine
    { gate := ?_, low := hzero 0, unserved := hzero 0, disabled := ?_, unranked := by decide }
  · intro s
    change SourceSet.has 0 s = (SourceSet.has 0 s && !SourceSet.has 0 s)
    rw [hzero s]
    rfl
  · intro c
    have hnone : reset.enabled[c] = 0 := by simp [reset]
    change reset.enabled[c].has 0 = false
    rw [hnone]
    exact hzero 0

variable {p next : Plic}

theorem source?_ne_zero {n : Nat} {s : Fin 64} (h : source? n = some s) : s ≠ 0 := by
  unfold source? at h
  split at h
  · rename_i hn
    cases h
    exact Fin.ne_of_val_ne (Nat.ne_of_gt hn.1)
  · cases h

theorem source?_val {s : Fin 64} (hs : s ≠ 0) : source? s.val = some s := by
  have hval : 0 < s.val := Nat.pos_of_ne_zero fun h => hs (Fin.ext h)
  unfold source?
  rw [dif_pos ⟨hval, s.isLt⟩]

theorem Gated.setLevel (hp : p.Gated) (n : Nat) (level : Bool) : (p.setLevel n level).Gated := by
  unfold Plic.setLevel
  cases hn : source? n with
  | none => exact hp
  | some t =>
      have ht : t ≠ 0 := source?_ne_zero hn
      refine { hp with gate := ?_, low := ?_ }
      · intro s
        simp only [SourceSet.has_put]
        by_cases hts : t = s
        · subst hts
          simp
        · simp [hts, hp.gate s]
      · exact SourceSet.has_put_false hp.low fun h => absurd h ht

/-- A source that may be claimed has let a request through. It is not source zero. -/
theorem Gated.of_isClaimable (hp : p.Gated) {c : Fin 2} {s : Fin 64}
    (hs : p.isClaimable c s = true) :
    p.levels.has s = true ∧ p.inService.has s = false ∧ s ≠ 0 := by
  simp only [isClaimable, Bool.and_eq_true] at hs
  obtain ⟨⟨hpending, henabled⟩, -⟩ := hs
  have hgate := hp.gate s
  rw [hpending] at hgate
  have hopen : p.levels.has s = true ∧ p.inService.has s = false := by
    simpa using hgate.symm
  refine ⟨hopen.1, hopen.2, ?_⟩
  rintro rfl
  have hdisabled : p.enabled[c].has 0 = false := hp.disabled c
  rw [hdisabled] at henabled
  cases henabled

theorem Gated.handled (hp : p.Gated) (h : p.Handled next) : next.Gated := by
  cases h with
  | unchanged => exact hp
  | claimed c t hclaimable =>
      obtain ⟨-, -, ht⟩ := hp.of_isClaimable hclaimable
      refine { hp with gate := ?_, unserved := ?_ }
      · intro s
        simp only [SourceSet.has_put]
        by_cases hts : t = s
        · simp [hts]
        · simp [hts, hp.gate s]
      · exact SourceSet.has_put_false hp.unserved fun h => absurd h ht
  | completed t =>
      refine { hp with gate := ?_, unserved := ?_ }
      · intro s
        simp only [SourceSet.has_put]
        by_cases hts : t = s
        · subst hts
          simp
        · simp [hts, hp.gate s]
      · exact SourceSet.has_put_false hp.unserved fun _ => rfl
  | ranked t ht v =>
      refine { hp with unranked := ?_ }
      have hval : ¬ (t : Nat) = 0 := fun h => ht (Fin.ext h)
      have hkept : p.priorities[(0 : Fin 64)] = 0 := hp.unranked
      change (p.priorities.set t.val v)[(0 : Fin 64)] = 0
      simpa [Vector.getElem_set, hval] using hkept
  | enabled c set hset =>
      refine { hp with disabled := ?_ }
      intro d
      have hkept : p.enabled[d].has 0 = false := hp.disabled d
      change (p.enabled.set c.val set)[d].has 0 = false
      by_cases hcd : c = d
      · subst hcd
        simpa using hset hkept
      · have hval : ¬ (c : Nat) = d := fun h => hcd (Fin.ext h)
        simpa [Vector.getElem_set, hval] using hkept
  | masked c v => exact { hp with }

theorem Gated.after (hp : p.Gated) (op : Operation) : (p.after op).Gated := by
  rcases p.handled_after op with ⟨n, level, rfl⟩ | ⟨hhandled, -⟩
  · exact hp.setLevel n level
  · exact hp.handled hhandled

theorem Gated.play (hp : p.Gated) (ops : List Operation) : (p.play ops).Gated := by
  induction ops generalizing p with
  | nil => exact hp
  | cons op rest ih => exact ih (hp.after op)

/-- A completion opens the gateway, and a line that is still high gets through at once. -/
theorem Gated.complete_of_high (hp : p.Gated) {s : Fin 64} (hs : p.levels.has s = true) :
    (p.complete s.val).pending.has s = true ∧ (p.complete s.val).inService.has s = false := by
  have hpositive : s ≠ 0 := by
    rintro rfl
    rw [hp.low] at hs
    cases hs
  unfold complete
  rw [source?_val hpositive]
  by_cases hserved : p.inService.has s = true
  · simp [hserved, SourceSet.has_put, hs]
  · have hgate := hp.gate s
    simp_all

/--
After every run of operations the controller knows the level to which each line
has been set last, and a source is pending exactly if that level is high and the
source is not in service. Source zero takes part in nothing, and no priority and
no threshold is above seven. So whoever completes a source whose line is high
makes it pending again, and a high line is never without an effect.
-/
theorem gateways_of_run (ops : List Operation) :
    let p := reset.play ops
    (∀ s, p.levels.has s = lastLevel s ops) ∧
      (∀ s, p.pending.has s = true ↔ lastLevel s ops = true ∧ p.inService.has s = false) ∧
      (p.pending.has 0 = false ∧ p.inService.has 0 = false ∧
        (∀ c : Fin 2, (p.enabled.get c).has 0 = false) ∧ p.priorities.get 0 = 0) ∧
      ((∀ s : Fin 64, (p.priorities.get s).val ≤ 7) ∧ ∀ c : Fin 2, (p.thresholds.get c).val ≤ 7) ∧
      ∀ s, lastLevel s ops = true →
        (p.complete s.val).pending.has s = true ∧ (p.complete s.val).inService.has s = false ∧
          (p.pending.has s = true ∨ p.inService.has s = true) := by
  intro p
  have hp : p.Gated := gated_reset.play ops
  have hlevel (s : Fin 64) : p.levels.has s = lastLevel s ops := has_levels_run ops s
  refine ⟨hlevel, ?_, ?_, ?_, ?_⟩
  · intro s
    rw [hp.gate s, hlevel s]
    simp
  · have hzero := hp.gate 0
    rw [hp.low, Bool.false_and] at hzero
    exact ⟨hzero, hp.unserved, hp.disabled, hp.unranked⟩
  · exact ⟨fun s => Nat.le_of_lt_succ (p.priorities.get s).isLt,
      fun c => Nat.le_of_lt_succ (p.thresholds.get c).isLt⟩
  · intro s hs
    rw [← hlevel s] at hs
    obtain ⟨hpending, hserved⟩ := hp.complete_of_high hs
    have hgate := hp.gate s
    rw [hs, Bool.true_and] at hgate
    refine ⟨hpending, hserved, ?_⟩
    cases hservice : p.inService.has s with
    | true => exact .inr rfl
    | false =>
        rw [hservice] at hgate
        exact .inl hgate

/-- Software sets source ten up and claims it. Its line, and that of source zero, are high then. -/
def claimedRun : List Operation :=
  [.writeWord 0x28 9, .writeWord 0x2000 0xFFFFFFFF, .setLevel 0 true, .setLevel 10 true,
    .readWord 0x200004, .setLevel 10 true]

theorem gateways_of_run_claimed :
    lastLevel 10 claimedRun = true ∧ (reset.play claimedRun).inService.has 10 = true ∧
      (reset.play claimedRun).pending.has 10 = false ∧
      ((reset.play claimedRun).complete 10).pending.has 10 = true := by
  have hline : lastLevel 10 claimedRun = true := by decide
  have hserved : (reset.play claimedRun).inService.has 10 = true := by decide +kernel
  obtain ⟨-, hpending, -, -, hhigh⟩ := gateways_of_run claimedRun
  refine ⟨hline, hserved, ?_, (hhigh 10 hline).1⟩
  rw [← Bool.not_eq_true, hpending, hserved]
  simp

end Plic

end Rv32
