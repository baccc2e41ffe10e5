import Rv32.Hart.Step
import Rv32.Proofs.Hart.Effect

/-! # What a step does

A step that is not fatal has executed an instruction. The instruction has one
of the effects that instructions have, and after that the step is counted and
the exception delivered, if there is one. What each of these preserves holds of
the hart after the step if it held before.
-/

namespace Rv32

namespace Hart

variable {P : Hart → Prop} {h : Hart}

/-- What holds of a hart, and after every trap, holds after the interrupt that is due if one is. -/
theorem takeInterrupt_of_trap (hP : P h) (htrap : ∀ c, P (h.trap c)) : P h.takeInterrupt.2 := by
  unfold takeInterrupt
  split
  · exact hP
  · exact htrap _

theorem deliver_of_trap (hP : P h) (htrap : ∀ c, P (h.trap c)) (outcome : Outcome) :
    P (h.deliver outcome).2 := by
  cases outcome with
  | raised e => exact htrap _
  | completed => exact hP
  | exited v => exact hP

/-- A property of harts that no instruction and no trap brings to an end. -/
structure Stable (P : Hart → Prop) : Prop where
  effect : ∀ {h after : Hart} {i : Instruction} {outcome : Outcome},
    Effect h i outcome after → P h → P after
  counted : ∀ {h : Hart}, P h → P h.retire
  trapped : ∀ {h : Hart} (c : Cause), P h → P (h.trap c)

theorem Stable.takeInterrupt (hstable : Stable P) (hP : P h) : P h.takeInterrupt.2 :=
  takeInterrupt_of_trap hP fun c => hstable.trapped c hP

end Hart

namespace Machine

variable {β : Type} [Bus β]

/--
The instruction that a step executes, what it comes to, and the machine before
the step is counted. There is none if the step is fatal.
-/
def attempt? (m : Machine β) : Option (Instruction × Outcome × Machine β) :=
  match instructionAt m.hart.pc m.fetch.1 with
  | .error _ => none
  | .ok i =>
      match m.fetch.2.execute i with
      | .error _ => none
      | .ok (outcome, after) => some (i, outcome, after)

@[simp] theorem hart_fetch (m : Machine β) : m.fetch.2.hart = m.hart := rfl

theorem fetch_of_read {m : Machine β} {bytes : List Byte} {bus : β}
    (h : Bus.read m.bus m.hart.pc 4 = (bytes, bus)) :
    m.fetch = (ofLeBytes 32 bytes, { m with bus := bus }) := by
  unfold fetch
  rw [h]

theorem attempt?_eq_some {m : Machine β} {i : Instruction} {outcome : Outcome}
    {after : Machine β} :
    m.attempt? = some (i, outcome, after) ↔
      instructionAt m.hart.pc m.fetch.1 = .ok i ∧ m.fetch.2.execute i = .ok (outcome, after) := by
  unfold attempt?
  constructor
  · intro h
    split at h
    · cases h
    · rename_i j hj
      split at h
      · cases h
      · rename_i hexec
        cases h
        exact ⟨hj, hexec⟩
  · rintro ⟨hi, hexec⟩
    rw [hi]
    simp only [hexec]

theorem step_of_attempt {m : Machine β} {i : Instruction} {outcome : Outcome}
    {after : Machine β} (h : m.attempt? = some (i, outcome, after)) :
    m.step = ((after.hart.retire.deliver outcome).1,
      { after with hart := (after.hart.retire.deliver outcome).2 }) := by
  obtain ⟨hi, hexec⟩ := attempt?_eq_some.mp h
  have hpc : m.fetch.2.hart.pc = m.hart.pc := rfl
  simp only [step, dispatch, hpc, hi, hexec]

/-- A fatal step has fetched a word and done nothing else. -/
theorem step_of_fatal {m : Machine β} (h : m.attempt? = none) : m.step.2 = m.fetch.2 := by
  have hpc : m.fetch.2.hart.pc = m.hart.pc := rfl
  cases hi : instructionAt m.hart.pc m.fetch.1 with
  | error f => simp only [step, dispatch, hpc, hi]
  | ok i =>
      cases hexec : m.fetch.2.execute i with
      | error source => simp only [step, dispatch, hpc, hi, hexec]
      | ok result => simp [attempt?, hi, hexec] at h

theorem attempt?_of_fatal {m after : Machine β} {f : Fatal} (h : m.step = (.fatal f, after)) :
    m.attempt? = none := by
  cases hattempt : m.attempt? with
  | none => rfl
  | some found =>
      obtain ⟨i, outcome, executed⟩ := found
      rw [step_of_attempt hattempt] at h
      cases outcome with
      | completed => cases h
      | raised e => cases h
      | exited v => cases h

theorem hart_step_of_fatal {m : Machine β} (h : m.attempt? = none) : m.step.2.hart = m.hart := by
  rw [step_of_fatal h, hart_fetch]

theorem effect_of_attempt {m : Machine β} {i : Instruction} {outcome : Outcome}
    {after : Machine β} (h : m.attempt? = some (i, outcome, after)) :
    Hart.Effect m.hart i outcome after.hart := by
  have heffect := effect_of_execute (attempt?_eq_some.mp h).2
  rwa [hart_fetch] at heffect

theorem step_of_stable {P : Hart → Prop} (hstable : Hart.Stable P) {m : Machine β}
    (hP : P m.hart) : P m.step.2.hart := by
  cases hattempt : m.attempt? with
  | none =>
      rw [hart_step_of_fatal hattempt]
      exact hP
  | some found =>
      obtain ⟨i, outcome, after⟩ := found
      have hcounted : P after.hart.retire :=
        hstable.counted (hstable.effect (effect_of_attempt hattempt) hP)
      rw [step_of_attempt hattempt]
      exact Hart.deliver_of_trap hcounted (fun c => hstable.trapped c hcounted) outcome

end Machine

end Rv32
