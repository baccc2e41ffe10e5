import Rv32.Hart.Trap
import Rv32.Proofs.Hart.Step
import Rv32.Proofs.Memory.Ram

/-! # Runs

Between the steps of a machine the world outside moves: devices change what is
behind the bus, interrupt lines and the clock are set, interrupts are taken, and
the hart may be reset. A run is any sequence of such events. Beside the machine
it yields what has set the program counter last.
-/

namespace Rv32

inductive Event (β : Type) where
  | step
  -- The interrupt is taken that is due, if one is.
  | interrupt
  -- Devices have acted on the bus and on what the hart is shown of them.
  | outside (bus : β) (interrupts : Interrupts) (clock : DoubleWord)
  | reset

namespace Machine

variable {β : Type} [Bus β]

def start (bus : β) (resetVector : Word) (ecallMode : EcallMode) (clock : DoubleWord) :
    Machine β :=
  { hart := .initial resetVector ecallMode clock, bus := bus }

def idle : Machine Ram :=
  start .empty defaultResetVector .trap 0

/-- What is fetched from memory into which a program has been written. -/
theorem fetch_program {h : Hart} {base : Word} {program : List Byte} {k : Nat}
    (hpc : h.pc = base + BitVec.ofNat 32 k) (hk : k + 4 ≤ program.length)
    (hfits : program.length ≤ addressCount) (r : Ram) :
    fetch { hart := h, bus := r.write base program } =
      (ofLeBytes 32 ((program.drop k).take 4), { hart := h, bus := r.write base program }) := by
  apply fetch_of_read
  change ((r.write base program).read h.pc 4, r.write base program) = _
  rw [hpc, Ram.read_write r base hfits hk]

def after (m : Machine β) : Event β → Machine β
  | .step => m.step.2
  | .interrupt => { m with hart := m.hart.takeInterrupt.2 }
  | .outside bus interrupts clock =>
      { hart :=
          { m.hart with
            csrs := { m.hart.csrs with interrupts := interrupts, clock := clock } }
        bus := bus }
  | .reset => { m with hart := m.hart.reset }

/-- The trap that an event takes: the hart when it is taken, and its cause. -/
def trap? (m : Machine β) : Event β → Option (Hart × Cause)
  | .step =>
      match m.attempt? with
      | some (_, .raised e, after) => some (after.hart.retire, .exception e)
      | _ => none
  | .interrupt => m.hart.nextInterrupt?.map fun i => (m.hart, .interrupt i)
  | _ => none

/-- What has set the program counter last after an event, if it was `last` before. -/
def landing (m : Machine β) (last : Landing) : Event β → Landing
  | .step =>
      match m.attempt? with
      | some (_, .raised _, _) => .handler
      | some (i, .completed, _) => (m.hart.landing? i).getD last
      | _ => last
  | .interrupt => if m.hart.nextInterrupt?.isSome then .handler else last
  | .outside _ _ _ => last
  | .reset => .reset

def play (m : Machine β) : List (Event β) → Machine β
  | [] => m
  | e :: rest => (m.after e).play rest

def lastLanding (m : Machine β) (last : Landing) : List (Event β) → Landing
  | [] => last
  | e :: rest => (m.after e).lastLanding (m.landing last e) rest

theorem play_append (m : Machine β) (es fs : List (Event β)) :
    m.play (es ++ fs) = (m.play es).play fs := by
  induction es generalizing m with
  | nil => rfl
  | cons e rest ih => exact ih (m.after e)

def Reaches (m target : Machine β) : Prop :=
  ∃ es : List (Event β), target = m.play es

theorem Reaches.refl (m : Machine β) : m.Reaches m := ⟨[], rfl⟩

theorem Reaches.trans {m₁ m₂ m₃ : Machine β} (h₁ : m₁.Reaches m₂) (h₂ : m₂.Reaches m₃) :
    m₁.Reaches m₃ := by
  obtain ⟨es, rfl⟩ := h₁
  obtain ⟨fs, rfl⟩ := h₂
  exact ⟨es ++ fs, (m₁.play_append es fs).symm⟩

theorem reaches_after (m : Machine β) (e : Event β) : m.Reaches (m.after e) := ⟨[e], rfl⟩

/-! ## Traps of a run -/

/-- Traps are taken for exceptions of an instruction, which has changed nothing, and for interrupts. -/
theorem trap?_eq_some {m : Machine β} {e : Event β} {h : Hart} {c : Cause}
    (htrap : m.trap? e = some (h, c)) :
    (∃ i x after, e = .step ∧ m.attempt? = some (i, .raised x, after) ∧ after.hart = m.hart ∧
        h = after.hart.retire ∧ c = .exception x) ∨
      (∃ i, e = .interrupt ∧ m.hart.nextInterrupt? = some i ∧ h = m.hart ∧ c = .interrupt i) := by
  cases e with
  | step =>
      simp only [trap?] at htrap
      split at htrap
      · rename_i i x after hattempt
        cases htrap
        have hart_eq := (effect_of_attempt hattempt).eq_of_raised
        exact .inl ⟨i, x, after, rfl, hattempt, hart_eq, rfl, rfl⟩
      · cases htrap
  | interrupt =>
      obtain ⟨i, hi, hpair⟩ := Option.map_eq_some_iff.mp htrap
      cases hpair
      exact .inr ⟨i, rfl, hi, rfl, rfl⟩
  | outside bus interrupts clock => cases htrap
  | reset => cases htrap

theorem hart_after_of_trap {m : Machine β} {e : Event β} {h : Hart} {c : Cause}
    (htrap : m.trap? e = some (h, c)) : (m.after e).hart = h.trap c := by
  rcases trap?_eq_some htrap with
    ⟨i, x, after, rfl, hattempt, -, rfl, rfl⟩ | ⟨i, rfl, hi, rfl, rfl⟩
  · simp only [Machine.after, step_of_attempt hattempt]
    rfl
  · simp only [Machine.after, Hart.takeInterrupt, hi]

theorem pc_of_trap {m : Machine β} {e : Event β} {h : Hart} {c : Cause}
    (htrap : m.trap? e = some (h, c)) : h.pc = m.hart.pc := by
  rcases trap?_eq_some htrap with ⟨i, x, after, -, -, hsame, rfl, -⟩ | ⟨i, -, -, rfl, -⟩
  · rw [← hsame]
    rfl
  · rfl

end Machine

end Rv32
