import Rv32.Bus

/-! # Dialogues with a bus

An instruction knows of its bus what the bus answers. So its use of the bus is a
dialogue: accesses, of which each may depend on the bytes that have been read
before, and a result in the end. The same dialogue can be held with any bus, and
what it does with one can be compared with what it does with another.
-/

namespace Rv32

/-- Accesses to a bus one after the other, and what they come to. -/
inductive Dialogue (α : Type) where
  | done (result : α)
  | read (address : Word) (size : Nat) (next : List Byte → Dialogue α)
  | write (address : Word) (bytes : List Byte) (next : Dialogue α)

/-- What reads and writes, made one after the other, can make of a bus. -/
inductive Bus.Accessed {β : Type} [Bus β] (bus : β) : β → Prop where
  | refl : Accessed bus bus
  | read {after : β} (h : Accessed bus after) (address : Word) (size : Nat) :
      Accessed bus (Bus.read after address size).2
  | write {after : β} (h : Accessed bus after) (address : Word) (bytes : List Byte) :
      Accessed bus (Bus.write after address bytes)

namespace Bus.Accessed

variable {β : Type} [Bus β]

theorem trans {b₁ b₂ b₃ : β} (h₁ : Accessed b₁ b₂) (h₂ : Accessed b₂ b₃) : Accessed b₁ b₃ := by
  induction h₂ with
  | refl => exact h₁
  | read _ address size ih => exact ih.read address size
  | write _ address bytes ih => exact ih.write address bytes

theorem preserves {b after : β} (h : Accessed b after) {P : β → Prop}
    (hread : ∀ b address size, P b → P (Bus.read b address size).2)
    (hwrite : ∀ b address bytes, P b → P (Bus.write b address bytes)) (hb : P b) : P after := by
  induction h with
  | refl => exact hb
  | read _ address size ih => exact hread _ address size ih
  | write _ address bytes ih => exact hwrite _ address bytes ih

end Bus.Accessed

/--
Two buses in relation `R` answer every permitted access alike, and are still in
relation after it.
-/
structure Bus.Coupled {β γ : Type} [Bus β] [Bus γ] (R : β → γ → Prop)
    (permitted : Access → Prop) : Prop where
  answer : ∀ {b c} (address : Word) (size : Nat), R b c → permitted (.read address size) →
    (Bus.read b address size).1 = (Bus.read c address size).1
  read : ∀ {b c} (address : Word) (size : Nat), R b c → permitted (.read address size) →
    R (Bus.read b address size).2 (Bus.read c address size).2
  write : ∀ {b c} (address : Word) (bytes : List Byte), R b c → permitted (.write address bytes) →
    R (Bus.write b address bytes) (Bus.write c address bytes)

namespace Dialogue

variable {α β γ δ : Type}

def run [Bus β] : Dialogue α → β → α × β
  | done result, bus => (result, bus)
  | read address size next, bus =>
      (next (Bus.read bus address size).1).run (Bus.read bus address size).2
  | write address bytes next, bus => next.run (Bus.write bus address bytes)

def accesses [Bus β] : Dialogue α → β → List Access
  | done _, _ => []
  | read address size next, bus =>
      .read address size ::
        (next (Bus.read bus address size).1).accesses (Bus.read bus address size).2
  | write address bytes next, bus =>
      .write address bytes :: next.accesses (Bus.write bus address bytes)

def map (f : α → δ) : Dialogue α → Dialogue δ
  | done result => done (f result)
  | read address size next => read address size fun bytes => (next bytes).map f
  | write address bytes next => write address bytes (next.map f)

theorem run_map [Bus β] (f : α → δ) (d : Dialogue α) (bus : β) :
    (d.map f).run bus = (f (d.run bus).1, (d.run bus).2) := by
  induction d generalizing bus with
  | done result => rfl
  | read address size next ih => exact ih _ _
  | write address bytes next ih => exact ih _

theorem accessed_run [Bus β] (d : Dialogue α) (bus : β) : Bus.Accessed bus (d.run bus).2 := by
  induction d generalizing bus with
  | done result => exact .refl
  | read address size next ih => exact (Bus.Accessed.refl.read address size).trans (ih _ _)
  | write address bytes next ih => exact (Bus.Accessed.refl.write address bytes).trans (ih _)

/-- A journal does not change the dialogue, and in the end holds its accesses. -/
theorem run_journaled [Bus β] (d : Dialogue α) (j : Journaled β) :
    d.run j =
      ((d.run j.bus).1,
        { bus := (d.run j.bus).2, accesses := j.accesses ++ d.accesses j.bus }) := by
  induction d generalizing j with
  | done result => simp [run, accesses]
  | read address size next ih =>
      rw [run, ih]
      simp [run, accesses, Bus.read]
  | write address bytes next ih =>
      rw [run, ih]
      simp [run, accesses, Bus.write]

/-- A dialogue of permitted accesses does not tell coupled buses apart. -/
theorem run_coupled [Bus β] [Bus γ] {R : β → γ → Prop} {permitted : Access → Prop}
    (hcoupled : Bus.Coupled R permitted) (d : Dialogue α) {b : β} {c : γ} (h : R b c)
    (hall : ∀ a ∈ d.accesses b, permitted a) :
    (d.run b).1 = (d.run c).1 ∧ R (d.run b).2 (d.run c).2 := by
  induction d generalizing b c with
  | done result => exact ⟨rfl, h⟩
  | read address size next ih =>
      obtain ⟨hfirst, hrest⟩ := List.forall_mem_cons.mp hall
      simp only [run, ← hcoupled.answer address size h hfirst]
      exact ih _ (hcoupled.read address size h hfirst) hrest
  | write address bytes next ih =>
      obtain ⟨hfirst, hrest⟩ := List.forall_mem_cons.mp hall
      exact ih (hcoupled.write address bytes h hfirst) hrest

end Dialogue

end Rv32
