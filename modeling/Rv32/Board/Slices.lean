import Rv32.Board.Run

/-!
# Runs in slices

A run may be long, so it is made in slices, between which the surroundings of
the board get their turn. A limit on the number of steps ends a run; slices are
cut so that no step beyond it is made.
-/

namespace Rv32

inductive Exit where
  | selfTest (v : Verdict)
  | stepLimit
  | fatal (f : Fatal)
  deriving DecidableEq, Repr

def Exit.ofOutcome? : StepOutcome → Option Exit
  | .running => none
  | .exited v => some (selfTest v)
  | .fatal f => some (fatal f)

theorem Exit.running_of_ofOutcome?_eq_none {o : StepOutcome} (h : Exit.ofOutcome? o = none) :
    o = .running := by
  cases o with
  | running => rfl
  | exited v => contradiction
  | fatal f => contradiction

namespace Board

/-- The number of steps in a slice, unless the limit is nearer. -/
def stepsPerSlice : Nat := 10000

/--
The number of steps in the next slice after `steps` steps, or nothing if the
limit has been reached.
-/
def nextSlice? (limit : Option Nat) (steps : Nat) : Option Nat :=
  match limit with
  | none => some stepsPerSlice
  | some limit => if limit ≤ steps then none else some (min (limit - steps) stepsPerSlice)

theorem nextSlice?_eq_none_iff (limit : Option Nat) (steps : Nat) :
    nextSlice? limit steps = none ↔ ∃ l, limit = some l ∧ l ≤ steps := by
  cases limit <;> simp [nextSlice?]

theorem add_nextSlice?_le {limit steps n : Nat} (h : nextSlice? (some limit) steps = some n) :
    steps + n ≤ limit := by
  simp only [nextSlice?] at h
  split at h
  · contradiction
  · injection h with h
    omega

theorem nextSlice?_pos {limit : Option Nat} {steps n : Nat}
    (h : nextSlice? limit steps = some n) : 0 < n := by
  cases limit with
  | none =>
      injection h with h
      subst h
      decide
  | some limit =>
      simp only [nextSlice?] at h
      split at h
      · contradiction
      · injection h with h
        have : 0 < stepsPerSlice := by decide
        omega

def slice (limit : Option Nat) (b : Board) : Option Exit × Board :=
  match nextSlice? limit b.steps with
  | none => (some .stepLimit, b)
  | some n => (Exit.ofOutcome? (b.run n).1, (b.run n).2)

def sliceAloud (limit : Option Nat) (b : Board) : Option Exit × Board × Array Message :=
  match nextSlice? limit b.steps with
  | none => (some .stepLimit, b, #[])
  | some n =>
      let (outcome, next, said) := b.runAloud n #[]
      (Exit.ofOutcome? outcome, next, said)

/--
One slice, with what a listener down to `least` hears of it. Nothing that is
said about steps matters as much as an error, so a listener to errors alone
has nothing to wait for.
-/
def sliceHeard (least : Severity) (limit : Option Nat) (b : Board) :
    Option Exit × Board × Array Message :=
  if least = .error then
    let (exit, next) := slice limit b
    (exit, next, #[])
  else
    let (exit, next, said) := sliceAloud limit b
    (exit, next, said.filter (Message.isHeard least))

theorem sliceAloud_eq_slice (limit : Option Nat) (b : Board) :
    ((sliceAloud limit b).1, (sliceAloud limit b).2.1) = slice limit b := by
  unfold sliceAloud slice
  cases nextSlice? limit b.steps with
  | none => rfl
  | some n =>
      have h := runAloud_eq_run n b #[]
      simp only [← h]

theorem sliceHeard_eq_slice (least : Severity) (limit : Option Nat) (b : Board) :
    ((sliceHeard least limit b).1, (sliceHeard least limit b).2.1) = slice limit b := by
  unfold sliceHeard
  split
  · rfl
  · exact sliceAloud_eq_slice limit b

theorem steps_lt_of_slice {limit : Nat} {b next : Board}
    (h : slice (some limit) b = (none, next)) : limit - next.steps < limit - b.steps := by
  unfold slice at h
  cases hn : nextSlice? (some limit) b.steps with
  | none =>
      rw [hn] at h
      injection h with h
      contradiction
  | some n =>
      rw [hn] at h
      injection h with hexit hnext
      have hrun : b.run n = (.running, next) :=
        Prod.ext (Exit.running_of_ofOutcome?_eq_none hexit) hnext
      have hsteps := steps_run_of_running hrun
      have hpos := nextSlice?_pos hn
      have hle := add_nextSlice?_le hn
      omega

/-- The board at the end of a run with a limit, and why the run ends. -/
def runTo (limit : Nat) (b : Board) : Exit × Board :=
  match h : slice (some limit) b with
  | (some exit, last) => (exit, last)
  | (none, next) =>
      have := steps_lt_of_slice h
      runTo limit next
termination_by limit - b.steps

end Board

end Rv32
