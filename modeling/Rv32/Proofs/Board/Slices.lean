import Rv32.Board.Slices
import Rv32.Proofs.Board.BareRun
import Rv32.Proofs.Board.Fatal

/-! # Runs in slices

A run of a number of steps is one of the first few of them followed by one of
the others, and a run that has stopped stays stopped. So it makes no difference
where a run is cut into slices: the runs that a limit ends, and those that end
before it, are the same in one piece.
-/

namespace Rv32

/-- Why a run with a limit ends that comes to an outcome. It goes on until the limit if it can. -/
def Exit.ofOutcome : StepOutcome → Exit
  | .running => .stepLimit
  | .exited v => .selfTest v
  | .fatal f => .fatal f

theorem Exit.ofOutcome_of_some {o : StepOutcome} {exit : Exit}
    (h : Exit.ofOutcome? o = some exit) : o ≠ .running ∧ Exit.ofOutcome o = exit := by
  cases o with
  | running => cases h
  | exited v => exact ⟨by simp, Option.some.inj h⟩
  | fatal f => exact ⟨by simp, Option.some.inj h⟩

namespace Board

/-! ## Steps made -/

/-- What `n` steps come to that have all been made: none but the last one can have stopped the board. -/
inductive Makes : Nat → Board → StepOutcome × Board → Prop where
  | done (b : Board) : Makes 0 b (.running, b)
  | stop {b last : Board} {outcome : StepOutcome} (hstep : b.step = (outcome, last))
      (houtcome : outcome ≠ .running) : Makes 1 b (outcome, last)
  | next {n : Nat} {b next : Board} {r : StepOutcome × Board} (hstep : b.step = (.running, next))
      (hrest : Makes n next r) : Makes (n + 1) b r

/-- A run makes no more steps than it is allowed, and all of them unless it stops. -/
theorem makes_run (n : Nat) (b : Board) :
    ∃ made ≤ n, Makes made b (b.run n) ∧ ((b.run n).1 = .running → made = n) := by
  induction n generalizing b with
  | zero => exact ⟨0, Nat.le_refl 0, .done b, fun _ => rfl⟩
  | succ n ih =>
      rw [run]
      split
      · rename_i next hstep
        obtain ⟨made, hle, hmakes, hall⟩ := ih next
        refine ⟨made + 1, by omega, .next hstep hmakes, fun hrunning => ?_⟩
        rw [hall hrunning]
      · rename_i hstop
        have houtcome : b.step.1 ≠ .running := fun h => hstop b.step.2 (Prod.ext h rfl)
        exact ⟨1, by omega, .stop rfl houtcome, fun h => absurd h houtcome⟩

theorem makes_of_running {n : Nat} {b last : Board} (h : b.run n = (.running, last)) :
    Makes n b (.running, last) := by
  obtain ⟨made, -, hmakes, hall⟩ := b.makes_run n
  rw [h] at hmakes hall
  have hmade := hall rfl
  rwa [hmade] at hmakes

/-! ## Runs cut in two -/

theorem run_add (n k : Nat) (b : Board) :
    b.run (n + k) =
      match b.run n with
      | (.running, mid) => mid.run k
      | stopped => stopped := by
  induction n generalizing b with
  | zero => rw [Nat.zero_add, run]
  | succ n ih =>
      rw [Nat.add_right_comm, run, run]
      split
      · rename_i next hstep
        exact ih next
      · rename_i hstop
        split
        · rename_i mid hstep
          exact absurd hstep (hstop mid)
        · rfl

theorem run_add_of_running {n : Nat} {b mid : Board} (h : b.run n = (.running, mid)) (k : Nat) :
    b.run (n + k) = mid.run k := by
  rw [run_add, h]

theorem run_add_of_stopped {n : Nat} {b last : Board} {outcome : StepOutcome}
    (h : b.run n = (outcome, last)) (houtcome : outcome ≠ .running) (k : Nat) :
    b.run (n + k) = (outcome, last) := by
  rw [run_add, h]
  cases outcome with
  | running => exact absurd rfl houtcome
  | exited v => rfl
  | fatal f => rfl

/-! ## Slices -/

theorem slice_cases (limit : Nat) (b : Board) :
    (limit ≤ b.steps ∧ slice (some limit) b = (some .stepLimit, b)) ∨
      ∃ n, b.steps + n ≤ limit ∧
        slice (some limit) b = (Exit.ofOutcome? (b.run n).1, (b.run n).2) := by
  unfold slice
  cases hn : nextSlice? (some limit) b.steps with
  | none =>
      obtain ⟨l, hl, hle⟩ := (nextSlice?_eq_none_iff (some limit) b.steps).mp hn
      cases hl
      exact .inl ⟨hle, rfl⟩
  | some n => exact .inr ⟨n, add_nextSlice?_le hn, rfl⟩

theorem run_of_slice {limit : Nat} {b next : Board} (h : slice (some limit) b = (none, next)) :
    ∃ n, b.run n = (.running, next) ∧ next.steps = b.steps + n ∧ next.steps ≤ limit := by
  rcases slice_cases limit b with ⟨-, hslice⟩ | ⟨n, hfits, hslice⟩
  · rw [hslice] at h
    cases h
  · rw [hslice] at h
    injection h with hexit hnext
    have hrun : b.run n = (.running, next) :=
      Prod.ext (Exit.running_of_ofOutcome?_eq_none hexit) hnext
    have hsteps := steps_run_of_running hrun
    exact ⟨n, hrun, hsteps, by omega⟩

theorem ofOutcome_of_stopped {limit n : Nat} {b last : Board} {exit : Exit}
    (hexit : Exit.ofOutcome? (b.run n).1 = some exit) (hlast : (b.run n).2 = last)
    (hfits : n ≤ limit) :
    (Exit.ofOutcome (b.run limit).1, (b.run limit).2) = (exit, last) := by
  obtain ⟨houtcome, hend⟩ := Exit.ofOutcome_of_some hexit
  have hwhole : b.run (n + (limit - n)) = ((b.run n).1, (b.run n).2) :=
    run_add_of_stopped rfl houtcome _
  rw [Nat.add_sub_cancel' hfits] at hwhole
  rw [hwhole, hend, hlast]

theorem runTo_eq_run {limit : Nat} {b : Board} (hsteps : b.steps ≤ limit) :
    runTo limit b =
      (Exit.ofOutcome (b.run (limit - b.steps)).1, (b.run (limit - b.steps)).2) := by
  fun_induction runTo limit b with
  | case1 b exit last hslice =>
      rcases slice_cases limit b with ⟨hreached, hnone⟩ | ⟨n, hfits, hrun⟩
      · have hnothing : limit - b.steps = 0 := by omega
        rw [hslice] at hnone
        cases hnone
        rw [hnothing]
        rfl
      · rw [hslice] at hrun
        injection hrun with hexit hlast
        exact (ofOutcome_of_stopped hexit.symm hlast.symm (by omega)).symm
  | case2 b next hslice _ ih =>
      obtain ⟨n, hrun, hnext, hle⟩ := run_of_slice hslice
      have hleft : limit - b.steps = n + (limit - next.steps) := by omega
      rw [ih hle, hleft, run_add_of_running hrun]

/-! ## The loop -/

/-- The boards at which slices begin when slices are made, and listened to, until one ends the run. -/
inductive SliceBegins (least : Severity) (limit : Nat) (b : Board) : Board → Prop where
  | first : SliceBegins least limit b b
  | next {c d : Board} {said : Array Message} (hbegins : SliceBegins least limit b c)
      (hheard : sliceHeard least (some limit) c = (none, d, said)) : SliceBegins least limit b d

variable {least : Severity} {limit : Nat}

theorem slice_of_heard {b last : Board} {exit? : Option Exit} {said : Array Message}
    (h : sliceHeard least (some limit) b = (exit?, last, said)) :
    slice (some limit) b = (exit?, last) := by
  rw [← sliceHeard_eq_slice least, h]

theorem exists_heard {b last : Board} {exit? : Option Exit} (least : Severity)
    (h : slice (some limit) b = (exit?, last)) :
    ∃ said, sliceHeard least (some limit) b = (exit?, last, said) := by
  rw [← sliceHeard_eq_slice least] at h
  obtain ⟨hexit, hlast⟩ := Prod.ext_iff.mp h
  exact ⟨_, Prod.ext hexit (Prod.ext hlast rfl)⟩

theorem SliceBegins.after {b c d : Board} {said : Array Message}
    (hheard : sliceHeard least (some limit) b = (none, c, said))
    (hbegins : SliceBegins least limit c d) : SliceBegins least limit b d := by
  induction hbegins with
  | first => exact .next .first hheard
  | next _ hslice ih => exact .next ih hslice

theorem runTo_of_ended {b last : Board} {exit : Exit}
    (h : slice (some limit) b = (some exit, last)) : runTo limit b = (exit, last) := by
  rw [runTo]
  split
  · rename_i found _ hslice
    rw [h] at hslice
    cases hslice
    rfl
  · rename_i hslice
    rw [h] at hslice
    cases hslice

theorem runTo_of_continued {b next : Board} (h : slice (some limit) b = (none, next)) :
    runTo limit b = runTo limit next := by
  rw [runTo]
  split
  · rename_i hslice
    rw [h] at hslice
    cases hslice
  · rename_i hslice
    rw [h] at hslice
    cases hslice
    rfl

theorem runTo_of_sliceBegins {b c : Board} (h : SliceBegins least limit b c) :
    runTo limit c = runTo limit b := by
  induction h with
  | first => rfl
  | next _ hheard ih => rw [← ih, runTo_of_continued (slice_of_heard hheard)]

/-- The slice that ends the run is one that begins in the loop, and it comes to the same end. -/
theorem exists_last_slice (least : Severity) (limit : Nat) (b : Board) :
    ∃ c said, SliceBegins least limit b c ∧
      sliceHeard least (some limit) c = (some (runTo limit b).1, (runTo limit b).2, said) := by
  fun_induction runTo limit b with
  | case1 b exit last hslice =>
      obtain ⟨said, hheard⟩ := exists_heard least hslice
      exact ⟨b, said, .first, hheard⟩
  | case2 b next hslice _ ih =>
      obtain ⟨_, hheard⟩ := exists_heard least hslice
      obtain ⟨c, said, hbegins, hlast⟩ := ih
      exact ⟨c, said, hbegins.after hheard, hlast⟩

/-- When a slice begins, every step has been counted, and none beyond the limit has been made. -/
theorem run_of_sliceBegins {b c : Board} (hsteps : b.steps ≤ limit)
    (h : SliceBegins least limit b c) :
    b.run (c.steps - b.steps) = (.running, c) ∧ b.steps ≤ c.steps ∧ c.steps ≤ limit := by
  induction h with
  | first =>
      rw [Nat.sub_self]
      exact ⟨rfl, Nat.le_refl _, hsteps⟩
  | @next c d _ _ hheard ih =>
      obtain ⟨hrun, hge, -⟩ := ih
      obtain ⟨n, hmore, hcount, hle⟩ := run_of_slice (slice_of_heard hheard)
      have hmade : d.steps - b.steps = (c.steps - b.steps) + n := by omega
      rw [hmade, run_add_of_running hrun]
      exact ⟨hmore, by omega, hle⟩

/--
A run that has not stopped has made all its steps, and can be gone on with as if there had been no
break. A run that has stopped stays where it is. So a run with a limit, which slices make up, comes
to what one run of the steps that are left comes to. It makes no more steps than those, and no slice
begins or reaches beyond the limit.
-/
theorem run_in_slices (b : Board) :
    (∀ n mid, b.run n = (.running, mid) →
      Makes n b (.running, mid) ∧ mid.steps = b.steps + n ∧
        ∀ k, b.run (n + k) = mid.run k) ∧
    (∀ n outcome last, b.run n = (outcome, last) → outcome ≠ .running →
      ∀ k, b.run (n + k) = (outcome, last)) ∧
    ∀ limit, b.steps ≤ limit →
      let left := limit - b.steps
      runTo limit b = (Exit.ofOutcome (b.run left).1, (b.run left).2) ∧
      (∃ made ≤ left, Makes made b (b.run left)) ∧
      ∀ least,
        (∃ c said, SliceBegins least limit b c ∧
          sliceHeard least (some limit) c = (some (runTo limit b).1, (runTo limit b).2, said)) ∧
        ∀ c, SliceBegins least limit b c →
          b.run (c.steps - b.steps) = (.running, c) ∧ b.steps ≤ c.steps ∧ c.steps ≤ limit ∧
            (∀ n, nextSlice? (some limit) c.steps = some n → c.steps + n ≤ limit) ∧
            ∀ exit last said, sliceHeard least (some limit) c = (some exit, last, said) →
              runTo limit b = (exit, last) := by
  refine ⟨?running, ?stopped, ?limited⟩
  case running =>
    intro n mid hrun
    exact ⟨makes_of_running hrun, steps_run_of_running hrun, run_add_of_running hrun⟩
  case stopped =>
    intro n outcome last hrun houtcome
    exact run_add_of_stopped hrun houtcome
  case limited =>
    intro limit hsteps left
    obtain ⟨made, hle, hmakes, -⟩ := b.makes_run left
    refine ⟨runTo_eq_run hsteps, ⟨made, hle, hmakes⟩, fun least => ?_⟩
    refine ⟨exists_last_slice least limit b, fun c hbegins => ?_⟩
    obtain ⟨hrun, hge, hreached⟩ := run_of_sliceBegins hsteps hbegins
    refine ⟨hrun, hge, hreached, fun n hn => add_nextSlice?_le hn, fun exit last said hlast => ?_⟩
    rw [← runTo_of_sliceBegins hbegins]
    exact runTo_of_ended (slice_of_heard hlast)

/-! ## A run across the end of a slice -/

/-- A memory that holds `jal x0, 0`, which jumps to itself. -/
def spinMemory : Ram :=
  Ram.empty.write defaultResetVector (leBytes 4 (0x0000006F : Word))

def spinBoard : Board :=
  (assemble .standard standardMap (.withInput []) 0).loadAll
    [(defaultResetVector, leBytes 4 (0x0000006F : Word))]

structure Spins (m : Machine Ram) : Prop where
  pc : m.hart.pc = defaultResetVector
  bus : m.bus = spinMemory
  interrupts : m.hart.csrs.interrupts = .reset

theorem fetch_of_spins {m : Machine Ram} (h : Spins m) : m.fetch = (0x0000006F, m) := by
  obtain ⟨hart, bus⟩ := m
  have hbus : bus = spinMemory := h.bus
  have hpc : hart.pc = defaultResetVector + BitVec.ofNat 32 0 := h.pc
  subst hbus
  exact Machine.fetch_program hpc (by decide) (by decide) Ram.empty

theorem instructionAt_spin (pc : Word) :
    Machine.instructionAt pc 0x0000006F = .ok (.j ⟨Opcode.jal, 0, 0⟩) := rfl

theorem attempt?_of_spins {m : Machine Ram} (h : Spins m) :
    m.attempt? =
      some (.j ⟨Opcode.jal, 0, 0⟩, .completed,
        { m with hart := m.hart.jumpAndLink 0 (m.hart.pc + 0) }) := by
  rw [Machine.attempt?_eq_some, fetch_of_spins h]
  exact ⟨instructionAt_spin m.hart.pc, rfl⟩

theorem round_of_spins {m : Machine Ram} (h : Spins m) :
    m.round.1 = .running ∧ Spins m.round.2 := by
  have hstep := Machine.step_of_attempt (attempt?_of_spins h)
  let last := (m.hart.jumpAndLink 0 (m.hart.pc + 0)).retire
  have hnone : last.nextInterrupt? = none := by
    apply Interrupts.next?_eq_none_of_mip_eq_zero
    change m.hart.csrs.interrupts.mip = 0
    rw [h.interrupts]
    decide
  have hround : m.round = (.running, { m with hart := last }) := by
    simp only [Machine.round, hstep]
    change (StepOutcome.running, Machine.takeInterrupt { m with hart := last }) = _
    simp only [Machine.takeInterrupt, Hart.takeInterrupt, hnone]
  rw [hround]
  refine ⟨rfl, ?_, h.bus, h.interrupts⟩
  change m.hart.pc + 0 = _
  rw [h.pc]
  rfl

theorem inMemory_of_spins {m : Machine Ram} (h : Spins m) :
    ∀ a ∈ m.stepAccesses, a.InMemory standardMap := by
  have hnone : m.fetch.2.executeAccesses (.j ⟨Opcode.jal, 0, 0⟩) = [] := rfl
  rw [Machine.stepAccesses_of_attempt (attempt?_of_spins h), hnone, h.pc]
  exact List.forall_mem_singleton.mpr (inMemory_of_word rfl (by decide) (by decide))

theorem run_of_spins {n : Nat} {b : Board} {m : Machine Ram} (hwraps : Wraps standardMap 0 b m)
    (hspins : Spins m) : (b.run n).1 = .running := by
  induction n generalizing b m with
  | zero => rfl
  | succ n ih =>
      obtain ⟨hrunning, hnext⟩ := round_of_spins hspins
      obtain ⟨houtcome, hwrapped⟩ := hwraps.step (by decide) (inMemory_of_spins hspins)
      have hstep : b.step = (.running, b.step.2) := Prod.ext (houtcome.trans hrunning) rfl
      rw [run, hstep]
      exact ih hwrapped hnext

theorem run_spinBoard (n : Nat) : spinBoard.run n = (.running, (spinBoard.run n).2) := by
  have hwraps : Wraps standardMap 0 spinBoard
      (Machine.start spinMemory defaultResetVector .selfTest 0) :=
    wraps_loaded (build_standard (.withInput []) 0) _ (.refl spinMemory)
  have hspins : Spins (Machine.start spinMemory defaultResetVector .selfTest 0) :=
    ⟨rfl, rfl, rfl⟩
  exact Prod.ext (run_of_spins hwraps hspins) rfl

def emptyBoard : Board :=
  assemble .standard standardMap (.withInput []) 0

theorem run_emptyBoard : emptyBoard.run 1 =
    (.fatal (.emptyInstruction defaultResetVector), emptyBoard.sampleLines) := by
  have hstep : emptyBoard.step =
      (.fatal (.emptyInstruction defaultResetVector), emptyBoard.sampleLines) :=
    step_of_empty rfl (by decide)
  rw [run, hstep]

theorem heard_of_running {n : Nat} {b next : Board} (hnext : nextSlice? (some limit) b.steps = some n)
    (hrun : b.run n = (.running, next)) :
    sliceHeard .error (some limit) b = (none, next, #[]) := by
  have hslice : slice (some limit) b = (none, next) := by
    simp only [slice, hnext, hrun, Exit.ofOutcome?]
  rw [sliceHeard, if_pos rfl, hslice]

theorem heard_of_reached {b : Board} (hnext : nextSlice? (some limit) b.steps = none) :
    sliceHeard .error (some limit) b = (some .stepLimit, b, #[]) := by
  have hslice : slice (some limit) b = (some .stepLimit, b) := by
    simp only [slice, hnext]
  rw [sliceHeard, if_pos rfl, hslice]

/--
Ten thousand jumps fill a slice, and the five after them are in a second one. Where there is nothing
to execute the run stops at once.
-/
theorem run_in_slices_spinning :
    let mid := (spinBoard.run 10000).2
    let last := (spinBoard.run 10005).2
    let stopped := emptyBoard.sampleLines
    spinBoard.run 10000 = (.running, mid) ∧ Makes 10000 spinBoard (.running, mid) ∧
      mid.run 5 = (.running, last) ∧ spinBoard.steps ≤ 10005 ∧
      SliceBegins .error 10005 spinBoard mid ∧
      sliceHeard .error (some 10005) last = (some .stepLimit, last, #[]) ∧
      runTo 10005 spinBoard = (.stepLimit, last) ∧
      emptyBoard.run 1 = (.fatal (.emptyInstruction defaultResetVector), stopped) ∧
      emptyBoard.run 3 = (.fatal (.emptyInstruction defaultResetVector), stopped) := by
  intro mid last stopped
  obtain ⟨hrunning, -, hlimited⟩ := run_in_slices spinBoard
  obtain ⟨-, hstopped, -⟩ := run_in_slices emptyBoard
  have hsteps : spinBoard.steps ≤ 10005 := by decide
  have hmid : spinBoard.run 10000 = (.running, mid) := run_spinBoard 10000
  have hlast : spinBoard.run 10005 = (.running, last) := run_spinBoard 10005
  obtain ⟨hmakes, hmidSteps, hmore⟩ := hrunning 10000 mid hmid
  obtain ⟨-, hlastSteps, -⟩ := hrunning 10005 last hlast
  have hzero : spinBoard.steps = 0 := rfl
  have hrest : mid.run 5 = (.running, last) := by
    rw [← hmore 5]
    exact hlast
  obtain ⟨-, -, hslices⟩ := hlimited 10005 hsteps
  have hfirst : sliceHeard .error (some 10005) spinBoard = (none, mid, #[]) :=
    heard_of_running rfl hmid
  have hsecond : sliceHeard .error (some 10005) mid = (none, last, #[]) := by
    have hnext : nextSlice? (some 10005) mid.steps = some 5 := by
      rw [hmidSteps, hzero]
      decide
    exact heard_of_running hnext hrest
  have hthird : sliceHeard .error (some 10005) last = (some .stepLimit, last, #[]) := by
    have hnext : nextSlice? (some 10005) last.steps = none := by
      rw [hlastSteps, hzero]
      decide
    exact heard_of_reached hnext
  have hbegins : SliceBegins .error 10005 spinBoard mid := .next .first hfirst
  obtain ⟨-, hcases⟩ := hslices .error
  obtain ⟨-, -, -, -, hends⟩ := hcases last (.next hbegins hsecond)
  exact ⟨hmid, hmakes, hrest, hsteps, hbegins, hthird, hends _ _ _ hthird, run_emptyBoard,
    hstopped 1 _ stopped run_emptyBoard (by decide) 2⟩

end Board

end Rv32
