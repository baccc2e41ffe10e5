import Rv32.Proofs.Board.Quiet
import Rv32.Proofs.Board.Reachable
import Rv32.Proofs.Board.Routing
import Rv32.Proofs.Hart.Run
import Rv32.Proofs.Memory.Ram

/-! # Boards whose programs stay in memory

A program that never touches a device window does not notice the board around
it. The devices stay as they were after reset, so their lines stay low, and the
bus takes every access to main memory as it is. Step by step the board does what
a hart does that is wired to memory alone.
-/

namespace Rv32

/-- The access lies in one gap between the windows, which belongs to main memory. -/
structure Access.InMemory (map : MemoryMap Resource) (a : Access) : Prop where
  oneRegion : map.InOneRegion a.address a.size
  vacant : map.Vacant a.address

namespace SystemBus

theorem serve_of_inMemory {b : SystemBus} {a : Access} (h : a.InMemory b.map) :
    (a.answer b, a.apply b) = b.serve none a := by
  rcases Nat.eq_zero_or_pos a.size with hempty | hsize
  · -- An access without a byte has no route, and memory makes nothing of it either.
    cases a with
    | read address size =>
        change size = 0 at hempty
        subst hempty
        rfl
    | write address bytes =>
        have hnil : bytes = [] := List.length_eq_zero_iff.mp hempty
        subst hnil
        rfl
  · exact serve_of_vacant h.oneRegion hsize h.vacant

/-- The bus is `origin` with a main memory that holds what `ram` holds. -/
structure Around (origin : SystemBus) (ram : Ram) (b : SystemBus) : Prop where
  contents : ram.SameContents b.ram
  rest : b = { origin with ram := b.ram }

theorem Around.of_ram {origin b : SystemBus} {ram : Ram} (h : origin.Around ram b) {next after : Ram}
    (hsame : next.SameContents after) : origin.Around next { b with ram := after } := by
  refine ⟨hsame, ?_⟩
  rw [h.rest]

theorem Around.map {origin b : SystemBus} {ram : Ram} (h : origin.Around ram b) :
    b.map = origin.map := by
  rw [h.rest]

/-- For accesses in main memory the bus around a memory is like the memory alone. -/
theorem coupled_around (origin : SystemBus) :
    Bus.Coupled origin.Around (Access.InMemory origin.map) where
  answer := by
    intro ram b address size haround hin
    rw [← haround.map] at hin
    have hserved : (Bus.read b address size).1 = b.ram.read address size :=
      congrArg Prod.fst (serve_of_inMemory hin)
    rw [hserved]
    exact haround.contents.read_eq address size
  read := by
    intro ram b address size haround hin
    rw [← haround.map] at hin
    have hserved : (Bus.read b address size).2 = { b with ram := b.ram } :=
      congrArg Prod.snd (serve_of_inMemory hin)
    rw [hserved]
    exact haround
  write := by
    intro ram b address bytes haround hin
    rw [← haround.map] at hin
    have hserved : Bus.write b address bytes = { b with ram := b.ram.write address bytes } :=
      congrArg Prod.snd (serve_of_inMemory hin)
    rw [hserved]
    exact haround.of_ram (haround.contents.write address bytes)

end SystemBus

/-! ## Rounds of a machine -/

namespace Machine

variable {β : Type}

def withClock (m : Machine β) (clock : DoubleWord) : Machine β :=
  { m with hart := m.hart.withClock clock }

def takeInterrupt (m : Machine β) : Machine β :=
  { m with hart := m.hart.takeInterrupt.2 }

/-- One step, and the interrupt that is due after it if the machine can go on. -/
def round [Bus β] (m : Machine β) : StepOutcome × Machine β :=
  match m.step with
  | (.running, after) => (.running, after.takeInterrupt)
  | stopped => stopped

def rounds [Bus β] (m : Machine β) : List DoubleWord → List StepOutcome × Machine β
  | [] => ([], m)
  | clock :: rest =>
      let first := (m.withClock clock).round
      let others := first.2.rounds rest
      (first.1 :: others.1, others.2)

def StaysInMemory [Bus β] (map : MemoryMap Resource) (m : Machine β) : List DoubleWord → Prop
  | [] => True
  | clock :: rest =>
      (∀ a ∈ (m.withClock clock).stepAccesses, a.InMemory map) ∧
        StaysInMemory map (m.withClock clock).round.2 rest

end Machine

namespace Board

structure Moment where
  clock : DoubleWord
  input : List Byte

def await (b : Board) (t : Moment) : Board :=
  let ticked := b.withClock t.clock
  ticked.withBus (ticked.bus.arrive t.input)

/-- Steps at the given moments: what each of them comes to, and the board after all of them. -/
def calls (b : Board) : List Moment → List StepOutcome × Board
  | [] => ([], b)
  | t :: rest =>
      let first := (b.await t).step
      let others := first.2.calls rest
      (first.1 :: others.1, others.2)

def loadAll (b : Board) : List (Word × List Byte) → Board
  | [] => b
  | (a, bytes) :: rest => (b.load a bytes).loadAll rest

/-! ## One step -/

/-- The board is the machine `m` with devices around its memory that nobody has touched. -/
structure Wraps (map : MemoryMap Resource) (clock : DoubleWord) (b : Board) (m : Machine Ram) :
    Prop where
  hart : b.hart = m.hart
  low : m.hart.LinesLow
  map : b.bus.map = map
  contents : m.bus.SameContents b.bus.ram
  untouched : b.bus.Untouched clock

variable {map : MemoryMap Resource} {clock : DoubleWord} {b : Board} {m : Machine Ram}

theorem Wraps.await (h : Wraps map clock b m) (t : Moment) :
    Wraps map t.clock (b.await t) (m.withClock t.clock) :=
  { hart := congrArg (Hart.withClock · t.clock) h.hart
    low := h.low
    map := h.map
    contents := h.contents
    untouched := (h.untouched.withClock t.clock).arrive t.input }

theorem Wraps.takeInterrupt (h : Wraps map clock b m) :
    Wraps map clock b.takeInterrupt m.takeInterrupt :=
  { hart := congrArg (fun hart => hart.takeInterrupt.2) h.hart
    low := Hart.stable_linesLow.takeInterrupt h.low
    map := h.map
    contents := h.contents
    untouched := h.untouched }

theorem Wraps.sampleLines_eq (h : Wraps map clock b m) (hclock : clock < BitVec.allOnes 64) :
    b.sampleLines = b := by
  have hlow : b.hart.LinesLow := by
    rw [h.hart]
    exact h.low
  exact sampleLines_of_untouched hlow h.untouched hclock

/-- The step of the hart inside the board is that of the bare machine. -/
theorem Wraps.machine_step (h : Wraps map clock b m)
    (hstays : ∀ a ∈ m.stepAccesses, a.InMemory map) :
    b.machine.step.1 = m.step.1 ∧
      ∀ steps, Wraps map clock { machine := b.machine.step.2, steps := steps } m.step.2 := by
  have hmachine : b.machine = { hart := m.hart, bus := b.bus } := by
    rw [← h.hart]
    rfl
  have haround : b.bus.Around m.bus b.bus := ⟨h.contents, rfl⟩
  rw [← h.map] at hstays
  obtain ⟨houtcome, hhart, hafter⟩ :=
    Machine.step_coupled (SystemBus.coupled_around b.bus) haround hstays
  rw [← hmachine] at houtcome hhart hafter
  refine ⟨houtcome.symm, fun steps => ?_⟩
  exact
    { hart := hhart.symm
      low := Machine.step_of_stable Hart.stable_linesLow h.low
      map := hafter.map.trans h.map
      contents := hafter.contents
      untouched := by
        change b.machine.step.2.bus.Untouched clock
        rw [hafter.rest]
        exact h.untouched.withRam _ }

theorem wraps_countStep {machine : Machine SystemBus} {after : Machine Ram}
    (hafter : ∀ steps, Wraps map clock { machine := machine, steps := steps } after) (b : Board) :
    Wraps map clock (b.countStep machine) after := by
  unfold Board.countStep
  rw [pollUart_of_untouched (hafter (b.steps + 1)).untouched]
  exact hafter (b.steps + 1)

/-- A step of the board is a round of the bare machine. -/
theorem Wraps.step (h : Wraps map clock b m) (hclock : clock < BitVec.allOnes 64)
    (hstays : ∀ a ∈ m.stepAccesses, a.InMemory map) :
    b.step.1 = m.round.1 ∧ Wraps map clock b.step.2 m.round.2 := by
  obtain ⟨houtcome, hafter⟩ := h.machine_step hstays
  have hcounted := wraps_countStep hafter b
  simp only [Board.step, h.sampleLines_eq hclock, Machine.round]
  generalize hinner : b.machine.step = inner at *
  generalize hbare : m.step = bare at *
  obtain ⟨outcome, machine⟩ := inner
  obtain ⟨_, after⟩ := bare
  subst houtcome
  cases outcome with
  | fatal f => exact ⟨rfl, hafter b.steps⟩
  | exited v => exact ⟨rfl, hcounted⟩
  | running =>
      refine ⟨rfl, ?_⟩
      change Wraps map clock (b.countStep machine).sampleLines.takeInterrupt after.takeInterrupt
      rw [hcounted.sampleLines_eq hclock]
      exact hcounted.takeInterrupt

/-! ## Runs -/

theorem Wraps.calls (h : Wraps map clock b m) {moments : List Moment}
    (htime : ∀ t ∈ moments, t.clock < BitVec.allOnes 64)
    (hstays : m.StaysInMemory map (moments.map Moment.clock)) :
    (b.calls moments).1 = (m.rounds (moments.map Moment.clock)).1 ∧
      ∃ last, Wraps map last (b.calls moments).2 (m.rounds (moments.map Moment.clock)).2 := by
  induction moments generalizing clock b m with
  | nil => exact ⟨rfl, clock, h⟩
  | cons t rest ih =>
      obtain ⟨hclock, hlater⟩ := List.forall_mem_cons.mp htime
      obtain ⟨hfirst, hrest⟩ := hstays
      -- The devices stay untouched at any clock, so only the time of this step matters here.
      obtain ⟨houtcome, hnext⟩ := (h.await t).step hclock hfirst
      obtain ⟨houtcomes, hlast⟩ := ih hnext hlater hrest
      refine ⟨?_, hlast⟩
      simp only [Board.calls, List.map_cons, Machine.rounds]
      rw [houtcome, houtcomes]

theorem bus_loadAll (b : Board) (images : List (Word × List Byte)) :
    (b.loadAll images).hart = b.hart ∧
      (b.loadAll images).bus = { b.bus with ram := (b.loadAll images).bus.ram } := by
  induction images generalizing b with
  | nil => exact ⟨rfl, rfl⟩
  | cons image rest ih =>
      obtain ⟨a, bytes⟩ := image
      obtain ⟨hhart, hbus⟩ := ih (b.load a bytes)
      have hload : (b.load a bytes).bus = { b.bus with ram := (b.bus.load a bytes).ram } :=
        b.bus.load_eq a bytes
      refine ⟨hhart, ?_⟩
      rw [loadAll, hbus, hload]

/-- A new board into which images have been loaded, and a new hart on memory that holds the same. -/
theorem wraps_loaded {config : BoardConfig} {console : Console} {clock : DoubleWord}
    (hbuild : build config console clock = .ok b) (images : List (Word × List Byte)) {ram : Ram}
    (hram : ram.SameContents (b.loadAll images).bus.ram) :
    Wraps b.bus.map clock (b.loadAll images)
      (Machine.start ram config.ramBase config.ecallMode clock) := by
  obtain ⟨hhart, hbus⟩ := b.bus_loadAll images
  unfold build at hbuild
  split at hbuild
  · cases hbuild
    exact
      { hart := hhart
        low := Interrupts.linesLow_reset
        map := by
          rw [hbus]
        contents := hram
        untouched := by
          rw [hbus]
          exact ⟨rfl, rfl, console, rfl⟩ }
  · cases hbuild

/--
A board that is new but for the images loaded into it, and a new hart of the
same configuration on memory that holds the same, run side by side: at the same
times, all of them before the last one there is, and with all accesses in main
memory. Then each step of the board comes to what the hart's step does, followed
by the interrupt that is due if it can go on, and after all of them the harts
are the same and the memories hold the same. Console input makes no difference.
-/
theorem run_in_memory {config : BoardConfig} {console : Console} {clock : DoubleWord}
    (hbuild : build config console clock = .ok b) (images : List (Word × List Byte)) {ram : Ram}
    (hram : ram.SameContents (b.loadAll images).bus.ram) (moments : List Moment)
    (htime : ∀ t ∈ moments, t.clock < BitVec.allOnes 64)
    (hstays : (Machine.start ram config.ramBase config.ecallMode clock).StaysInMemory b.bus.map
      (moments.map Moment.clock)) :
    let board := (b.loadAll images).calls moments
    let bare := (Machine.start ram config.ramBase config.ecallMode clock).rounds
      (moments.map Moment.clock)
    board.1 = bare.1 ∧ board.2.hart = bare.2.hart ∧
      bare.2.bus.SameContents board.2.bus.ram := by
  intro board bare
  obtain ⟨houtcomes, last, hwraps⟩ := (wraps_loaded hbuild images hram).calls htime hstays
  exact ⟨houtcomes, hwraps.hart, hwraps.contents⟩

/-! ## A run in memory -/

/-- The program `lw x5, 0x100(x0)`, `sw x5, 0x104(x0)`. -/
def copyProgram : List Byte :=
  leBytes 4 (0x10002283 : Word) ++ leBytes 4 (0x10502223 : Word)

def copyMemory : Ram :=
  Ram.empty.write defaultResetVector copyProgram

def copiedWord : Word :=
  LoadOp.lw.extend (copyMemory.read 0x100 4)

theorem instructionAt_copyLoad (pc : Word) :
    Machine.instructionAt pc (ofLeBytes 32 ((copyProgram.drop 0).take 4)) =
      .ok (.i ⟨Opcode.load, 5, 2, 0, 0x100⟩) := by
  have hword : ofLeBytes 32 ((copyProgram.drop 0).take 4) = 0x10002283 := by decide
  rw [hword]
  rfl

theorem instructionAt_copyStore (pc : Word) :
    Machine.instructionAt pc (ofLeBytes 32 ((copyProgram.drop 4).take 4)) =
      .ok (.s ⟨Opcode.store, 2, 0, 5, 0x104⟩) := by
  have hword : ofLeBytes 32 ((copyProgram.drop 4).take 4) = 0x10502223 := by decide
  rw [hword]
  rfl

theorem attempt?_copyLoad {h : Hart} (hpc : h.pc = defaultResetVector + BitVec.ofNat 32 0) :
    Machine.attempt? ⟨h, copyMemory⟩ =
      some (.i ⟨Opcode.load, 5, 2, 0, 0x100⟩, .completed,
        ⟨h.writeBack 5 copiedWord, copyMemory⟩) := by
  rw [Machine.attempt?_eq_some, copyMemory, Machine.fetch_program hpc (by decide) (by decide)]
  exact ⟨instructionAt_copyLoad h.pc, rfl⟩

theorem attempt?_copyStore {h : Hart} (hpc : h.pc = defaultResetVector + BitVec.ofNat 32 4) :
    Machine.attempt? ⟨h, copyMemory⟩ =
      some (.s ⟨Opcode.store, 2, 0, 5, 0x104⟩, .completed,
        ⟨h.advance, copyMemory.write 0x104 (leBytes 4 (h.x 5))⟩) := by
  rw [Machine.attempt?_eq_some, copyMemory, Machine.fetch_program hpc (by decide) (by decide)]
  exact ⟨instructionAt_copyStore h.pc, rfl⟩

def copyMachine : Machine Ram :=
  Machine.start copyMemory defaultResetVector .selfTest 0

def copyLoaded : Machine Ram :=
  { copyMachine with
    hart := ((copyMachine.withClock 5).hart.writeBack 5 copiedWord).retire }

theorem round_copyMachine : (copyMachine.withClock 5).round = (.running, copyLoaded) := by
  have hattempt : (copyMachine.withClock 5).attempt? = _ := attempt?_copyLoad rfl
  have hnone : copyLoaded.hart.nextInterrupt? = none := by decide
  have hinterrupt : copyLoaded.takeInterrupt = copyLoaded := by
    simp only [Machine.takeInterrupt, Hart.takeInterrupt, hnone]
  simp only [Machine.round, Machine.step_of_attempt hattempt]
  exact congrArg (Prod.mk _) hinterrupt

theorem inMemory_of_word {a : Access} (hsize : a.size = 4)
    (hlast : 3 ≤ ((standardMap.lookup a.address).1.last - a.address).toNat)
    (hvacant : standardMap.Vacant a.address) : a.InMemory standardMap := by
  refine ⟨?_, hvacant⟩
  rw [hsize]
  exact (standardMap.inOneRegion_succ_iff a.address 3).mpr hlast

theorem staysInMemory_copyMachine : copyMachine.StaysInMemory standardMap [5, 6] := by
  have hload : (copyMachine.withClock 5).attempt? = _ := attempt?_copyLoad rfl
  have hstore : (copyLoaded.withClock 6).attempt? = _ := attempt?_copyStore rfl
  have hread : (copyMachine.withClock 5).fetch.2.executeAccesses
      (.i ⟨Opcode.load, 5, 2, 0, 0x100⟩) = [.read 0x100 4] := rfl
  have hwrite : (copyLoaded.withClock 6).fetch.2.executeAccesses
      (.s ⟨Opcode.store, 2, 0, 5, 0x104⟩) = [.write 0x104 (leBytes 4 (copyLoaded.hart.x 5))] := rfl
  refine ⟨?_, ?_, trivial⟩
  · rw [Machine.stepAccesses_of_attempt hload, hread]
    refine List.forall_mem_cons.mpr ⟨?_, List.forall_mem_singleton.mpr ?_⟩
    · exact inMemory_of_word rfl (by decide) (by decide)
    · exact inMemory_of_word rfl (by decide) (by decide)
  · rw [round_copyMachine, Machine.stepAccesses_of_attempt hstore, hwrite]
    refine List.forall_mem_cons.mpr ⟨?_, List.forall_mem_singleton.mpr ?_⟩
    · exact inMemory_of_word rfl (by decide) (by decide)
    · exact inMemory_of_word (length_leBytes 4 _) (by decide) (by decide)

/-- A board with the program, and a byte that arrives at the console before its second step. -/
theorem run_in_memory_copy :
    let b := assemble .standard standardMap (.withInput []) 0
    let board := (b.loadAll [(defaultResetVector, copyProgram)]).calls [⟨5, []⟩, ⟨6, [0x61]⟩]
    let bare := copyMachine.rounds [5, 6]
    copyMachine.StaysInMemory standardMap [5, 6] ∧ board.1 = bare.1 ∧
      board.2.hart = bare.2.hart ∧ bare.2.bus.SameContents board.2.bus.ram := by
  intro b board bare
  have hram : copyMemory.SameContents
      (b.loadAll [(defaultResetVector, copyProgram)]).bus.ram := .refl copyMemory
  have htime : ∀ t ∈ [Moment.mk 5 [], Moment.mk 6 [0x61]], t.clock < BitVec.allOnes 64 := by
    decide
  exact ⟨staysInMemory_copyMachine,
    run_in_memory (build_standard (.withInput []) 0) [(defaultResetVector, copyProgram)] hram
      [⟨5, []⟩, ⟨6, [0x61]⟩] htime staysInMemory_copyMachine⟩

end Board

end Rv32
