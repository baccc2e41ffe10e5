import Rv32.Board.Construction

/-!
# Running a board

One step of a board samples the interrupt lines of the devices, makes a step
of the hart, samples the lines again and takes an interrupt if one is due. The
first sampling shows the devices' state to the instruction, the second one
lets an interrupt be taken at once. Now and then the UART takes console input
on its own, so that software need not poll for it.
-/

namespace Rv32

namespace Board

def machineContext : Nat := 0

def supervisorContext : Nat := 1

def copyLines (s : Interrupts) (bus : SystemBus) : Interrupts :=
  (((s.setMachineSoftware bus.clint.softwareLine).setMachineTimer
      bus.clint.timerLine).setMachineExternal
      (bus.plic.contextLine machineContext)).setSupervisorExternal
      (bus.plic.contextLine supervisorContext)

/-- The hart with the lines of the devices copied into its pending interrupts. -/
def withLines (h : Hart) (bus : SystemBus) : Hart :=
  { h with csrs := { h.csrs with interrupts := copyLines h.csrs.interrupts bus } }

def sampleLines (b : Board) : Board :=
  let bus := b.bus.sampleLines
  { b with machine := { hart := withLines b.hart bus, bus := bus } }

/-- The number of steps from one spontaneous poll of the UART to the next. -/
def pollInterval : Nat := 1024

/-- The board after the UART has taken input on its own, if it is time to. -/
def pollUart (b : Board) : Board :=
  if b.steps % pollInterval = 0 ∧ b.bus.uart.receiveEnabled = true then
    b.withBus { b.bus with uart := b.bus.uart.poll }
  else b

def takeInterrupt (b : Board) : Board :=
  b.withHart b.hart.takeInterrupt.2

def countStep (b : Board) (machine : Machine SystemBus) : Board :=
  pollUart { machine := machine, steps := b.steps + 1 }

/-- One step. A step that is fatal is not counted. -/
def step (b : Board) : StepOutcome × Board :=
  let sampled := b.sampleLines
  match sampled.machine.step with
  | (.fatal f, machine) => (.fatal f, { sampled with machine := machine })
  | (.exited v, machine) => (.exited v, sampled.countStep machine)
  | (.running, machine) => (.running, (sampled.countStep machine).sampleLines.takeInterrupt)

/-- Up to `n` steps. The outcome is `running` if all of them have been made. -/
def run : Nat → Board → StepOutcome × Board
  | 0, b => (.running, b)
  | n + 1, b =>
      match b.step with
      | (.running, next) => next.run n
      | stopped => stopped

/-! ## The count of steps -/

@[simp] theorem steps_sampleLines (b : Board) : b.sampleLines.steps = b.steps := rfl

@[simp] theorem steps_takeInterrupt (b : Board) : b.takeInterrupt.steps = b.steps := rfl

@[simp] theorem steps_countStep (b : Board) (machine : Machine SystemBus) :
    (b.countStep machine).steps = b.steps + 1 := by
  unfold countStep pollUart
  split <;> rfl

theorem steps_step_of_running {b next : Board} (h : b.step = (.running, next)) :
    next.steps = b.steps + 1 := by
  simp only [step] at h
  split at h
  · simp at h
  · simp at h
  · injection h with _ h
    subst h
    simp

theorem steps_run_of_running {n : Nat} {b next : Board} (h : b.run n = (.running, next)) :
    next.steps = b.steps + n := by
  induction n generalizing b with
  | zero =>
      injection h with _ h
      simp [h]
  | succ n ih =>
      rw [run] at h
      split at h
      · rename_i first hstep
        have hfirst := steps_step_of_running hstep
        have hrest := ih h
        omega
      · rename_i hstop
        exact absurd h (hstop next)

/-! ## Messages -/

def stepNotices (b : Board) : List Message :=
  let sampled := b.sampleLines
  sampled.machine.stepNotices ++
    match sampled.machine.step with
    | (.running, machine) => (sampled.countStep machine).sampleLines.hart.interruptNotices
    | _ => []

/-- Up to `n` steps, with what is said about them after `said`. -/
def runAloud : Nat → Board → Array Message → StepOutcome × Board × Array Message
  | 0, b, said => (.running, b, said)
  | n + 1, b, said =>
      let said := said ++ b.stepNotices
      match b.step with
      | (.running, next) => next.runAloud n said
      | (outcome, next) => (outcome, next, said)

theorem runAloud_eq_run (n : Nat) (b : Board) (said : Array Message) :
    ((b.runAloud n said).1, (b.runAloud n said).2.1) = b.run n := by
  induction n generalizing b said with
  | zero => rfl
  | succ n ih =>
      rw [runAloud, run]
      rcases b.step with ⟨outcome, next⟩
      cases outcome with
      | running => exact ih next _
      | exited v => rfl
      | fatal f => rfl

end Board

end Rv32
