import Rv32.Proofs.Board.Sampling
import Rv32.Proofs.Board.Standard
import Rv32.Proofs.Hart.Step
import Rv32.Proofs.Memory.Ram
import Rv32.Proofs.Trap.Entry

/-! # Interrupts that end a wait

A wait leaves the program counter where it is unless some interrupt was already
pending when the lines were sampled. If the UART takes a byte right after the
wait, the interrupt is pending at the second sampling only: it is taken while
the program counter still stands at the wait, and its handler returns there.
-/

namespace Rv32

namespace Hart

theorem csrs_wfi (h : Hart) : h.wfi.2.csrs = h.csrs := by
  unfold wfi
  split
  · rfl
  · split
    · rfl
    · rfl

theorem pc_wfi {h : Hart} (hdone : h.wfi.1 = .completed) :
    h.wfi.2.pc = if h.csrs.interrupts.mip = 0 then h.pc else h.pc + 4 := by
  unfold wfi at *
  by_cases htw : (h.csrs.status.tw && decide (h.level ≠ .machine)) = true
  · rw [if_pos htw] at hdone
    cases hdone
  · rw [if_neg htw]
    split
    · rfl
    · rfl

end Hart

theorem SystemBus.read_of_route {b : SystemBus} {address : Word} {size : Nat} {route : Route}
    (h : b.route? address size = some route) : Bus.read b address size = b.readFrom size route := by
  simp only [Bus.read, h]

namespace Board

structure AtWait (b : Board) : Prop where
  aligned : b.hart.pc.IsAligned
  inRam : b.bus.route? b.hart.pc 4 = some (.ram b.hart.pc)
  isWait : ∃ i,
    Machine.instructionAt b.hart.pc (ofLeBytes 32 (b.bus.ram.read b.hart.pc 4)) = .ok i ∧
      i.operation? = some (.imm .wfi)

/-- The interrupt that the next step takes after its instruction, if any. -/
def interruptTaken? (b : Board) : Option Interrupt :=
  match b.sampleLines.machine.step with
  | (.running, machine) => (b.sampleLines.countStep machine).sampleLines.hart.nextInterrupt?
  | _ => none

def savedPc (b : Board) : Word :=
  b.hart.csrs.epc b.hart.level

def waited (b : Board) : Board :=
  { machine := { b.sampleLines.machine with hart := b.sampleLines.hart.wfi.2.retire }
    steps := b.steps + 1 }

theorem pc_waited {b : Board} (hdone : b.sampleLines.hart.wfi.1 = .completed) :
    b.waited.hart.pc =
      if b.sampleLines.hart.csrs.interrupts.mip = 0 then b.hart.pc else b.hart.pc + 4 :=
  Hart.pc_wfi hdone

theorem interrupts_waited (b : Board) :
    b.waited.hart.csrs.interrupts = b.sampleLines.hart.csrs.interrupts := by
  change b.sampleLines.hart.wfi.2.csrs.interrupts = _
  rw [Hart.csrs_wfi]

theorem isSampled_waited (b : Board) : b.waited.IsSampled := by
  have hsampled := b.isSampled_sampleLines
  unfold IsSampled at *
  rw [interrupts_waited]
  refine Eq.trans ?_ hsampled
  change copyLines b.waited.hart.csrs.interrupts b.sampleLines.bus.sampleLines = _
  rw [interrupts_waited]
  rfl

/-! ## The step -/

theorem fetch_from_ram {b : Board} (hroute : b.bus.route? b.hart.pc 4 = some (.ram b.hart.pc)) :
    b.sampleLines.machine.fetch =
      (ofLeBytes 32 (b.bus.ram.read b.hart.pc 4), b.sampleLines.machine) := by
  have hsampled : b.sampleLines.bus.route? b.hart.pc 4 = some (.ram b.hart.pc) := hroute
  exact Machine.fetch_of_read (SystemBus.read_of_route hsampled)

theorem fetch_at_wait {b : Board} (hwait : b.AtWait) :
    b.sampleLines.machine.fetch =
      (ofLeBytes 32 (b.bus.ram.read b.hart.pc 4), b.sampleLines.machine) :=
  fetch_from_ram hwait.inRam

theorem machine_step_at_wait {b : Board} (hwait : b.AtWait)
    (hdone : b.sampleLines.hart.wfi.1 = .completed) :
    b.sampleLines.machine.step = (.running, b.waited.machine) := by
  obtain ⟨i, hi, hop⟩ := hwait.isWait
  have hexec := b.sampleLines.machine.execute_wfi hop
  have hattempt : b.sampleLines.machine.attempt? =
      some (i, b.sampleLines.machine.settle b.sampleLines.hart.wfi) := by
    rw [Machine.attempt?_eq_some, fetch_at_wait hwait]
    exact ⟨hi, hexec⟩
  rw [Machine.step_of_attempt hattempt, hdone]
  rfl

theorem step_at_wait {b : Board} (hwait : b.AtWait)
    (hdone : b.sampleLines.hart.wfi.1 = .completed) :
    b.step = (.running, b.waited.pollUart.sampleLines.takeInterrupt) := by
  simp only [step, machine_step_at_wait hwait hdone]
  rfl

theorem interruptTaken?_at_wait {b : Board} (hwait : b.AtWait)
    (hdone : b.sampleLines.hart.wfi.1 = .completed) :
    b.interruptTaken? = b.waited.pollUart.sampleLines.hart.nextInterrupt? := by
  simp only [interruptTaken?, machine_step_at_wait hwait hdone]
  rfl

theorem hart_takeInterrupt {b : Board} {i : Interrupt} (h : b.hart.nextInterrupt? = some i) :
    b.takeInterrupt.hart = b.hart.trap (.interrupt i) := by
  unfold takeInterrupt Hart.takeInterrupt
  rw [h]
  rfl

/-! ## The interrupt -/

/-- Sampling the same timer and software lines again changes only the external interrupts. -/
theorem isPending_copyLines (s : Interrupts) {first second : SystemBus}
    (hclint : second.clint = first.clint) {i : Interrupt} (hmachine : i ≠ .machineExternal)
    (hsupervisor : i ≠ .supervisorExternal) :
    (copyLines (copyLines s first) second).isPending i = (copyLines s first).isPending i := by
  cases i with
  | machineExternal => exact absurd rfl hmachine
  | supervisorExternal => exact absurd rfl hsupervisor
  | machineSoftware => exact congrArg Clint.softwareLine hclint
  | machineTimer => exact congrArg Clint.timerLine hclint
  | supervisorSoftware => rfl
  | supervisorTimer => rfl

theorem isPending_after_poll (b : Board) {i : Interrupt} (hmachine : i ≠ .machineExternal)
    (hsupervisor : i ≠ .supervisorExternal) :
    b.waited.pollUart.sampleLines.hart.csrs.interrupts.isPending i =
      b.sampleLines.hart.csrs.interrupts.isPending i := by
  have hclint : b.waited.pollUart.bus.sampleLines.clint = b.bus.sampleLines.clint :=
    b.waited.clint_pollUart
  change (copyLines b.waited.pollUart.hart.csrs.interrupts
    b.waited.pollUart.bus.sampleLines).isPending i = _
  rw [hart_pollUart, interrupts_waited]
  exact isPending_copyLines _ hclint hmachine hsupervisor

/-- An interrupt that was not pending when the wait was executed comes from a byte just received. -/
theorem receives_of_late_interrupt {b : Board}
    (hmip : b.sampleLines.hart.csrs.interrupts.mip = 0) {i : Interrupt}
    (htaken : b.waited.pollUart.sampleLines.hart.nextInterrupt? = some i) :
    b.waited.Receives ∧ (i = .machineExternal ∨ i = .supervisorExternal) := by
  constructor
  · by_cases hreceives : b.waited.Receives
    · exact hreceives
    · -- Without a new byte the second sampling shows what the first one showed.
      have hnone : b.waited.sampleLines.hart.nextInterrupt? = none := by
        apply Interrupts.next?_eq_none_of_mip_eq_zero
        rw [b.isSampled_waited, interrupts_waited]
        exact hmip
      rw [pollUart_eq_self hreceives, hnone] at htaken
      cases htaken
  · have hpending := Interrupts.isPending_of_next? htaken
    by_cases hmachine : i = .machineExternal
    · exact .inl hmachine
    · by_cases hsupervisor : i = .supervisorExternal
      · exact .inr hsupervisor
      · rw [isPending_after_poll b hmachine hsupervisor,
          Interrupts.isPending_of_mip_eq_zero hmip] at hpending
        cases hpending

theorem savedPc_at_wait {b : Board} (hwait : b.AtWait)
    (hdone : b.sampleLines.hart.wfi.1 = .completed) {i : Interrupt}
    (htaken : b.interruptTaken? = some i) :
    b.step.2.savedPc =
      if b.sampleLines.hart.csrs.interrupts.mip = 0 then b.hart.pc else b.hart.pc + 4 := by
  rw [interruptTaken?_at_wait hwait hdone] at htaken
  have hpc : b.waited.pollUart.sampleLines.hart.pc = b.waited.hart.pc := by
    rw [pc_sampleLines, hart_pollUart]
  rw [step_at_wait hwait hdone]
  unfold savedPc
  rw [hart_takeInterrupt htaken, Hart.level_trap, Hart.epc_trap, hpc, pc_waited hdone]
  split
  · exact (Word.alignDown_eq_self_iff _).mpr hwait.aligned
  · exact (Word.alignDown_eq_self_iff _).mpr ((Word.isAligned_add_four _).mpr hwait.aligned)

/--
The interrupt that ends a wait saves the address of the next instruction if, and
only if, something was pending when the wait was executed. Otherwise it saves
the address of the wait, and it is the external interrupt of a byte that the
UART has taken on its own in between.
-/
theorem resume_after_wait_iff {b : Board} (hwait : b.AtWait)
    (hdone : b.sampleLines.hart.wfi.1 = .completed) {i : Interrupt}
    (htaken : b.interruptTaken? = some i) :
    (b.step.2.savedPc = b.hart.pc + 4 ↔ b.sampleLines.hart.csrs.interrupts.mip ≠ 0) ∧
      (b.sampleLines.hart.csrs.interrupts.mip = 0 →
        b.step.2.savedPc = b.hart.pc ∧ b.waited.Receives ∧
          (i = .machineExternal ∨ i = .supervisorExternal)) := by
  have hsaved := savedPc_at_wait hwait hdone htaken
  constructor
  · rw [hsaved]
    split
    · rename_i hmip
      simp only [hmip, ne_eq, not_true_eq_false, iff_false]
      exact Word.ne_add_four b.hart.pc
    · rename_i hmip
      simp only [hmip, ne_eq, not_false_eq_true]
  · intro hmip
    rw [if_pos hmip] at hsaved
    rw [interruptTaken?_at_wait hwait hdone] at htaken
    obtain ⟨hreceives, hexternal⟩ := receives_of_late_interrupt hmip htaken
    exact ⟨hsaved, hreceives, hexternal⟩

/-! ## A byte that comes late -/

/--
A board that waits for the machine external interrupt of the UART, one step
before the UART takes the byte that has arrived at the console.
-/
def lateByte : Board :=
  let board := assemble .standard standardMap (.withInput [0x61]) 0
  let csrs := board.hart.csrs
  let bus := board.bus
  { machine :=
      { hart :=
          { board.hart with
            csrs :=
              { csrs with
                status := { csrs.status with mie := true }
                interrupts := { csrs.interrupts with mie := 0x800 } } }
        bus :=
          { bus with
            ram := bus.ram.write defaultResetVector (leBytes 4 (0x10500073 : Word))
            uart := { bus.uart with ier := 1 }
            plic :=
              { bus.plic with
                priorities := bus.plic.priorities.set 10 ⟨1, by decide⟩
                enabled := bus.plic.enabled.set 0 (BitVec.twoPow 64 10) } } }
    steps := pollInterval - 1 }

theorem atWait_lateByte : lateByte.AtWait := by
  have hread : lateByte.bus.ram.read lateByte.hart.pc 4 = leBytes 4 (0x10500073 : Word) :=
    Ram.read_write (k := 0) _ _ (by decide) (by decide)
  refine { aligned := by decide, inRam := by decide, isWait := ?_ }
  rw [hread]
  exact ⟨_, rfl, by decide⟩

theorem interruptTaken?_lateByte : lateByte.interruptTaken? = some .machineExternal := by
  rw [interruptTaken?_at_wait atWait_lateByte rfl]
  decide

theorem resume_after_wait_late :
    lateByte.AtWait ∧ lateByte.sampleLines.hart.wfi.1 = .completed ∧
      lateByte.interruptTaken? = some .machineExternal ∧
      lateByte.step.2.savedPc = lateByte.hart.pc := by
  have hmip : lateByte.sampleLines.hart.csrs.interrupts.mip = 0 := by decide
  obtain ⟨-, hlate⟩ := resume_after_wait_iff atWait_lateByte rfl interruptTaken?_lateByte
  exact ⟨atWait_lateByte, rfl, interruptTaken?_lateByte, (hlate hmip).1⟩

theorem not_always_resumed_after_wait :
    ¬ ∀ (b : Board) (i : Interrupt), b.AtWait → b.sampleLines.hart.wfi.1 = .completed →
      b.interruptTaken? = some i → b.step.2.savedPc = b.hart.pc + 4 := by
  intro hall
  have hnext := hall lateByte _ atWait_lateByte rfl interruptTaken?_lateByte
  have hsaved := savedPc_at_wait atWait_lateByte rfl interruptTaken?_lateByte
  have hmip : lateByte.sampleLines.hart.csrs.interrupts.mip = 0 := by decide
  rw [if_pos hmip, hnext] at hsaved
  exact Word.ne_add_four lateByte.hart.pc hsaved.symm

end Board

end Rv32
