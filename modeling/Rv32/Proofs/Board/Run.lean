import Rv32.Board.Run
import Rv32.Proofs.Hart.Run

/-! # Runs of a board

A board drives its machine by events: devices act, the machine makes a step,
devices act again and an interrupt is taken. What holds of every run of a
machine therefore holds of the machine of every board that runs.
-/

namespace Rv32

namespace Board

theorem reaches_sampleLines (b : Board) : b.machine.Reaches b.sampleLines.machine :=
  Machine.reaches_after b.machine
    (.outside b.bus.sampleLines (copyLines b.hart.csrs.interrupts b.bus.sampleLines)
      b.hart.csrs.clock)

theorem reaches_pollUart (b : Board) : b.machine.Reaches b.pollUart.machine := by
  unfold pollUart
  split
  · exact Machine.reaches_after b.machine
      (.outside { b.bus with uart := b.bus.uart.poll } b.hart.csrs.interrupts b.hart.csrs.clock)
  · exact .refl _

theorem reaches_takeInterrupt (b : Board) : b.machine.Reaches b.takeInterrupt.machine :=
  Machine.reaches_after b.machine .interrupt

theorem reaches_countStep (b : Board) (machine : Machine SystemBus) :
    machine.Reaches (b.countStep machine).machine :=
  reaches_pollUart { machine := machine, steps := b.steps + 1 }

theorem reaches_step (b : Board) : b.machine.Reaches b.step.2.machine := by
  have hstep : b.machine.Reaches b.sampleLines.machine.step.2 :=
    b.reaches_sampleLines.trans (Machine.reaches_after b.sampleLines.machine .step)
  simp only [step]
  split
  · rename_i f machine hfatal
    rw [hfatal] at hstep
    exact hstep
  · rename_i v machine hexit
    rw [hexit] at hstep
    exact hstep.trans (b.sampleLines.reaches_countStep machine)
  · rename_i machine hrunning
    rw [hrunning] at hstep
    have hcounted := hstep.trans (b.sampleLines.reaches_countStep machine)
    exact (hcounted.trans (reaches_sampleLines _)).trans (reaches_takeInterrupt _)

/-- Every run of a board is a run of its machine. -/
theorem reaches_run (n : Nat) (b : Board) : b.machine.Reaches (b.run n).2.machine := by
  induction n generalizing b with
  | zero => exact .refl _
  | succ n ih =>
      have hstep := b.reaches_step
      rw [run]
      split
      · rename_i next hnext
        rw [hnext] at hstep
        exact hstep.trans (ih next)
      · exact hstep

end Board

end Rv32
