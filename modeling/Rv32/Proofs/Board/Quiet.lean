import Rv32.Proofs.Board.Sampling
import Rv32.Proofs.Device.Plic
import Rv32.Proofs.Hart.DeviceLines

/-! # Devices that nobody has touched

A device asserts its line after software has set it up for that, and not before.
As long as the devices are as they were after reset, all lines are low: sampling
shows the hart nothing new, and the UART takes no input on its own.
-/

namespace Rv32

namespace SystemBus

/-- The devices are as after a reset, with the wall clock at `clock`. Input may have arrived. -/
structure Untouched (b : SystemBus) (clock : DoubleWord) : Prop where
  clint : b.clint = .reset clock
  plic : b.plic = .reset
  uart : ∃ console, b.uart = .reset console

variable {b : SystemBus} {clock : DoubleWord}

theorem Untouched.withClock (h : b.Untouched clock) (next : DoubleWord) :
    (b.withClock next).Untouched next := by
  refine ⟨?_, h.plic, h.uart⟩
  change { b.clint with clock := next } = _
  rw [h.clint]
  rfl

theorem Untouched.arrive (h : b.Untouched clock) (bytes : List Byte) :
    (b.arrive bytes).Untouched clock := by
  obtain ⟨console, huart⟩ := h.uart
  refine ⟨h.clint, h.plic, console.arrive bytes, ?_⟩
  change b.uart.arrive bytes = _
  rw [huart]
  rfl

theorem Untouched.withRam (h : b.Untouched clock) (ram : Ram) :
    { b with ram := ram }.Untouched clock :=
  ⟨h.clint, h.plic, h.uart⟩

end SystemBus

/-! ## Lines -/

theorem Plic.setLevel_reset (n : Nat) : Plic.reset.setLevel n false = Plic.reset := by
  have hput (s : Fin 64) : SourceSet.put 0 s false = 0 := by
    apply BitVec.eq_of_getLsbD_eq
    intro i hi
    simp [SourceSet.put]
  unfold setLevel
  cases source? n with
  | none => rfl
  | some s =>
      have hlevels : Plic.reset.levels.put s false = 0 := hput s
      have hpending : Plic.reset.pending.put s (false && !Plic.reset.inService.has s) = 0 := hput s
      simp only [hlevels, hpending]
      rfl

theorem Plic.contextLine_reset (c : Fin 2) : Plic.reset.contextLine c.val = false := by
  rw [← Bool.not_eq_true, contextLine_iff]
  rintro ⟨s, hclaimable⟩
  have hpending : Plic.reset.pending.has s = false := SourceSet.has_zero s
  simp [isClaimable, hpending] at hclaimable

theorem Clint.timerLine_reset {clock : DoubleWord} (h : clock < BitVec.allOnes 64) :
    (Clint.reset clock).timerLine = false := by
  have hmtime : (Clint.reset clock).mtime = clock := BitVec.add_zero clock
  unfold timerLine
  rw [hmtime]
  exact decide_eq_false (BitVec.not_le.mpr h)

theorem Uart.interruptLine_reset (console : Console) : (reset console).interruptLine = false := by
  simp [interruptLine, interruptId, receiveEnabled, transmitEnabled, reset]

theorem SystemBus.Untouched.sampleLines_eq {b : SystemBus} {clock : DoubleWord}
    (h : b.Untouched clock) : b.sampleLines = b := by
  obtain ⟨console, huart⟩ := h.uart
  have hline : b.uart.interruptLine = false := by
    rw [huart]
    exact Uart.interruptLine_reset console
  unfold sampleLines
  rw [hline, h.plic, Plic.setLevel_reset, ← h.plic]

namespace Board

open SystemBus (Untouched)

variable {b : Board} {clock : DoubleWord}

theorem copyLines_of_untouched {s : Interrupts} (hs : s.LinesLow) {bus : SystemBus}
    (h : bus.Untouched clock) (hclock : clock < BitVec.allOnes 64) : copyLines s bus = s := by
  have hsoftware : bus.clint.softwareLine = s.msip := by
    rw [h.clint, hs.msip]
    rfl
  have htimer : bus.clint.timerLine = s.mtip := by
    rw [h.clint, hs.mtip, Clint.timerLine_reset hclock]
  have hmachine : bus.plic.contextLine machineContext = s.meip := by
    rw [h.plic, hs.meip]
    exact Plic.contextLine_reset 0
  have hsupervisor : bus.plic.contextLine supervisorContext = s.seipLine := by
    rw [h.plic, hs.seipLine]
    exact Plic.contextLine_reset 1
  unfold copyLines
  rw [hsoftware, htimer, hmachine, hsupervisor]
  rfl

/-- The lines of untouched devices are low already where they are shown. -/
theorem sampleLines_of_untouched (hlow : b.hart.LinesLow) (h : b.bus.Untouched clock)
    (hclock : clock < BitVec.allOnes 64) : b.sampleLines = b := by
  have hlines : withLines b.hart b.bus = b.hart := by
    unfold withLines
    rw [copyLines_of_untouched hlow h hclock]
  change { b with machine := { hart := withLines b.hart b.bus.sampleLines, bus := _ } } = b
  rw [h.sampleLines_eq, hlines]
  rfl

theorem pollUart_of_untouched (h : b.bus.Untouched clock) : b.pollUart = b := by
  apply pollUart_eq_self
  intro hreceives
  obtain ⟨console, huart⟩ := h.uart
  have henabled := hreceives.enabled
  simp [huart, Uart.receiveEnabled, Uart.reset] at henabled

end Board

end Rv32
