import Rv32.Board.Run
import Rv32.Proofs.Trap.Pending

/-! # Sampling of the interrupt lines

Sampling copies what the devices show and changes no device, so that it makes
no difference to sample twice. Between two samplings of one step the UART alone
may change, by taking a byte that was waiting at the console.
-/

namespace Rv32

theorem SourceSet.put_put (set : SourceSet) (s : Fin 64) (member : Bool) :
    (set.put s member).put s member = set.put s member := by
  apply BitVec.eq_of_getLsbD_eq
  intro i hi
  have hhas := has_put (set.put s member) s ⟨i, hi⟩ member
  have hput := has_put set s ⟨i, hi⟩ member
  unfold has at hhas hput
  rw [hhas]
  split
  · rename_i hs
    rw [hput, if_pos hs]
  · rfl

theorem Plic.setLevel_setLevel (p : Plic) (n : Nat) (level : Bool) :
    (p.setLevel n level).setLevel n level = p.setLevel n level := by
  cases hs : source? n with
  | none => simp [setLevel, hs]
  | some s => simp [setLevel, hs, SourceSet.put_put]

theorem SystemBus.sampleLines_sampleLines (b : SystemBus) :
    b.sampleLines.sampleLines = b.sampleLines := by
  unfold sampleLines
  rw [Plic.setLevel_setLevel]

namespace Uart

theorem poll_eq_self (u : Uart) (h : ¬ (u.dataReady = false ∧ u.console.input ≠ [])) :
    u.poll = u := by
  unfold poll
  split
  · rfl
  · rename_i hready
    split
    · rfl
    · rename_i b rest hinput
      exact absurd ⟨by simpa using hready, by simp [hinput]⟩ h

end Uart

namespace Board

/-- Whether the UART takes a byte on its own when the board stands at this count of steps. -/
structure Receives (b : Board) : Prop where
  due : b.steps % pollInterval = 0
  enabled : b.bus.uart.receiveEnabled = true
  room : b.bus.uart.dataReady = false
  waiting : b.bus.uart.console.input ≠ []

theorem pollUart_eq_self {b : Board} (h : ¬ b.Receives) : b.pollUart = b := by
  unfold pollUart
  split
  · rename_i hdue
    have hpoll : b.bus.uart.poll = b.bus.uart := by
      apply Uart.poll_eq_self
      rintro ⟨hroom, hwaiting⟩
      exact h ⟨hdue.1, hdue.2, hroom, hwaiting⟩
    rw [hpoll]
    rfl
  · rfl

theorem hart_pollUart (b : Board) : b.pollUart.hart = b.hart := by
  unfold pollUart
  split
  · rfl
  · rfl

theorem clint_pollUart (b : Board) : b.pollUart.bus.clint = b.bus.clint := by
  unfold pollUart
  split
  · rfl
  · rfl

@[simp] theorem pc_sampleLines (b : Board) : b.sampleLines.hart.pc = b.hart.pc := rfl

/-- The pending interrupts have been copied from the devices that are on the bus. -/
def IsSampled (b : Board) : Prop :=
  b.sampleLines.hart.csrs.interrupts = b.hart.csrs.interrupts

theorem isSampled_sampleLines (b : Board) : b.sampleLines.IsSampled := by
  unfold IsSampled
  change copyLines (copyLines _ b.bus.sampleLines) b.bus.sampleLines.sampleLines = _
  rw [SystemBus.sampleLines_sampleLines]
  rfl

end Board

end Rv32
