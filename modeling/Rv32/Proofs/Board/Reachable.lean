import Rv32.Board.Loading
import Rv32.Board.Run
import Rv32.Proofs.Device.Plic
import Rv32.Proofs.Hart.Accesses

/-! # The states of a board

A board is built from a configuration. From then on it makes steps, images are
loaded into it, console input arrives, the wall clock goes on, and whoever holds
the board may do with its hart whatever they like. The devices are out of their
reach: what is behind the bus changes by accesses and by the sampling of the
lines alone. So the interrupt controller never sees another line than that of
the UART.
-/

namespace Rv32

namespace SystemBus

/-- The interrupt controller has never seen another line than that of the UART. -/
def Wired (b : SystemBus) : Prop :=
  b.plic.OnlySource uartSource

/-! ## Accesses -/

/-- A read changes the device that it reaches, if that is the interrupt controller or the UART. -/
theorem read_cases (b : SystemBus) (address : Word) (size : Nat) :
    (Bus.read b address size).2 = b ∨
      (∃ offset, (Bus.read b address size).1 = (Bus.read b.plic offset size).1 ∧
        (Bus.read b address size).2 = { b with plic := (Bus.read b.plic offset size).2 }) ∨
      ∃ offset, (Bus.read b address size).2 = { b with uart := (Bus.read b.uart offset size).2 } := by
  have hclint (offset : Word) : (Bus.read b.clint offset size).2 = b.clint := by
    simp only [Bus.read]
    split
    · rfl
    · rfl
  have hframe (offset : Word) : (Bus.read b.frame offset size).2 = b.frame := by
    simp only [Bus.read]
    split
    · rfl
    · rfl
  cases hroute : b.route? address size with
  | none =>
      left
      simp only [Bus.read, hroute]
  | some route =>
      have hread : Bus.read b address size = b.readFrom size route := by
        simp only [Bus.read, hroute]
      rw [hread]
      cases route with
      | ram a => exact .inl rfl
      | device r offset =>
          cases r with
          | plic => exact .inr (.inl ⟨offset, rfl, rfl⟩)
          | uart => exact .inr (.inr ⟨offset, rfl⟩)
          | clint =>
              left
              change { b with clint := (Bus.read b.clint offset size).2 } = b
              rw [hclint]
          | framebuffer =>
              left
              change { b with frame := (Bus.read b.frame offset size).2 } = b
              rw [hframe]

/-- A read that reaches the interrupt controller is one of its own, and the others leave it alone. -/
theorem plic_read_cases (b : SystemBus) (address : Word) (size : Nat) :
    (Bus.read b address size).2.plic = b.plic ∨
      ∃ offset, (Bus.read b address size).1 = (Bus.read b.plic offset size).1 ∧
        (Bus.read b address size).2.plic = (Bus.read b.plic offset size).2 := by
  rcases b.read_cases address size with hsame | ⟨offset, hanswer, hplic⟩ | ⟨offset, huart⟩
  · rw [hsame]
    exact .inl rfl
  · rw [hplic]
    exact .inr ⟨offset, hanswer, rfl⟩
  · rw [huart]
    exact .inl rfl

theorem Wired.read {b : SystemBus} (hb : b.Wired) (address : Word) (size : Nat) :
    (Bus.read b address size).2.Wired := by
  unfold Wired
  rcases b.plic_read_cases address size with hsame | ⟨offset, -, hplic⟩
  · rw [hsame]
    exact hb
  · rw [hplic]
    exact Plic.OnlySource.read hb offset size

theorem Wired.write {b : SystemBus} (hb : b.Wired) (address : Word) (bytes : List Byte) :
    (Bus.write b address bytes).Wired := by
  simp only [Bus.write]
  split
  · rename_i route _
    cases route with
    | ram a => exact hb
    | device r offset =>
        cases r with
        | plic => exact Plic.OnlySource.write hb offset bytes
        | clint => exact hb
        | uart => exact hb
        | framebuffer => exact hb
  · exact hb

/-- Behind the bus a read leaves everything alone but the interrupt controller and the UART. -/
theorem read_eq (b : SystemBus) (address : Word) (size : Nat) :
    (Bus.read b address size).2 =
      { b with
        plic := (Bus.read b address size).2.plic
        uart := (Bus.read b address size).2.uart } := by
  rcases b.read_cases address size with hsame | ⟨offset, -, hplic⟩ | ⟨offset, huart⟩
  · rw [hsame]
  · rw [hplic]
  · rw [huart]

theorem clint_read (b : SystemBus) (address : Word) (size : Nat) :
    (Bus.read b address size).2.clint = b.clint := by
  rw [read_eq]

/-! ## Changes from outside -/

/-- The loading of an image changes main memory and nothing else. -/
theorem load_eq (b : SystemBus) (a : Word) (bytes : List Byte) :
    b.load a bytes = { b with ram := (b.load a bytes).ram } := by
  induction bytes generalizing b a with
  | nil => rfl
  | cons v rest ih =>
      have hbyte : b.loadByte a v = { b with ram := (b.loadByte a v).ram } := by
        unfold loadByte
        split
        · rfl
        · rfl
      rw [load, ih, hbyte]

/-- A property of what is behind the bus that nothing done to a board brings to an end. -/
structure Stable (P : SystemBus → Prop) : Prop where
  read : ∀ b address size, P b → P (Bus.read b address size).2
  write : ∀ b address bytes, P b → P (Bus.write b address bytes)
  sampled : ∀ b, P b → P b.sampleLines
  polled : ∀ b, P b → P { b with uart := b.uart.poll }
  loaded : ∀ b a bytes, P b → P (b.load a bytes)
  arrived : ∀ b bytes, P b → P (b.arrive bytes)
  ticked : ∀ b clock, P b → P (b.withClock clock)

theorem stable_wired : Stable Wired :=
  { read := fun _ address size hb => hb.read address size
    write := fun _ address bytes hb => hb.write address bytes
    sampled := fun b hb => Plic.OnlySource.setLevel hb b.uart.interruptLine
    polled := fun _ hb => hb
    loaded := by
      intro b a bytes hb
      rw [load_eq]
      exact hb
    arrived := fun _ _ hb => hb
    ticked := fun _ _ hb => hb }

end SystemBus

namespace Board

open SystemBus (Stable)

inductive Reachable : Board → Prop where
  | built {config : BoardConfig} {console : Console} {clock : DoubleWord} {b : Board}
      (hbuild : build config console clock = .ok b) : Reachable b
  | stepped {b : Board} (h : Reachable b) : Reachable b.step.2
  | loaded {b : Board} (h : Reachable b) (a : Word) (bytes : List Byte) :
      Reachable (b.load a bytes)
  | arrived {b : Board} (h : Reachable b) (bytes : List Byte) :
      Reachable (b.withBus (b.bus.arrive bytes))
  | ticked {b : Board} (h : Reachable b) (clock : DoubleWord) : Reachable (b.withClock clock)
  | replaced {b : Board} (h : Reachable b) (hart : Hart) : Reachable (b.withHart hart)

variable {P : SystemBus → Prop}

theorem stable_countStep (hP : Stable P) (b : Board) {machine : Machine SystemBus}
    (h : P machine.bus) : P (b.countStep machine).bus := by
  unfold countStep pollUart
  split
  · exact hP.polled machine.bus h
  · exact h

theorem stable_step (hP : Stable P) {b : Board} (hb : P b.bus) : P b.step.2.bus := by
  have hmachine : P b.sampleLines.machine.step.2.bus :=
    b.sampleLines.machine.accessed_step.preserves hP.read hP.write (hP.sampled b.bus hb)
  have hcounted := stable_countStep hP b.sampleLines hmachine
  simp only [step]
  split
  · rename_i f machine hfatal
    rw [hfatal] at hmachine
    exact hmachine
  · rename_i v machine hexit
    rw [hexit] at hcounted
    exact hcounted
  · rename_i machine hrunning
    rw [hrunning] at hcounted
    exact hP.sampled _ hcounted

/-- What every new board has and nothing brings to an end holds of every board. -/
theorem Reachable.stable (hP : Stable P)
    (hbuilt : ∀ {config console clock b}, build config console clock = .ok b → P b.bus)
    {b : Board} (h : b.Reachable) : P b.bus := by
  induction h with
  | built hbuild => exact hbuilt hbuild
  | stepped _ ih => exact stable_step hP ih
  | loaded _ a bytes ih => exact hP.loaded _ a bytes ih
  | arrived _ bytes ih => exact hP.arrived _ bytes ih
  | ticked _ clock ih => exact hP.ticked _ clock ih
  | replaced _ hart ih => exact ih

/-! ## The wiring of the interrupt controller -/

theorem wired_build {config : BoardConfig} {console : Console} {clock : DoubleWord} {b : Board}
    (hbuild : build config console clock = .ok b) : b.bus.Wired := by
  unfold build at hbuild
  split at hbuild
  · cases hbuild
    exact Plic.onlySource_reset SystemBus.uartSource
  · cases hbuild

theorem Reachable.wired {b : Board} (h : b.Reachable) : b.bus.Wired :=
  h.stable SystemBus.stable_wired wired_build

end Board

end Rv32
