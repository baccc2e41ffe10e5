import Rv32.Proofs.Board.Lines
import Rv32.Proofs.Board.Routing
import Rv32.Proofs.Board.Waiting
import Rv32.Proofs.Device.Uart

/-! # Steps that cannot be made

A step is fatal if the word fetched is no instruction. By then the lines of the
devices have been sampled and the word has been read, and that is all that is
left of the step: the hart is as it was but for the lines that it is shown, and
behind the bus only a device can have changed that the fetch has reached.
-/

namespace Rv32

/-- The interrupts whose pending bits show lines of devices. -/
def Interrupt.deviceDriven : List Interrupt :=
  [.machineSoftware, .machineTimer, .supervisorExternal, .machineExternal]

structure Hart.LinesMoved (h after : Hart) : Prop where
  rest : after = { h with csrs := { h.csrs with interrupts := after.csrs.interrupts } }
  kept : h.csrs.interrupts.SoftwareBitsKept after.csrs.interrupts

namespace Hart

variable {h after : Hart}

theorem LinesMoved.value_eq (hmoved : h.LinesMoved after) {c : Csr} (hmip : c ≠ .mip)
    (hsip : c ≠ .sip) : after.csrs.value c = h.csrs.value c := by
  have hmie := hmoved.kept.mie
  rw [hmoved.rest]
  cases c with
  | mip => exact absurd rfl hmip
  | sip => exact absurd rfl hsip
  | mie => exact hmie
  | sie => exact congrArg (· &&& h.csrs.delegation.interrupts) hmie
  | _ => rfl

theorem LinesMoved.getLsbD_mip (hmoved : h.LinesMoved after) {k : Nat}
    (hk : ∀ i ∈ Interrupt.deviceDriven, i.code ≠ k) :
    (after.csrs.value .mip).getLsbD k = (h.csrs.value .mip).getLsbD k := by
  apply Interrupts.getLsbD_mip_congr
  intro i hi
  have hnot : i ∉ Interrupt.deviceDriven := fun hmem => hk i hmem hi
  cases i with
  | supervisorSoftware => exact hmoved.kept.ssip
  | supervisorTimer => exact hmoved.kept.stip
  | _ => exact absurd (by decide) hnot

theorem LinesMoved.getLsbD_sip (hmoved : h.LinesMoved after) {k : Nat}
    (hk : ∀ i ∈ Interrupt.deviceDriven, i.code ≠ k) :
    (after.csrs.value .sip).getLsbD k = (h.csrs.value .sip).getLsbD k := by
  have hmip : after.csrs.interrupts.mip.getLsbD k = h.csrs.interrupts.mip.getLsbD k :=
    hmoved.getLsbD_mip hk
  have hdelegation : after.csrs.delegation = h.csrs.delegation := by rw [hmoved.rest]
  change (after.csrs.interrupts.mip &&& after.csrs.delegation.interrupts).getLsbD k = _
  rw [BitVec.getLsbD_and, hmip, hdelegation, ← BitVec.getLsbD_and]
  rfl

end Hart

namespace SystemBus

theorem output_bus_read (b : SystemBus) (address : Word) (size : Nat) :
    (Bus.read b address size).2.uart.console.output = b.uart.console.output := by
  rcases b.read_cases address size with hsame | ⟨offset, -, hplic⟩ | ⟨offset, huart⟩
  · rw [hsame]
  · rw [hplic]
  · rw [huart]
    exact b.uart.output_bus_read offset size

/-- A read that begins in main memory changes nothing, also if it is not forwarded. -/
theorem read_of_vacant {b : SystemBus} {address : Word} (hvacant : b.map.Vacant address)
    (size : Nat) : (Bus.read b address size).2 = b := by
  simp only [Bus.read]
  cases hroute : b.route? address size with
  | none => rfl
  | some route =>
      have htarget := route?_eq_some hroute
      rw [(b.map.lookup_eq_none_iff address).mpr hvacant] at htarget
      rw [htarget]
      rfl

end SystemBus

namespace Machine

theorem step_eq_of_fatal {β : Type} [Bus β] {m after : Machine β} {f : Fatal}
    (h : m.step = (.fatal f, after)) :
    after = { hart := m.hart, bus := (Bus.read m.bus m.hart.pc 4).2 } := by
  have hfetch := step_of_fatal (attempt?_of_fatal h)
  rw [h] at hfetch
  exact hfetch

end Machine

namespace Board

open SystemBus (uartSource)

/-- A fatal step is the sampling of the lines and the fetch. -/
theorem step_eq_of_fatal {b next : Board} {f : Fatal} (h : b.step = (.fatal f, next)) :
    next =
      { machine :=
          { hart := b.sampleLines.hart
            bus := (Bus.read b.sampleLines.bus b.hart.pc 4).2 }
        steps := b.steps } := by
  simp only [step] at h
  split at h
  · rename_i g machine hfatal
    cases h
    have hmachine := Machine.step_eq_of_fatal hfatal
    rw [hmachine]
    rfl
  · cases h
  · cases h

theorem linesMoved_sampleLines (b : Board) : b.hart.LinesMoved b.sampleLines.hart :=
  ⟨rfl, b.softwareBitsKept_sampleLines⟩

/--
A fatal step of a machine leaves the hart as it was, and makes no other access than the fetch. A
fatal step of a board is not counted and leaves the hart as it was but for the lines of devices. It
changes neither memory nor the picture nor what has been transmitted, nor the timer unit. If the
fetch begins in main memory, it changes nothing behind the bus but the line that the interrupt
controller sees of the UART.
-/
theorem fatal_step_keeps_state :
    (∀ {β : Type} [Bus β] {m after : Machine β} {f : Fatal}, m.step = (.fatal f, after) →
      after = { hart := m.hart, bus := (Bus.read m.bus m.hart.pc 4).2 } ∧
        m.stepAccesses = [.read m.hart.pc 4]) ∧
    ∀ {b next : Board} {f : Fatal}, b.step = (.fatal f, next) →
      next.steps = b.steps ∧ b.hart.LinesMoved next.hart ∧
      (∀ c, c ≠ .mip → c ≠ .sip → next.hart.csrs.value c = b.hart.csrs.value c) ∧
      (∀ k, (∀ i ∈ Interrupt.deviceDriven, i.code ≠ k) →
        (next.hart.csrs.value .mip).getLsbD k = (b.hart.csrs.value .mip).getLsbD k ∧
          (next.hart.csrs.value .sip).getLsbD k = (b.hart.csrs.value .sip).getLsbD k) ∧
      next.bus.ram = b.bus.ram ∧ next.frame = b.frame ∧ next.output = b.output ∧
      next.bus.clint = b.bus.clint ∧
      (b.bus.map.Vacant b.hart.pc →
        next.bus =
          { b.bus with plic := b.bus.plic.setLevel uartSource b.bus.uart.interruptLine }) := by
  constructor
  · intro β _ m after f hfatal
    exact ⟨Machine.step_eq_of_fatal hfatal,
      Machine.stepAccesses_of_fatal (Machine.attempt?_of_fatal hfatal)⟩
  · intro b next f hfatal
    have hmoved := b.linesMoved_sampleLines
    have hnext := step_eq_of_fatal hfatal
    subst hnext
    -- The fetch is made on the sampled bus, which is the bus but for the interrupt controller.
    have hrest := b.sampleLines.bus.read_eq b.hart.pc 4
    have hram := congrArg SystemBus.ram hrest
    have hframe := congrArg SystemBus.frame hrest
    have hclint := congrArg SystemBus.clint hrest
    have houtput := b.sampleLines.bus.output_bus_read b.hart.pc 4
    refine ⟨rfl, hmoved, ?_, ?_, hram, hframe, houtput, hclint, ?_⟩
    · intro c hmip hsip
      exact hmoved.value_eq hmip hsip
    · intro k hk
      exact ⟨hmoved.getLsbD_mip hk, hmoved.getLsbD_sip hk⟩
    · intro hvacant
      have hsampled : b.sampleLines.bus.map.Vacant b.hart.pc := hvacant
      exact SystemBus.read_of_vacant hsampled 4

/-! ## A board without a program -/

/-- Where nothing has been written there is nothing to execute. -/
theorem machine_step_of_empty {m : Machine SystemBus} (hram : m.bus.ram = .empty)
    (hroute : m.bus.route? m.hart.pc 4 = some (.ram m.hart.pc)) :
    m.step = (.fatal (.emptyInstruction m.hart.pc), m) := by
  have hread : Bus.read m.bus m.hart.pc 4 = (zeroBytes 4, m.bus) := by
    rw [SystemBus.read_of_route hroute]
    change (m.bus.ram.read m.hart.pc 4, m.bus) = _
    rw [hram, Ram.read_empty]
  rw [Machine.step, Machine.fetch_of_read hread]
  rfl

theorem step_of_empty {b : Board} (hram : b.bus.ram = .empty)
    (hroute : b.bus.route? b.hart.pc 4 = some (.ram b.hart.pc)) :
    b.step = (.fatal (.emptyInstruction b.hart.pc), b.sampleLines) := by
  have hmachine : b.sampleLines.machine.step =
      (.fatal (.emptyInstruction b.hart.pc), b.sampleLines.machine) :=
    machine_step_of_empty hram hroute
  simp only [step, hmachine]

/-- A board without a program, whose UART asks for the machine external interrupt. -/
def askingBoard : Board :=
  lateByte.withBus
    { lateByte.bus with
      ram := .empty
      uart := { lateByte.bus.uart with ier := 2, transmitDue := true } }

/-- The step is fatal after the external interrupt has become pending. -/
theorem fatal_step_keeps_state_asking :
    let f := Fatal.emptyInstruction defaultResetVector
    let next := askingBoard.sampleLines
    askingBoard.machine.step = (.fatal f, askingBoard.machine) ∧
      askingBoard.machine.stepAccesses = [.read defaultResetVector 4] ∧
      askingBoard.step = (.fatal f, next) ∧ askingBoard.bus.map.Vacant askingBoard.hart.pc ∧
      askingBoard.hart.csrs.value .mip = 0 ∧ next.hart.csrs.value .mip = 0x800 ∧
      next.hart.csrs.value .mstatus = askingBoard.hart.csrs.value .mstatus ∧
      next.bus = { askingBoard.bus with plic := askingBoard.bus.plic.setLevel uartSource true } := by
  intro f next
  obtain ⟨hmachines, hboards⟩ := fatal_step_keeps_state
  have hroute : askingBoard.bus.route? askingBoard.hart.pc 4 = some (.ram askingBoard.hart.pc) := by
    decide
  have hvacant : askingBoard.bus.map.Vacant askingBoard.hart.pc := by decide
  have hmachine : askingBoard.machine.step = (.fatal f, askingBoard.machine) :=
    machine_step_of_empty rfl hroute
  have hstep : askingBoard.step = (.fatal f, next) := step_of_empty rfl hroute
  obtain ⟨-, haccesses⟩ := hmachines hmachine
  obtain ⟨-, -, hvalues, -, -, -, -, -, hbus⟩ := hboards hstep
  exact ⟨hmachine, haccesses, hstep, hvacant, by decide, by decide,
    hvalues .mstatus (by decide) (by decide), hbus hvacant⟩

end Board

end Rv32
