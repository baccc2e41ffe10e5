import Rv32.Proofs.Board.Reachable
import Rv32.Proofs.Board.Waiting

/-! # The pending register and the devices

The lines of the devices are copied into the pending register before the
instruction of a step and again after it. So the instruction sees the devices as
they are, and so does whoever looks at the board after the step, but for the
interrupt that the step has taken: its bit is down until the next sampling.
-/

namespace Rv32

/-- The bits of the pending and enable registers that belong to software alone are kept. -/
structure Interrupts.SoftwareBitsKept (before after : Interrupts) : Prop where
  ssip : after.ssip = before.ssip
  stip : after.stip = before.stip
  seipSoftware : after.seipSoftware = before.seipSoftware
  mie : after.mie = before.mie

namespace Board

/-! ## What the devices ask for -/

/--
Whether interrupt `i` is asked for: by the devices as they are, by software in
the hart's registers, or by both together.
-/
def Asserted (bus : SystemBus) (s : Interrupts) : Interrupt → Prop
  | .machineSoftware => bus.clint.msip = true
  | .machineTimer => bus.clint.mtimecmp.toNat ≤ bus.clint.mtime.toNat
  | .machineExternal => ∃ source, bus.plic.isClaimable 0 source = true
  | .supervisorExternal => (∃ source, bus.plic.isClaimable 1 source = true) ∨ s.seipSoftware = true
  | .supervisorSoftware => s.ssip = true
  | .supervisorTimer => s.stip = true

/--
The pending register shows what is asked for, but for the interrupt that has
just been taken, and the interrupt controller follows the line of the UART.
-/
structure Mirrored (h : Hart) (bus : SystemBus) (taken : Option Interrupt) : Prop where
  pending : ∀ i, (h.csrs.value .mip).getLsbD i.code = true ↔
    Asserted bus h.csrs.interrupts i ∧ taken ≠ some i
  level : ∀ source : Fin 64, source.val = SystemBus.uartSource →
    bus.plic.levels.has source = bus.uart.interruptLine
  waiting : ∀ source : Fin 64, source.val = SystemBus.uartSource →
    bus.plic.pending.has source = (bus.uart.interruptLine && !bus.plic.inService.has source)

/-! ## Sampling -/

theorem isPending_copyLines_iff (s : Interrupts) (bus : SystemBus) (i : Interrupt) :
    (copyLines s bus).isPending i = true ↔ Asserted bus (copyLines s bus) i := by
  have hmachine : bus.plic.contextLine machineContext = true ↔ _ := bus.plic.contextLine_iff 0
  have hsupervisor : bus.plic.contextLine supervisorContext = true ↔ _ :=
    bus.plic.contextLine_iff 1
  cases i with
  | machineSoftware => exact Iff.rfl
  | machineTimer => exact decide_eq_true_iff
  | machineExternal => exact hmachine
  | supervisorExternal =>
      change (bus.plic.contextLine supervisorContext || s.seipSoftware) = true ↔ _
      rw [Bool.or_eq_true, hsupervisor]
      rfl
  | supervisorSoftware => exact Iff.rfl
  | supervisorTimer => exact Iff.rfl

theorem mirrored_sampleLines (b : Board) :
    Mirrored b.sampleLines.hart b.sampleLines.bus none := by
  refine { pending := ?_, level := ?_, waiting := ?_ }
  · intro i
    change b.sampleLines.hart.csrs.interrupts.mip.getLsbD i.code = true ↔ _
    rw [Interrupts.getLsbD_mip_code]
    have hasked := isPending_copyLines_iff b.hart.csrs.interrupts b.bus.sampleLines i
    constructor
    · intro h
      exact ⟨hasked.mp h, by simp⟩
    · rintro ⟨h, -⟩
      exact hasked.mpr h
  · rintro ⟨k, hk⟩ rfl
    exact SourceSet.has_put_self b.bus.plic.levels ⟨_, hk⟩ b.bus.uart.interruptLine
  · rintro ⟨k, hk⟩ rfl
    exact SourceSet.has_put_self b.bus.plic.pending ⟨_, hk⟩
      (b.bus.uart.interruptLine && !b.bus.plic.inService.has ⟨_, hk⟩)

theorem softwareBitsKept_sampleLines (b : Board) :
    b.hart.csrs.interrupts.SoftwareBitsKept b.sampleLines.hart.csrs.interrupts :=
  ⟨rfl, rfl, rfl, rfl⟩

/-! ## The interrupt taken -/

/-- What one interrupt is asked for by does not depend on the bit of another. -/
theorem asserted_clearPending (bus : SystemBus) (s : Interrupts) {i j : Interrupt} (h : i ≠ j) :
    Asserted bus (s.clearPending i) j ↔ Asserted bus s j := by
  cases i <;> cases j <;> first | exact Iff.rfl | exact absurd rfl h

theorem Mirrored.trap {h : Hart} {bus : SystemBus} (hm : Mirrored h bus none) (i : Interrupt) :
    Mirrored (h.trap (.interrupt i)) bus (some i) := by
  refine { pending := ?_, level := hm.level, waiting := hm.waiting }
  intro j
  have hbefore := hm.pending j
  change h.csrs.interrupts.mip.getLsbD j.code = true ↔ _ at hbefore
  change (h.csrs.interrupts.clearPending i).mip.getLsbD j.code = true ↔
    Asserted bus (h.csrs.interrupts.clearPending i) j ∧ _
  rw [Interrupts.getLsbD_mip_code] at hbefore ⊢
  by_cases hij : i = j
  · subst hij
    rw [Interrupts.isPending_clearPending_self]
    simp
  · rw [Interrupts.isPending_clearPending_of_ne _ hij, asserted_clearPending bus _ hij, hbefore]
    simp [hij]

theorem mirrored_takeInterrupt {b : Board} (hm : Mirrored b.hart b.bus none) :
    Mirrored b.takeInterrupt.hart b.takeInterrupt.bus b.hart.nextInterrupt? := by
  change Mirrored b.hart.takeInterrupt.2 b.bus _
  unfold Hart.takeInterrupt
  cases hi : b.hart.nextInterrupt? with
  | none => exact hm
  | some i => exact hm.trap i

/-- A step that goes on has sampled the lines a second time and then taken its interrupt. -/
theorem step_of_running {b next : Board} (hstep : b.step = (.running, next)) :
    ∃ c : Board, next = c.sampleLines.takeInterrupt ∧
      b.interruptTaken? = c.sampleLines.hart.nextInterrupt? := by
  simp only [step] at hstep
  unfold interruptTaken?
  split at hstep
  · cases hstep
  · cases hstep
  · rename_i machine hrunning
    cases hstep
    rw [hrunning]
    exact ⟨b.sampleLines.countStep machine, rfl, rfl⟩

/-! ## The instruction -/

def executing (b : Board) : Machine SystemBus :=
  b.sampleLines.machine.fetch.2

theorem instructionAt_uartSource (pc : Word) :
    ∃ f, Machine.instructionAt pc (BitVec.ofNat 32 SystemBus.uartSource) = .error f :=
  ⟨_, rfl⟩

/-- No instruction is executed that was fetched by a claim, since no claim returns one. -/
theorem plic_fetch {m : Machine SystemBus} (hwired : m.bus.Wired) (hattempt : m.attempt? ≠ none) :
    m.fetch.2.bus.plic = m.bus.plic := by
  rcases m.bus.plic_read_cases m.hart.pc 4 with hsame | ⟨offset, hbytes, hplic⟩
  · exact hsame
  · rcases Plic.OnlySource.read_cases hwired offset 4 with hunchanged | hclaimed
    · exact hplic.trans hunchanged
    · exfalso
      have hword : m.fetch.1 = BitVec.ofNat 32 SystemBus.uartSource := by
        change ofLeBytes 32 (Bus.read m.bus m.hart.pc 4).1 = _
        rw [hbytes, hclaimed]
        decide
      obtain ⟨f, hf⟩ := instructionAt_uartSource m.hart.pc
      apply hattempt
      unfold Machine.attempt?
      rw [hword, hf]

/--
In every state of a board, the instruction of the next step is executed while
the pending register shows what the devices ask for. The same holds after the
step if the board can go on, except that the bit of the interrupt taken is down.
Sampling keeps the bits of software. After the external interrupt of the machine
has been taken, a claim returns the source of the UART.
-/
theorem pending_mirrors_devices {b : Board} (hb : b.Reachable) :
    Mirrored b.executing.hart b.sampleLines.bus none ∧
      (b.sampleLines.machine.attempt? ≠ none →
        b.executing.bus.clint = b.sampleLines.bus.clint ∧
          b.executing.bus.plic = b.sampleLines.bus.plic) ∧
      (∀ c : Board,
        c.hart.csrs.interrupts.SoftwareBitsKept c.sampleLines.hart.csrs.interrupts) ∧
      ∀ next, b.step = (.running, next) →
        Mirrored next.hart next.bus b.interruptTaken? ∧
          (b.interruptTaken? = some .machineExternal →
            (next.bus.plic.claim machineContext).1 = 10) := by
  refine ⟨b.mirrored_sampleLines, ?_, softwareBitsKept_sampleLines, ?_⟩
  · intro hattempt
    have hwired := SystemBus.stable_wired.sampled b.bus hb.wired
    exact ⟨b.sampleLines.bus.clint_read _ _, plic_fetch hwired hattempt⟩
  · intro next hstep
    have hwired : next.bus.Wired := by
      have hnext := hb.stepped.wired
      rw [hstep] at hnext
      exact hnext
    obtain ⟨c, rfl, htaken⟩ := step_of_running hstep
    rw [htaken]
    refine ⟨mirrored_takeInterrupt c.mirrored_sampleLines, ?_⟩
    intro hexternal
    have hpending := Interrupts.isPending_of_next? hexternal
    have hasked : Asserted c.sampleLines.bus c.sampleLines.hart.csrs.interrupts .machineExternal :=
      (isPending_copyLines_iff _ _ _).mp hpending
    exact Plic.OnlySource.claim_eq (c := 0) hwired hasked

/-! ## An interrupt of the UART -/

def storeProgram : List Byte :=
  leBytes 4 (0x0020A023 : Word)

def storingHart (address value : Word) : Hart :=
  let h := Hart.initial defaultResetVector .selfTest 0
  { h with
    registers := (h.registers.set 1 address).set 2 value
    csrs :=
      { h.csrs with
        status := { h.csrs.status with mie := true }
        interrupts := { h.csrs.interrupts with mie := 0x800 } } }

def storing (b : Board) (address value : Word) : Board :=
  b.withHart (storingHart address value)

def storedMachine (b : Board) (address value : Word) : Machine SystemBus :=
  { hart := (withLines (storingHart address value) b.bus.sampleLines).advance.retire
    bus := Bus.write b.bus.sampleLines address (leBytes 4 value) }

def stored (b : Board) (address value : Word) : Board :=
  ((b.storing address value).countStep (b.storedMachine address value)).sampleLines.takeInterrupt

structure HoldsStore (b : Board) : Prop where
  map : b.bus.map = standardMap
  program : b.bus.ram.read defaultResetVector 4 = storeProgram

theorem instructionAt_storeProgram (pc : Word) :
    Machine.instructionAt pc (ofLeBytes 32 storeProgram) =
      .ok (.s ⟨Opcode.store, 2, 1, 2, 0⟩) := by
  have hword : ofLeBytes 32 storeProgram = 0x0020A023 := by decide
  rw [hword]
  rfl

theorem machine_step_storing {b : Board} (hb : b.HoldsStore) (address value : Word) :
    (b.storing address value).sampleLines.machine.step =
      (.running, b.storedMachine address value) := by
  have hroute : (b.storing address value).bus.route? defaultResetVector 4 =
      some (.ram defaultResetVector) := by
    change b.bus.route? defaultResetVector 4 = _
    unfold SystemBus.route?
    rw [hb.map]
    rfl
  have hram : (b.storing address value).bus.ram.read defaultResetVector 4 = storeProgram :=
    hb.program
  have hfetch : (b.storing address value).sampleLines.machine.fetch =
      (ofLeBytes 32 storeProgram, (b.storing address value).sampleLines.machine) := by
    rw [← hram]
    exact fetch_from_ram hroute
  have hexec : (b.storing address value).sampleLines.machine.execute
      (.s ⟨Opcode.store, 2, 1, 2, 0⟩) =
        .ok (.completed,
          { hart := (withLines (storingHart address value) b.bus.sampleLines).advance
            bus := Bus.write b.bus.sampleLines (address + 0) (leBytes 4 value) }) := rfl
  have hoffset : address + 0 = address := BitVec.add_zero address
  rw [hoffset] at hexec
  have hattempt : (b.storing address value).sampleLines.machine.attempt? =
      some (.s ⟨Opcode.store, 2, 1, 2, 0⟩, .completed,
        { hart := (withLines (storingHart address value) b.bus.sampleLines).advance
          bus := Bus.write b.bus.sampleLines address (leBytes 4 value) }) := by
    rw [Machine.attempt?_eq_some, hfetch]
    exact ⟨instructionAt_storeProgram _, hexec⟩
  rw [Machine.step_of_attempt hattempt]
  rfl

theorem step_storing {b : Board} (hb : b.HoldsStore) (address value : Word) :
    (b.storing address value).step = (.running, b.stored address value) := by
  simp only [step, machine_step_storing hb]
  rfl

theorem interruptTaken?_storing {b : Board} (hb : b.HoldsStore) (address value : Word) :
    (b.storing address value).interruptTaken? =
      ((b.storing address value).countStep
        (b.storedMachine address value)).sampleLines.hart.nextInterrupt? := by
  simp only [interruptTaken?, machine_step_storing hb]
  rfl

theorem Reachable.storing {b : Board} (hb : b.Reachable) (address value : Word) :
    (b.storing address value).Reachable :=
  hb.replaced (storingHart address value)

theorem Reachable.stored {b : Board} (hb : b.Reachable) (hholds : b.HoldsStore)
    (address value : Word) : (b.stored address value).Reachable := by
  have hstep := (hb.storing address value).stepped
  rw [step_storing hholds] at hstep
  exact hstep

def loadedBoard : Board :=
  (assemble .standard standardMap (.withInput []) 0).load defaultResetVector storeProgram

/-- The source of the UART has got a priority and has been enabled. -/
def listeningBoard : Board :=
  (loadedBoard.stored 0x0C000028 1).stored 0x0C002000 0x400

theorem read_loadedBoard : loadedBoard.bus.ram.read defaultResetVector 4 = storeProgram := by
  have hram : loadedBoard.bus.ram = Ram.empty.write defaultResetVector storeProgram := rfl
  rw [hram]
  exact Ram.read_write (k := 0) _ _ (by decide) (by decide)

/-- Stores to devices leave the map and the program as they were. -/
theorem holdsStore_listeningBoard : listeningBoard.HoldsStore :=
  ⟨rfl, read_loadedBoard⟩

theorem reachable_listeningBoard : listeningBoard.Reachable := by
  have hloaded : loadedBoard.Reachable :=
    .loaded (.built (build_standard (.withInput []) 0)) defaultResetVector storeProgram
  have hpriority := hloaded.stored ⟨rfl, read_loadedBoard⟩ 0x0C000028 1
  exact hpriority.stored ⟨rfl, read_loadedBoard⟩ 0x0C002000 0x400

/-- The UART is told to interrupt when it can transmit, which it can: the same step traps. -/
theorem pending_mirrors_devices_uart :
    (listeningBoard.storing 0x10000001 2).Reachable ∧
      (listeningBoard.storing 0x10000001 2).interruptTaken? = some .machineExternal ∧
      Mirrored (listeningBoard.stored 0x10000001 2).hart (listeningBoard.stored 0x10000001 2).bus
        (some .machineExternal) ∧
      ((listeningBoard.stored 0x10000001 2).bus.plic.claim machineContext).1 = 10 := by
  have hreach := reachable_listeningBoard.storing 0x10000001 2
  have htaken : (listeningBoard.storing 0x10000001 2).interruptTaken? = some .machineExternal := by
    rw [interruptTaken?_storing holdsStore_listeningBoard]
    decide +kernel
  obtain ⟨-, -, -, hafter⟩ := pending_mirrors_devices hreach
  have hnext := hafter _ (step_storing holdsStore_listeningBoard 0x10000001 2)
  rw [htaken] at hnext
  exact ⟨hreach, htaken, hnext.1, hnext.2 rfl⟩

end Board

end Rv32
