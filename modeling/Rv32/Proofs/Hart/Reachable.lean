import Rv32.Proofs.Csr.Legal
import Rv32.Proofs.Hart.Step

/-! # The states of a hart

Whoever holds a hart can step it on any bus, have it take interrupts and traps,
write its control registers at any level, drive its device lines and reset it,
in any order. None of these operations leaves a control register with illegal
contents, so there are none in any state that a hart comes to.
-/

namespace Rv32

inductive DeviceLine where
  | machineExternal
  | supervisorExternal
  | machineTimer
  | machineSoftware

def Interrupts.drive (s : Interrupts) (line : DeviceLine) (level : Bool) : Interrupts :=
  match line with
  | .machineExternal => s.setMachineExternal level
  | .supervisorExternal => s.setSupervisorExternal level
  | .machineTimer => s.setMachineTimer level
  | .machineSoftware => s.setMachineSoftware level

theorem Interrupts.mie_drive (s : Interrupts) (line : DeviceLine) (level : Bool) :
    (s.drive line level).mie = s.mie := by
  cases line <;> rfl

namespace Hart

/-- One operation on a hart. A write that is refused is none. -/
inductive Operated (h : Hart) : Hart → Prop where
  | stepped {β : Type} [Bus β] (bus : β) :
      Operated h (Machine.step { hart := h, bus := bus }).2.hart
  | interrupted : Operated h h.takeInterrupt.2
  | trapped (c : Cause) : Operated h (h.trap c)
  | wrote (n : CsrNumber) (value : Word) (level : Level) (csrs : CsrBank)
      (hwrite : h.csrs.write n value level = .ok csrs) : Operated h { h with csrs := csrs }
  | wroteMasked (n : CsrNumber) (value mask : Word) (level : Level) (csrs : CsrBank)
      (hwrite : h.csrs.writeMasked n value mask level = .ok csrs) :
      Operated h { h with csrs := csrs }
  | setEpc (level : Level) (v : Word) : Operated h { h with csrs := h.csrs.setEpc level v }
  | setCause (level : Level) (v : Word) : Operated h { h with csrs := h.csrs.setCause level v }
  | setTval (level : Level) (v : Word) : Operated h { h with csrs := h.csrs.setTval level v }
  | driven (line : DeviceLine) (level : Bool) :
      Operated h
        { h with csrs := { h.csrs with interrupts := h.csrs.interrupts.drive line level } }
  | ticked (clock : DoubleWord) : Operated h (h.withClock clock)
  | resetCsrs : Operated h { h with csrs := h.csrs.reset }
  | reset : Operated h h.reset

inductive Reachable : Hart → Prop where
  | initial (resetVector : Word) (ecallMode : EcallMode) (clock : DoubleWord) :
      Reachable (.initial resetVector ecallMode clock)
  | operated {h after : Hart} (hreach : Reachable h) (hop : h.Operated after) : Reachable after

/-! ## One operation -/

theorem legal_trap {h : Hart} (hl : h.csrs.Legal) (c : Cause) : (h.trap c).csrs.Legal := by
  have hsaved := ((hl.setEpc (h.handlerLevel c) h.pc).setCause (h.handlerLevel c) c.value).setTval
    (h.handlerLevel c) 0
  have hstatus : (statusInHandler h.csrs.status (h.handlerLevel c) h.level).Legal := by
    unfold statusInHandler
    split
    · exact hl.status.enterSupervisor h.level
    · exact hl.status.enterMachine h.level
  have hinterrupts : (interruptsInHandler h.csrs.interrupts c).mie.Within 0xAAA := by
    cases c with
    | exception e => exact hl.mie
    | interrupt i =>
        change (h.csrs.interrupts.clearPending i).mie.Within 0xAAA
        rw [Interrupts.mie_clearPending]
        exact hl.mie
  exact (hsaved.withStatus hstatus).withInterrupts hinterrupts

/-- Of the effects of an instruction only those that touch a control register matter. -/
theorem Effect.legal {h after : Hart} {i : Instruction} {outcome : Outcome}
    (he : Effect h i outcome after) (hl : h.csrs.Legal) : after.csrs.Legal := by
  cases he with
  | accessed rd n old value mask csrs hread hwrite hnext => exact hl.writeMasked hwrite
  | leftMachine hop hlevel => exact hl.withStatus hl.status.leaveMachine
  | leftSupervisor hop hmay => exact hl.withStatus hl.status.leaveSupervisor
  | _ => exact hl

theorem stable_legal : Stable fun h => h.csrs.Legal :=
  { effect := fun he hl => he.legal hl
    counted := fun hl => hl.withRetired _
    trapped := fun c hl => legal_trap hl c }

theorem Operated.legal {h after : Hart} (hop : h.Operated after) (hl : h.csrs.Legal) :
    after.csrs.Legal := by
  cases hop with
  | stepped bus => exact Machine.step_of_stable stable_legal hl
  | interrupted => exact stable_legal.takeInterrupt hl
  | trapped c => exact legal_trap hl c
  | wrote n value level csrs hwrite => exact hl.writeMasked hwrite
  | wroteMasked n value mask level csrs hwrite => exact hl.writeMasked hwrite
  | setEpc level v => exact hl.setEpc level v
  | setCause level v => exact hl.setCause level v
  | setTval level v => exact hl.setTval level v
  | driven line level =>
      refine hl.withInterrupts ?_
      rw [Interrupts.mie_drive]
      exact hl.mie
  | ticked clock => exact hl.withClock clock
  | resetCsrs => exact CsrBank.legal_initial _
  | reset => exact CsrBank.legal_initial _

/-! ## Every state -/

/-- In every state of a hart all control registers are legal, and register zero reads as zero. -/
theorem legal_of_reachable {h : Hart} (hreach : h.Reachable) :
    h.csrs.Legal ∧ h.x Register.zero = 0 := by
  refine ⟨?_, h.registers.get_zero⟩
  induction hreach with
  | initial resetVector ecallMode clock => exact CsrBank.legal_initial clock
  | operated _ hop ih => exact hop.legal ih

/-! ## A write that would leave the reserved level -/

def saturated : Hart :=
  { Hart.initial defaultResetVector .selfTest 0 with
    csrs := { CsrBank.initial 0 with status := Status.reset.write (.allOnes 32) (.allOnes 32) } }

/-- The low bit of the two that hold the previous level has been cleared by a second write. -/
def halfCleared : Hart :=
  { saturated with
    csrs := { saturated.csrs with status := saturated.csrs.status.write 0 0x800 } }

theorem reachable_halfCleared : halfCleared.Reachable := by
  have hsaturated : saturated.Reachable :=
    .operated (.initial defaultResetVector .selfTest 0)
      (.wrote 0x300 (.allOnes 32) .machine saturated.csrs rfl)
  exact .operated hsaturated (.wroteMasked 0x300 0 0x800 .machine halfCleared.csrs rfl)

theorem legal_of_reachable_half_cleared :
    (halfCleared.trap (.interrupt .machineTimer)).csrs.Legal ∧
      halfCleared.csrs.status.mpp = .machine ∧
      (Status.unpack (Word.merge saturated.csrs.status.pack 0 0x800)).mpp = .reserved := by
  have htrapped : (halfCleared.trap (.interrupt .machineTimer)).Reachable :=
    .operated reachable_halfCleared (.trapped _)
  exact ⟨(legal_of_reachable htrapped).1, by decide +kernel, by decide +kernel⟩

end Hart

end Rv32
