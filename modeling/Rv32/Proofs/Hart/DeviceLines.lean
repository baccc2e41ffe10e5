import Rv32.Proofs.Csr.Access
import Rv32.Proofs.Hart.Step

/-! # The lines that devices drive

Four bits of a hart show lines of devices. Software cannot write them, and a
trap takes bits down and raises none. So the lines of a hart to which no device
is connected stay low, whatever it executes.
-/

namespace Rv32

namespace Interrupts

structure LinesLow (s : Interrupts) : Prop where
  msip : s.msip = false
  mtip : s.mtip = false
  meip : s.meip = false
  seipLine : s.seipLine = false

theorem linesLow_reset : reset.LinesLow :=
  ⟨rfl, rfl, rfl, rfl⟩

variable {s : Interrupts}

theorem LinesLow.writeMip (h : s.LinesLow) (value mask : Word) : (s.writeMip value mask).LinesLow :=
  ⟨h.msip, h.mtip, h.meip, h.seipLine⟩

theorem LinesLow.writeMie (h : s.LinesLow) (value mask : Word) : (s.writeMie value mask).LinesLow :=
  ⟨h.msip, h.mtip, h.meip, h.seipLine⟩

theorem LinesLow.clearPending (h : s.LinesLow) (i : Interrupt) : (s.clearPending i).LinesLow := by
  cases i with
  | machineSoftware => exact ⟨rfl, h.mtip, h.meip, h.seipLine⟩
  | machineTimer => exact ⟨h.msip, rfl, h.meip, h.seipLine⟩
  | machineExternal => exact ⟨h.msip, h.mtip, rfl, h.seipLine⟩
  | supervisorExternal => exact ⟨h.msip, h.mtip, h.meip, rfl⟩
  | supervisorSoftware => exact ⟨h.msip, h.mtip, h.meip, h.seipLine⟩
  | supervisorTimer => exact ⟨h.msip, h.mtip, h.meip, h.seipLine⟩

end Interrupts

def Hart.LinesLow (h : Hart) : Prop :=
  h.csrs.interrupts.LinesLow

theorem CsrBank.linesLow_update {b : CsrBank} (hb : b.interrupts.LinesLow) (c : Csr)
    (value mask : Word) : (b.update c value mask).interrupts.LinesLow := by
  cases c with
  | mip => exact hb.writeMip value mask
  | mie => exact hb.writeMie value mask
  | sip => exact hb.writeMip value _
  | sie => exact hb.writeMie value _
  | _ => exact hb

namespace Hart

theorem Effect.linesLow {h after : Hart} {i : Instruction} {outcome : Outcome}
    (he : Effect h i outcome after) (hl : h.LinesLow) : after.LinesLow := by
  cases he with
  | accessed rd n old value mask csrs hread hwrite hnext =>
      obtain ⟨c, -, -, rfl⟩ := CsrBank.writeMasked_eq_ok hwrite
      exact CsrBank.linesLow_update hl c value mask
  | _ => exact hl

theorem LinesLow.trap {h : Hart} (hl : h.LinesLow) (c : Cause) : (h.trap c).LinesLow := by
  cases c with
  | exception e => exact hl
  | interrupt i => exact Interrupts.LinesLow.clearPending hl i

theorem stable_linesLow : Stable LinesLow :=
  { effect := fun he hl => he.linesLow hl
    counted := fun hl => hl
    trapped := fun c hl => hl.trap c }

end Hart

end Rv32
