import Rv32.Memory.Ram
import Rv32.Proofs.Csr.Access
import Rv32.Proofs.Csr.Status
import Rv32.Proofs.Hart.Effect
import Rv32.Proofs.Trap.Pending

/-! # Integrity of the machine level

Software below machine mode changes nothing that belongs to machine mode,
whatever instruction it executes and however that ends. The registers of the
supervisor that show a part of a machine register are written through the same
code as the machine register itself; what keeps the rest of it is the mask.
-/

namespace Rv32

structure CsrBank.MachineOwnedKept (before after : CsrBank) : Prop where
  mtvec : after.mtvec = before.mtvec
  delegation : after.delegation = before.delegation
  plain : ∀ c : PlainCsr, c.isMachineOwned = true → after.plain.get c = before.plain.get c
  retired : after.retired = before.retired
  -- Enable bits change only where the interrupt is delegated.
  mie : ∀ k, before.delegation.interrupts.getLsbD k = false →
    after.interrupts.mie.getLsbD k = before.interrupts.mie.getLsbD k
  -- Pending bits do not change, but for a delegated software interrupt of the supervisor.
  mip : ∀ k, ¬ (k = Interrupt.supervisorSoftware.code ∧
      before.delegation.delegatesInterrupt .supervisorSoftware = true) →
    after.interrupts.mip.getLsbD k = before.interrupts.mip.getLsbD k
  seipSoftware : after.interrupts.seipSoftware = before.interrupts.seipSoftware
  status : Status.MachineFieldsKept before.status after.status

namespace CsrBank

theorem MachineOwnedKept.refl (b : CsrBank) : MachineOwnedKept b b :=
  { mtvec := rfl
    delegation := rfl
    plain := fun _ _ => rfl
    retired := rfl
    mie := fun _ _ => rfl
    mip := fun _ _ => rfl
    seipSoftware := rfl
    status := .refl _ }

theorem MachineOwnedKept.of_status {b : CsrBank} {status : Status}
    (h : Status.MachineFieldsKept b.status status) :
    MachineOwnedKept b { b with status := status } :=
  { MachineOwnedKept.refl b with status := h }

theorem machineOwnedKept_setPlain (b : CsrBank) {c : PlainCsr} (v : Word)
    (hc : c.isMachineOwned = false) : MachineOwnedKept b (b.setPlain c v) := by
  refine { MachineOwnedKept.refl b with plain := ?_ }
  intro d hd
  have hne : c ≠ d := by
    rintro rfl
    rw [hc] at hd
    cases hd
  simp [setPlain, PlainCsrs.get_set, hne]

theorem machineOwnedKept_writeSip (b : CsrBank) (value mask : Word) :
    MachineOwnedKept b
      { b with interrupts := b.interrupts.writeSip value mask b.delegation } := by
  have hssip := b.interrupts.writeSip_eq value mask b.delegation
  refine { MachineOwnedKept.refl b with mie := ?_, mip := ?_, seipSoftware := ?_ }
  · intro k _
    rw [hssip]
  · intro k hk
    apply Interrupts.getLsbD_mip_congr
    rintro i rfl
    apply Interrupts.isPending_writeSip
    rintro rfl
    simpa using hk
  · rw [hssip]

theorem machineOwnedKept_writeSie (b : CsrBank) (value mask : Word) :
    MachineOwnedKept b
      { b with interrupts := b.interrupts.writeSie value mask b.delegation } :=
  { MachineOwnedKept.refl b with
    mie := fun _ hk => Interrupts.getLsbD_mie_writeSie _ _ _ hk }

/-- A write to a register of the supervisor, alias or not, keeps what machine mode owns. -/
theorem machineOwnedKept_update (b : CsrBank) {c : Csr} (value mask : Word)
    (hc : c.isSupervisorWritable = true) : MachineOwnedKept b (b.update c value mask) := by
  cases c with
  | sstatus => exact .of_status (Status.machineFieldsKept_writeSupervisor _ _ _)
  | sie => exact b.machineOwnedKept_writeSie value mask
  | stvec => exact { MachineOwnedKept.refl b with }
  | sip => exact b.machineOwnedKept_writeSip value mask
  | plain c => exact b.machineOwnedKept_setPlain _ (by simpa [Csr.isSupervisorWritable] using hc)
  | _ => cases hc

theorem mprv_update (b : CsrBank) {c : Csr} (value mask : Word)
    (hc : c.isSupervisorWritable = true) :
    (b.update c value mask).status.mprv = b.status.mprv := by
  cases c with
  | sstatus => exact Status.mprv_writeSupervisor _ _ _
  | _ => first | rfl | cases hc

end CsrBank

namespace Hart

/-! ## One instruction -/

theorem Effect.machineOwnedKept {h after : Hart} {i : Instruction} {outcome : Outcome}
    (he : Effect h i outcome after) (hbelow : h.level ≠ .machine) :
    CsrBank.MachineOwnedKept h.csrs after.csrs := by
  cases he with
  | accessed rd n old value mask csrs hread hwrite hnext =>
      obtain ⟨c, hlevel, hro, rfl⟩ := CsrBank.writeMasked_eq_ok hwrite
      exact h.csrs.machineOwnedKept_update value mask
        (Csr.supervisor_of_writable hbelow hlevel hro).2
  | leftMachine hop hlevel => exact absurd hlevel hbelow
  | leftSupervisor hop hmay => exact .of_status (Status.machineFieldsKept_leaveSupervisor _)
  | _ => exact .refl _

theorem Effect.mprv_eq {h after : Hart} {i : Instruction} {outcome : Outcome}
    (he : Effect h i outcome after) (hbelow : h.level ≠ .machine)
    (hsret : ¬ (i.operation? = some (.imm .sret) ∧ h.mayLeaveSupervisor = true)) :
    after.csrs.status.mprv = h.csrs.status.mprv := by
  cases he with
  | accessed rd n old value mask csrs hread hwrite hnext =>
      obtain ⟨c, hlevel, hro, rfl⟩ := CsrBank.writeMasked_eq_ok hwrite
      exact h.csrs.mprv_update value mask (Csr.supervisor_of_writable hbelow hlevel hro).2
  | leftMachine hop hlevel => exact absurd hlevel hbelow
  | leftSupervisor hop hmay => exact absurd ⟨hop, hmay⟩ hsret
  | _ => rfl

/-- In user mode no instruction writes a control register. -/
theorem Effect.csrs_of_user {h after : Hart} {i : Instruction} {outcome : Outcome}
    (he : Effect h i outcome after) (huser : h.level = .user) : after.csrs = h.csrs := by
  cases he with
  | accessed rd n old value mask csrs hread hwrite hnext =>
      obtain ⟨c, hlevel, hro, rfl⟩ := CsrBank.writeMasked_eq_ok hwrite
      have hbelow : h.level ≠ .machine := by simp [huser]
      have hsupervisor := (Csr.supervisor_of_writable hbelow hlevel hro).1
      rw [huser] at hsupervisor
      cases hsupervisor
  | leftMachine hop hlevel => simp [huser] at hlevel
  | leftSupervisor hop hmay => simp [mayLeaveSupervisor, huser] at hmay
  | _ => rfl

end Hart

namespace Machine

variable {β : Type} [Bus β]

theorem executed_sret (m : Machine β) {i : Instruction} (hop : i.operation? = some (.imm .sret))
    (hmay : m.hart.mayLeaveSupervisor = true) :
    (m.executed i).hart.csrs.status = m.hart.csrs.status.leaveSupervisor := by
  simp [executed, m.execute_sret hop, Hart.sret, hmay, settle, Hart.trapReturn]

/--
Below machine mode every instruction keeps what belongs to machine mode,
whatever it comes to. The modified privilege bit is cleared by a return from
supervisor mode that is allowed, and by nothing else; in user mode no control
register changes at all.
-/
theorem executed_keeps_machine_state (m : Machine β) (i : Instruction)
    (hbelow : m.hart.level ≠ .machine) :
    CsrBank.MachineOwnedKept m.hart.csrs (m.executed i).hart.csrs ∧
      (m.executed i).hart.csrs.status.mprv =
        (if i.operation? = some (.imm .sret) ∧ m.hart.mayLeaveSupervisor = true then false
          else m.hart.csrs.status.mprv) ∧
      (m.hart.level = .user → (m.executed i).hart.csrs = m.hart.csrs) := by
  have hcleared (hsret : i.operation? = some (.imm .sret) ∧ m.hart.mayLeaveSupervisor = true) :
      (m.executed i).hart.csrs.status.mprv = false := by
    rw [m.executed_sret hsret.1 hsret.2]
    rfl
  rcases m.executed_cases i with hsame | ⟨outcome, he⟩
  · refine ⟨?_, ?_, ?_⟩
    · rw [hsame]
      exact .refl _
    · split
      · rename_i hsret
        exact hcleared hsret
      · rw [hsame]
    · intro _
      rw [hsame]
  · refine ⟨he.machineOwnedKept hbelow, ?_, he.csrs_of_user⟩
    split
    · rename_i hsret
      exact hcleared hsret
    · rename_i hsret
      exact he.mprv_eq hbelow hsret

def supervisorExample : Machine Ram :=
  let hart := Hart.initial defaultResetVector .trap 0
  { hart :=
      { hart with
        level := .supervisor
        csrs := { hart.csrs with status := { hart.csrs.status with mprv := true } } }
    bus := .empty }

theorem executed_keeps_machine_state_sret :
    supervisorExample.hart.level ≠ .machine ∧
      CsrBank.MachineOwnedKept supervisorExample.hart.csrs
        (supervisorExample.executed (Instruction.trapReturn .supervisor)).hart.csrs ∧
      supervisorExample.hart.csrs.status.mprv = true ∧
      (supervisorExample.executed (Instruction.trapReturn .supervisor)).hart.csrs.status.mprv =
        false := by
  have hbelow : supervisorExample.hart.level ≠ .machine := by decide
  have hsret : (Instruction.trapReturn .supervisor).operation? = some (.imm .sret) ∧
      supervisorExample.hart.mayLeaveSupervisor = true := by decide
  obtain ⟨hkept, hmprv, -⟩ :=
    executed_keeps_machine_state supervisorExample (Instruction.trapReturn .supervisor) hbelow
  rw [if_pos hsret] at hmprv
  exact ⟨hbelow, hkept, rfl, hmprv⟩

end Machine

end Rv32
