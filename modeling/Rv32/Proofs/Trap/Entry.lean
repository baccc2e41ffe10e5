import Rv32.Hart.Trap
import Rv32.Proofs.Word

/-! # What a trap changes

A trap moves the program counter and the level, saves the old ones for its
handler and turns off the interrupts of the handler's level. Registers and the
reservation stay, and so does what the other handler has saved.
-/

namespace Rv32

namespace CsrBank

theorem epc_setPlain (b : CsrBank) (level : Level) (c : PlainCsr) (v : Word) :
    (b.setPlain c v).epc level = if c = epcOf level then v else b.epc level :=
  b.plain.get_set c (epcOf level) v

/-- Causes and trap values are kept in other registers than resume addresses. -/
theorem epc_setCause (b : CsrBank) (level target : Level) (v : Word) :
    (b.setCause target v).epc level = b.epc level := by
  cases level <;> cases target <;> simp [setCause, epc_setPlain, causeOf, epcOf]

theorem epc_setTval (b : CsrBank) (level target : Level) (v : Word) :
    (b.setTval target v).epc level = b.epc level := by
  cases level <;> cases target <;> simp [setTval, epc_setPlain, tvalOf, epcOf]

theorem epc_setEpc (b : CsrBank) (level target : Level) (v : Word) :
    (b.setEpc target v).epc level =
      if epcOf target = epcOf level then v.alignDown else b.epc level :=
  b.epc_setPlain level (epcOf target) v.alignDown

end CsrBank

namespace Hart

/-! ## The level of the handler -/

/-- Traps are handled by the machine, or by the supervisor if they come from below machine mode. -/
theorem handlerLevel_cases (h : Hart) (c : Cause) :
    h.handlerLevel c = .machine ∨ h.handlerLevel c = .supervisor ∧ h.level ≠ .machine := by
  cases hdelegated : h.isDelegated c with
  | false => exact .inl (by simp [handlerLevel, hdelegated])
  | true =>
      have hboth : h.level ≠ .machine ∧ h.csrs.delegation.delegates c = true := by
        simpa [isDelegated] using hdelegated
      exact .inr ⟨by simp [handlerLevel, hdelegated], hboth.1⟩

/-! ## The hart in the handler -/

@[simp] theorem level_trap (h : Hart) (c : Cause) : (h.trap c).level = h.handlerLevel c := rfl

@[simp] theorem x_trap (h : Hart) (c : Cause) (r : Register) : (h.trap c).x r = h.x r := rfl

@[simp] theorem reservation_trap (h : Hart) (c : Cause) :
    (h.trap c).reservation = h.reservation := rfl

@[simp] theorem pc_trap (h : Hart) (c : Cause) :
    (h.trap c).pc = (h.csrs.trapVector (h.handlerLevel c)).base := rfl

@[simp] theorem status_trap (h : Hart) (c : Cause) :
    (h.trap c).csrs.status = statusInHandler h.csrs.status (h.handlerLevel c) h.level := rfl

@[simp] theorem tsr_trap (h : Hart) (c : Cause) :
    (h.trap c).csrs.status.tsr = h.csrs.status.tsr := by
  rw [status_trap]
  rcases h.handlerLevel_cases c with hm | ⟨hs, -⟩
  · rw [hm]
    rfl
  · rw [hs]
    rfl

/-- A trap saves the program counter for its handler and keeps the address saved for the other. -/
theorem epc_trap_eq (h : Hart) (c : Cause) (level : Level) :
    (h.trap c).csrs.epc level =
      if CsrBank.epcOf (h.handlerLevel c) = CsrBank.epcOf level then h.pc.alignDown
      else h.csrs.epc level := by
  have hplain : (h.trap c).csrs.epc level =
      (((h.csrs.setEpc (h.handlerLevel c) h.pc).setCause (h.handlerLevel c) c.value).setTval
        (h.handlerLevel c) 0).epc level := rfl
  rw [hplain, CsrBank.epc_setTval, CsrBank.epc_setCause, CsrBank.epc_setEpc]

@[simp] theorem epc_trap (h : Hart) (c : Cause) :
    (h.trap c).csrs.epc (h.handlerLevel c) = h.pc.alignDown := by
  rw [epc_trap_eq, if_pos rfl]

theorem sepc_trap_of_machine {h : Hart} {c : Cause} (hm : h.handlerLevel c = .machine) :
    (h.trap c).csrs.epc .supervisor = h.csrs.epc .supervisor := by
  rw [epc_trap_eq, hm]
  rfl

end Hart

end Rv32
