import Rv32.Proofs.Csr.Aliasing
import Rv32.Proofs.Csr.StatusBits
import Rv32.Proofs.Trap.Return

/-! # The delivery of a trap

A trap chooses its handler by the level and by one bit of a delegation register.
The handler finds what it needs in its own registers: where the trap came from,
what it was taken for, and the interrupt enable bit and the level that were
given up. Nothing else changes, in the registers, in the status register bit by
bit, or in what is pending.
-/

namespace Rv32

/-! ## Causes -/

namespace Cause

def code : Cause → Nat
  | exception e => e.code
  | interrupt i => i.code

def isInterrupt : Cause → Bool
  | exception _ => false
  | interrupt _ => true

def delegationRegister : Cause → Csr
  | exception _ => .medeleg
  | interrupt _ => .mideleg

theorem toNat_value (c : Cause) :
    c.value.toNat = if c.isInterrupt then 2 ^ 31 + c.code else c.code := by
  cases c with
  | exception e => cases e <;> rfl
  | interrupt i => cases i <;> rfl

theorem delegates_eq (c : Cause) (b : CsrBank) :
    b.delegation.delegates c = (b.value c.delegationRegister).getLsbD c.code := by
  cases c with
  | exception e => rfl
  | interrupt i => rfl

end Cause

/-- Without its two low bits the register is the base, whatever the mode. -/
theorem TrapVector.alignDown_value (v : TrapVector) : v.value.alignDown = v.base := by
  apply BitVec.eq_of_toNat_eq
  have hmode := v.mode.bits.isLt
  rw [Word.toNat_alignDown, toNat_value, toNat_base]
  omega

/-! ## The registers of a handler -/

namespace CsrBank

def vectorOf : Level → Csr
  | .supervisor => .stvec
  | _ => .mtvec

theorem value_vectorOf (b : CsrBank) (level : Level) :
    b.value (vectorOf level) = (b.trapVector level).value := by
  cases level <;> rfl

/-- What the handler at `level` has been given by its last trap, and where it starts. -/
structure HandlerKept (level : Level) (before after : CsrBank) : Prop where
  epc : after.epc level = before.epc level
  cause : after.cause level = before.cause level
  tval : after.tval level = before.tval level
  vector : after.trapVector level = before.trapVector level
  enable : after.status.enableOf level = before.status.enableOf level
  previousEnable : after.status.previousEnableOf level = before.status.previousEnableOf level
  previousField : after.status.previousFieldOf level = before.status.previousFieldOf level

/-- The registers that show a trap to the handler at `target`. -/
def trapRegisters (target : Level) : List Csr :=
  [.mstatus, .sstatus, .mip, .sip, .plain (epcOf target), .plain (causeOf target),
    .plain (tvalOf target)]

def trapParts (target : Level) : List CsrPart :=
  [.status, .pending, .plain (epcOf target), .plain (causeOf target), .plain (tvalOf target)]

theorem trapRegisters_eq (target : Level) :
    trapRegisters target = (trapParts target).flatMap CsrPart.shownBy := rfl

theorem causeOf_ne_tvalOf (level : Level) : causeOf level ≠ tvalOf level := by
  cases level <;> decide

/-- A trap saves its cause and its origin in three registers of the handler. -/
theorem get_saved_of_ne (b : CsrBank) (target : Level) (pc cause : Word) {r : PlainCsr}
    (hepc : r ≠ epcOf target) (hcause : r ≠ causeOf target) (htval : r ≠ tvalOf target) :
    (((b.setEpc target pc).setCause target cause).setTval target 0).plain.get r =
      b.plain.get r := by
  simp only [setEpc, setCause, setTval, setPlain, PlainCsrs.get_set, if_neg hepc.symm,
    if_neg hcause.symm, if_neg htval.symm]

end CsrBank

def Status.trapBits : Level → List Nat
  | .supervisor => [1, 5, 8]
  | _ => [3, 7, 11, 12]

namespace Hart

open CsrBank (vectorOf epcOf causeOf tvalOf trapParts trapRegisters HandlerKept)

/--
Where the hart `after` has gone when `before` has taken a trap for `c`, and what it has saved, in
the registers named. An address is rounded down to a multiple of four.
-/
structure Recorded (before : Hart) (c : Cause) (vector : Csr) (epc cause tval : PlainCsr)
    (after : Hart) : Prop where
  pc : after.pc.toNat = (before.csrs.value vector).toNat / 4 * 4
  epc : (after.csrs.value (.plain epc)).toNat = before.pc.toNat / 4 * 4
  cause : (after.csrs.value (.plain cause)).toNat =
    if c.isInterrupt then 2 ^ 31 + c.code else c.code
  tval : after.csrs.value (.plain tval) = 0

/-- What the handler at `target` finds in `after` when `before` has taken a trap for `c`. -/
structure Delivered (before : Hart) (c : Cause) (target : Level) (after : Hart) : Prop where
  level : after.level = target
  pc : after.pc = (before.csrs.value (vectorOf target)).alignDown
  epc : after.csrs.value (.plain (epcOf target)) = before.pc.alignDown
  cause : (after.csrs.value (.plain (causeOf target))).toNat =
    if c.isInterrupt then 2 ^ 31 + c.code else c.code
  tval : after.csrs.value (.plain (tvalOf target)) = 0
  machine : target = .machine → Recorded before c .mtvec .mepc .mcause .mtval after
  supervisor : target = .supervisor → Recorded before c .stvec .sepc .scause .stval after
  previousEnable : after.csrs.status.previousEnableOf target = before.csrs.status.enableOf target
  enable : after.csrs.status.enableOf target = false
  previousField : after.csrs.status.previousFieldOf target = before.level.field
  pending : ∀ i, c = .interrupt i → (after.csrs.value .mip).getLsbD i.code = false
  sources : c = .interrupt .supervisorExternal →
    after.csrs.interrupts.seipLine = false ∧ after.csrs.interrupts.seipSoftware = false

/-- What a trap for `c` to the handler at `target` leaves in `after` as it was in `before`. -/
structure Undisturbed (before : Hart) (c : Cause) (target : Level) (after : Hart) : Prop where
  registers : ∀ r, after.x r = before.x r
  reservation : after.reservation = before.reservation
  resetVector : after.resetVector = before.resetVector
  ecallMode : after.ecallMode = before.ecallMode
  otherHandler : ∀ other, other ≠ target → other ≠ .user → HandlerKept other before.csrs after.csrs
  csrs : ∀ r, r ∉ trapRegisters target → after.csrs.value r = before.csrs.value r
  status : ∀ k, k ∉ Status.trapBits target →
    (after.csrs.value .mstatus).getLsbD k = (before.csrs.value .mstatus).getLsbD k
  pending : ∀ k, (∀ i, c = .interrupt i → i.code ≠ k) →
    (after.csrs.value .mip).getLsbD k = (before.csrs.value .mip).getLsbD k
  sources : c ≠ .interrupt .supervisorExternal →
    after.csrs.interrupts.seipLine = before.csrs.interrupts.seipLine ∧
      after.csrs.interrupts.seipSoftware = before.csrs.interrupts.seipSoftware

/-! ## The handler -/

theorem handlerLevel_eq_supervisor_iff (h : Hart) (c : Cause) :
    h.handlerLevel c = .supervisor ↔
      h.level ≠ .machine ∧ (h.csrs.value c.delegationRegister).getLsbD c.code = true := by
  rw [← c.delegates_eq h.csrs]
  unfold handlerLevel isDelegated
  split
  · rename_i hdelegated
    exact iff_of_true rfl (by simpa using hdelegated)
  · rename_i hdelegated
    exact iff_of_false Level.noConfusion (by simpa using hdelegated)

/-! ## What is pending -/

theorem getLsbD_mip_trap (h : Hart) (c : Cause) {k : Nat}
    (hk : ∀ i, c = .interrupt i → i.code ≠ k) :
    ((h.trap c).csrs.value .mip).getLsbD k = (h.csrs.value .mip).getLsbD k := by
  cases c with
  | exception e => rfl
  | interrupt i =>
      refine Interrupts.getLsbD_mip_congr fun j hj => ?_
      refine h.csrs.interrupts.isPending_clearPending_of_ne fun hij => ?_
      exact hk i rfl (hij ▸ hj)

theorem getLsbD_mip_trap_interrupt (h : Hart) (i : Interrupt) :
    ((h.trap (.interrupt i)).csrs.value .mip).getLsbD i.code = false :=
  (Interrupts.getLsbD_mip_code _ i).trans (h.csrs.interrupts.isPending_clearPending_self i)

theorem sources_trap (h : Hart) {c : Cause} (hc : c ≠ .interrupt .supervisorExternal) :
    (h.trap c).csrs.interrupts.seipLine = h.csrs.interrupts.seipLine ∧
      (h.trap c).csrs.interrupts.seipSoftware = h.csrs.interrupts.seipSoftware := by
  cases c with
  | exception e => exact ⟨rfl, rfl⟩
  | interrupt i =>
      cases i with
      | supervisorExternal => exact absurd rfl hc
      | _ => exact ⟨rfl, rfl⟩

/-! ## The registers of both handlers -/

theorem getLsbD_mstatus_trap (h : Hart) (c : Cause) {k : Nat}
    (hk : k ∉ Status.trapBits (h.handlerLevel c)) :
    ((h.trap c).csrs.value .mstatus).getLsbD k = (h.csrs.value .mstatus).getLsbD k := by
  change (h.trap c).csrs.status.pack.getLsbD k = h.csrs.status.pack.getLsbD k
  rw [Status.getLsbD_pack, Status.getLsbD_pack, status_trap]
  rcases h.handlerLevel_cases c with hm | ⟨hs, -⟩
  · rw [hm] at hk ⊢
    exact Status.bit_enterMachine _ _ hk
  · rw [hs] at hk ⊢
    exact Status.bit_enterSupervisor _ _ hk

/-- A trap leaves the other parts of the bank as they were. -/
theorem agrees_trap (h : Hart) (c : Cause) {p : CsrPart} (hp : p ∉ trapParts (h.handlerLevel c)) :
    p.Agrees (h.trap c).csrs h.csrs := by
  cases p with
  | status => exact absurd (by simp [trapParts]) hp
  | pending => exact absurd (by simp [trapParts]) hp
  | enabled =>
      cases c with
      | exception e => rfl
      | interrupt i => exact h.csrs.interrupts.mie_clearPending i
  | plain r =>
      have hne {s : PlainCsr} (hs : .plain s ∈ trapParts (h.handlerLevel c)) : r ≠ s := by
        rintro rfl
        exact hp hs
      exact h.csrs.get_saved_of_ne (h.handlerLevel c) h.pc c.value (hne (by simp [trapParts]))
        (hne (by simp [trapParts])) (hne (by simp [trapParts]))
  | _ => rfl

theorem value_trap (h : Hart) (c : Cause) {r : Csr} (hr : r ∉ trapRegisters (h.handlerLevel c)) :
    (h.trap c).csrs.value r = h.csrs.value r := by
  rw [CsrBank.trapRegisters_eq, List.mem_flatMap] at hr
  exact CsrBank.value_eq_of_agrees fun p hp => h.agrees_trap c fun hpart => hr ⟨p, hpart, hp⟩

/-- The handler that a trap does not go to keeps what its last trap has left. -/
theorem handlerKept_trap (h : Hart) (c : Cause) {other : Level} (hother : other ≠ h.handlerLevel c)
    (huser : other ≠ .user) : HandlerKept other h.csrs (h.trap c).csrs := by
  have hplain {r : PlainCsr} (hr : .plain r ∉ trapRegisters (h.handlerLevel c)) :
      (h.trap c).csrs.plain.get r = h.csrs.plain.get r := h.value_trap c (r := .plain r) hr
  have hstatus := h.status_trap c
  have hpair : h.handlerLevel c = .machine ∧ other = .supervisor ∨
      h.handlerLevel c = .supervisor ∧ other = .machine := by
    rcases h.handlerLevel_cases c with htarget | ⟨htarget, -⟩
    · rw [htarget] at hother
      cases other <;> simp_all
    · rw [htarget] at hother
      cases other <;> simp_all
  rcases hpair with ⟨htarget, rfl⟩ | ⟨htarget, rfl⟩
  all_goals
    rw [htarget] at hplain hstatus
    exact
      { epc := hplain (by decide)
        cause := hplain (by decide)
        tval := hplain (by decide)
        vector := rfl
        enable := by rw [hstatus]; rfl
        previousEnable := by rw [hstatus]; rfl
        previousField := by rw [hstatus]; rfl }

theorem cause_trap (h : Hart) (c : Cause) :
    (h.trap c).csrs.value (.plain (causeOf (h.handlerLevel c))) = c.value := by
  refine (PlainCsrs.get_set _ _ _ _).trans ?_
  rw [if_neg (CsrBank.causeOf_ne_tvalOf _).symm]
  exact PlainCsrs.get_set_self _ _ _

theorem pc_trap_eq_vector (h : Hart) (c : Cause) :
    (h.trap c).pc = (h.csrs.value (vectorOf (h.handlerLevel c))).alignDown := by
  rw [pc_trap, CsrBank.value_vectorOf, TrapVector.alignDown_value]

theorem recorded_trap (h : Hart) (c : Cause) :
    Recorded h c (vectorOf (h.handlerLevel c)) (epcOf (h.handlerLevel c))
      (causeOf (h.handlerLevel c)) (tvalOf (h.handlerLevel c)) (h.trap c) where
  pc := by rw [pc_trap_eq_vector, Word.toNat_alignDown]
  epc := (congrArg BitVec.toNat (h.epc_trap c)).trans h.pc.toNat_alignDown
  cause := by rw [cause_trap, c.toNat_value]
  tval := PlainCsrs.get_set_self _ _ _

theorem delivered_trap (h : Hart) (c : Cause) : Delivered h c (h.handlerLevel c) (h.trap c) := by
  have hsuspended := h.suspended_trap c
  have hrecorded := h.recorded_trap c
  have hstatus := h.status_trap c
  refine
    { level := rfl
      pc := h.pc_trap_eq_vector c
      epc := hsuspended.epc
      cause := hrecorded.cause
      tval := hrecorded.tval
      machine := ?machine
      supervisor := ?supervisor
      previousEnable := hsuspended.enable
      enable := ?enable
      previousField := ?previousField
      pending := ?pending
      sources := ?sources }
  case machine =>
    intro htarget
    rw [htarget] at hrecorded
    exact hrecorded
  case supervisor =>
    intro htarget
    rw [htarget] at hrecorded
    exact hrecorded
  case enable =>
    rw [hstatus]
    rcases h.handlerLevel_cases c with hm | ⟨hs, -⟩
    · rw [hm]
      rfl
    · rw [hs]
      rfl
  case previousField =>
    rw [hstatus]
    rcases h.handlerLevel_cases c with hm | ⟨hs, hbelow⟩
    · rw [hm]
      rfl
    · rw [hs]
      cases hlevel : h.level with
      | machine => exact absurd hlevel hbelow
      | _ => rfl
  case pending =>
    rintro i rfl
    exact h.getLsbD_mip_trap_interrupt i
  case sources =>
    rintro rfl
    exact ⟨rfl, rfl⟩

theorem undisturbed_trap (h : Hart) (c : Cause) : Undisturbed h c (h.handlerLevel c) (h.trap c) :=
  { registers := h.x_trap c
    reservation := h.reservation_trap c
    resetVector := rfl
    ecallMode := rfl
    otherHandler := fun _ => h.handlerKept_trap c
    csrs := fun _ => h.value_trap c
    status := fun _ => h.getLsbD_mstatus_trap c
    pending := fun _ => h.getLsbD_mip_trap c
    sources := h.sources_trap }

/--
A trap goes to the supervisor exactly if the hart is not in machine mode and the
cause has its bit set in the register that delegates it, and to the machine
otherwise. The handler finds where the trap came from, its cause, the interrupt
enable bit and the level that were given up, and nothing else is changed.
-/
theorem trap_delivered (h : Hart) (c : Cause) :
    ((h.trap c).level = .supervisor ↔
        h.level ≠ .machine ∧ (h.csrs.value c.delegationRegister).getLsbD c.code = true) ∧
      ((h.trap c).level ≠ .supervisor → (h.trap c).level = .machine) ∧
      Delivered h c (h.trap c).level (h.trap c) ∧ Undisturbed h c (h.trap c).level (h.trap c) := by
  refine ⟨h.handlerLevel_eq_supervisor_iff c, fun hne => ?_, h.delivered_trap c,
    h.undisturbed_trap c⟩
  rcases h.handlerLevel_cases c with hm | ⟨hs, -⟩
  · exact hm
  · exact absurd hs hne

end Hart

end Rv32
