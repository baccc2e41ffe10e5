import Rv32.Memory.Ram
import Rv32.Proofs.Hart.Effect
import Rv32.Proofs.Trap.Entry

/-! # Trap entry and trap return are inverse

A trap suspends the context of the hart: what its return needs is in the
registers of the handler's level. The return brings that context back. A trap
to machine mode and its return keep what the supervisor has suspended, so traps
nest.
-/

namespace Rv32

namespace Status

def enableOf (s : Status) : Level → Bool
  | .supervisor => s.sie
  | _ => s.mie

def previousEnableOf (s : Status) : Level → Bool
  | .supervisor => s.spie
  | _ => s.mpie

def previousFieldOf (s : Status) : Level → LevelField
  | .supervisor => if s.spp then .supervisor else .user
  | _ => s.mpp

def previousLevelOf (s : Status) : Level → Level
  | .supervisor => s.sppLevel
  | _ => s.mppLevel

theorem mppLevel_enterMachine (s : Status) (origin : Level) :
    (s.enterMachine origin).mppLevel = origin := by
  cases origin <;> rfl

theorem sppLevel_enterSupervisor (s : Status) {origin : Level} (hbelow : origin ≠ .machine) :
    (s.enterSupervisor origin).sppLevel = origin := by
  cases origin with
  | machine => exact absurd rfl hbelow
  | _ => rfl

end Status

namespace Hart

/-- In `inside` the handler at `target` has suspended the context of `before`. -/
structure Suspended (before : Hart) (target : Level) (inside : Hart) : Prop where
  level : inside.level = target
  epc : inside.csrs.epc target = before.pc.alignDown
  enable : inside.csrs.status.previousEnableOf target = before.csrs.status.enableOf target
  previousLevel : inside.csrs.status.previousLevelOf target = before.level
  registers : ∀ r, inside.x r = before.x r
  reservation : inside.reservation = before.reservation
  mprv : before.level = .machine → inside.csrs.status.mprv = before.csrs.status.mprv

/-- In `after` the handler at `target` has returned to the context of `before`. -/
structure Resumed (before : Hart) (target : Level) (after : Hart) : Prop where
  level : after.level = before.level
  enable : after.csrs.status.enableOf target = before.csrs.status.enableOf target
  pc : after.pc = before.pc.alignDown
  -- The last multiple of four that is not above the old program counter.
  aligned : after.pc.toNat = before.pc.toNat / 4 * 4
  registers : ∀ r, after.x r = before.x r
  reservation : after.reservation = before.reservation
  previousEnable : after.csrs.status.previousEnableOf target = true
  previousField : after.csrs.status.previousFieldOf target = .user
  mprv : after.csrs.status.mprv =
    if before.level = .machine then before.csrs.status.mprv else false

/-! ## Entry -/

theorem suspended_trap (h : Hart) (c : Cause) :
    Suspended h (h.handlerLevel c) (h.trap c) := by
  refine
    { level := rfl
      epc := h.epc_trap c
      enable := ?_
      previousLevel := ?_
      registers := h.x_trap c
      reservation := h.reservation_trap c
      mprv := ?_ }
  · rw [status_trap]
    rcases h.handlerLevel_cases c with hm | ⟨hs, -⟩
    · rw [hm]
      rfl
    · rw [hs]
      rfl
  · rw [status_trap]
    rcases h.handlerLevel_cases c with hm | ⟨hs, hbelow⟩
    · rw [hm]
      exact Status.mppLevel_enterMachine _ _
    · rw [hs]
      exact Status.sppLevel_enterSupervisor _ hbelow
  · intro _
    rw [status_trap]
    rcases h.handlerLevel_cases c with hm | ⟨hs, -⟩
    · rw [hm]
      rfl
    · rw [hs]
      rfl

/-! ## Return -/

theorem Suspended.resumed_mret {before inside : Hart} (hs : Suspended before .machine inside) :
    inside.mret.1 = .completed ∧ Resumed before .machine inside.mret.2 := by
  have hmay : inside.mayLeaveMachine = true := by simp [mayLeaveMachine, hs.level]
  have hprevious : inside.csrs.status.mppLevel = before.level := hs.previousLevel
  have hpc : inside.csrs.epc .machine = before.pc.alignDown := hs.epc
  rw [mret, if_pos hmay]
  refine ⟨rfl, ?_⟩
  refine
    { level := hprevious
      enable := hs.enable
      pc := hpc
      aligned := (congrArg BitVec.toNat hpc).trans before.pc.toNat_alignDown
      registers := hs.registers
      reservation := hs.reservation
      previousEnable := rfl
      previousField := rfl
      mprv := ?_ }
  change (if inside.csrs.status.mppLevel = .machine then inside.csrs.status.mprv else false) = _
  rw [hprevious]
  split
  · rename_i hmachine
    exact hs.mprv hmachine
  · rfl

/-- No return from supervisor mode goes to machine mode. -/
theorem Suspended.level_ne_machine {before inside : Hart}
    (hs : Suspended before .supervisor inside) : before.level ≠ .machine := by
  rw [← hs.previousLevel]
  change (if inside.csrs.status.spp then Level.supervisor else .user) ≠ .machine
  split
  · exact Level.noConfusion
  · exact Level.noConfusion

theorem Suspended.resumed_sret {before inside : Hart}
    (hs : Suspended before .supervisor inside) (htsr : inside.csrs.status.tsr = false) :
    inside.sret.1 = .completed ∧ Resumed before .supervisor inside.sret.2 := by
  have hmay : inside.mayLeaveSupervisor = true := by simp [mayLeaveSupervisor, hs.level, htsr]
  have hpc : inside.csrs.epc .supervisor = before.pc.alignDown := hs.epc
  rw [sret, if_pos hmay]
  refine ⟨rfl, ?_⟩
  exact
    { level := hs.previousLevel
      enable := hs.enable
      pc := hpc
      aligned := (congrArg BitVec.toNat hpc).trans before.pc.toNat_alignDown
      registers := hs.registers
      reservation := hs.reservation
      previousEnable := rfl
      previousField := rfl
      mprv := by
        rw [if_neg hs.level_ne_machine]
        rfl }

theorem mret_trap {h : Hart} {c : Cause} (hm : h.handlerLevel c = .machine) :
    (h.trap c).mret.1 = .completed ∧ Resumed h .machine (h.trap c).mret.2 := by
  have hsuspended := h.suspended_trap c
  rw [hm] at hsuspended
  exact hsuspended.resumed_mret

theorem sret_trap {h : Hart} {c : Cause} (hs : h.handlerLevel c = .supervisor)
    (htsr : h.csrs.status.tsr = false) :
    (h.trap c).sret.1 = .completed ∧ Resumed h .supervisor (h.trap c).sret.2 := by
  have hsuspended := h.suspended_trap c
  rw [hs] at hsuspended
  exact hsuspended.resumed_sret ((h.tsr_trap c).trans htsr)

/-! ## Nesting -/

/-- What the return from supervisor mode needs, and what may forbid it. -/
structure SupervisorContextKept (before after : Hart) : Prop where
  epc : after.csrs.epc .supervisor = before.csrs.epc .supervisor
  spie : after.csrs.status.spie = before.csrs.status.spie
  spp : after.csrs.status.spp = before.csrs.status.spp
  tsr : after.csrs.status.tsr = before.csrs.status.tsr

theorem SupervisorContextKept.trans {a b c : Hart} (hab : SupervisorContextKept a b)
    (hbc : SupervisorContextKept b c) : SupervisorContextKept a c :=
  { epc := hbc.epc.trans hab.epc
    spie := hbc.spie.trans hab.spie
    spp := hbc.spp.trans hab.spp
    tsr := hbc.tsr.trans hab.tsr }

theorem supervisorContextKept_trap {h : Hart} {c : Cause} (hm : h.handlerLevel c = .machine) :
    SupervisorContextKept h (h.trap c) := by
  have hstatus : (h.trap c).csrs.status = h.csrs.status.enterMachine h.level := by
    rw [status_trap, hm]
    rfl
  exact
    { epc := sepc_trap_of_machine hm
      spie := by rw [hstatus]; rfl
      spp := by rw [hstatus]; rfl
      tsr := by rw [hstatus]; rfl }

theorem supervisorContextKept_mret (h : Hart) : SupervisorContextKept h h.mret.2 := by
  unfold mret
  split
  · exact ⟨rfl, rfl, rfl, rfl⟩
  · exact ⟨rfl, rfl, rfl, rfl⟩

/-- A trap of the supervisor's handler to machine mode keeps what the handler has suspended. -/
theorem Suspended.of_resumed {before inside after : Hart}
    (hs : Suspended before .supervisor inside) (hr : Resumed inside .machine after)
    (hkept : SupervisorContextKept inside after) : Suspended before .supervisor after :=
  { level := hr.level.trans hs.level
    epc := hkept.epc.trans hs.epc
    enable := hkept.spie.trans hs.enable
    previousLevel := by
      rw [← hs.previousLevel]
      exact congrArg (fun spp : Bool => if spp then Level.supervisor else .user) hkept.spp
    registers := fun r => (hr.registers r).trans (hs.registers r)
    reservation := hr.reservation.trans hs.reservation
    mprv := fun hmachine => absurd hmachine hs.level_ne_machine }

end Hart

namespace Machine

open Hart (Suspended Resumed)

variable {β : Type} [Bus β]

theorem execute_mret_eq (m : Machine β) (h : Hart) {mret : Instruction}
    (hop : mret.operation? = some (.imm .mret)) (hdone : h.mret.1 = .completed) :
    { m with hart := h }.execute mret = .ok (.completed, { m with hart := h.mret.2 }) := by
  rw [execute_mret _ hop, settle, hdone]

theorem execute_sret_eq (m : Machine β) (h : Hart) {sret : Instruction}
    (hop : sret.operation? = some (.imm .sret)) (hdone : h.sret.1 = .completed) :
    { m with hart := h }.execute sret = .ok (.completed, { m with hart := h.sret.2 }) := by
  rw [execute_sret _ hop, settle, hdone]

/--
A trap and the return of its handler bring back the level, the interrupt enable
bit, the program counter without its two low bits, the registers and the
reservation. So do a trap to supervisor mode, a trap of its handler to machine
mode and the two returns in reverse order; the first of them goes to the start
of the supervisor's handler.
-/
theorem return_restores_context (m : Machine β) {mret sret : Instruction}
    (hmret : mret.operation? = some (.imm .mret)) (hsret : sret.operation? = some (.imm .sret))
    (c : Cause) :
    (m.hart.handlerLevel c = .machine →
      ∃ back, { m with hart := m.hart.trap c }.execute mret =
          .ok (.completed, { m with hart := back }) ∧
        Resumed m.hart .machine back) ∧
    (m.hart.handlerLevel c = .supervisor → m.hart.csrs.status.tsr = false →
      ∃ back, { m with hart := m.hart.trap c }.execute sret =
          .ok (.completed, { m with hart := back }) ∧
        Resumed m.hart .supervisor back) ∧
    (∀ d, m.hart.handlerLevel c = .supervisor → (m.hart.trap c).handlerLevel d = .machine →
      ∃ handler, { m with hart := (m.hart.trap c).trap d }.execute mret =
          .ok (.completed, { m with hart := handler }) ∧
        Resumed (m.hart.trap c) .machine handler ∧
        handler.level = .supervisor ∧ handler.pc = m.hart.csrs.stvec.base ∧
        (m.hart.csrs.status.tsr = false →
          ∃ back, { m with hart := handler }.execute sret =
              .ok (.completed, { m with hart := back }) ∧
            Resumed m.hart .supervisor back)) := by
  refine ⟨?_, ?_, ?_⟩
  · intro hm
    obtain ⟨hdone, hresumed⟩ := Hart.mret_trap hm
    exact ⟨_, m.execute_mret_eq _ hmret hdone, hresumed⟩
  · intro hs htsr
    obtain ⟨hdone, hresumed⟩ := Hart.sret_trap hs htsr
    exact ⟨_, m.execute_sret_eq _ hsret hdone, hresumed⟩
  · intro d hs hd
    -- The handler is interrupted before its first instruction, so it resumes at its start.
    have houter := m.hart.suspended_trap c
    rw [hs] at houter
    obtain ⟨hdone, hhandler⟩ := Hart.mret_trap hd
    have hkept := (Hart.supervisorContextKept_trap hd).trans
      ((m.hart.trap c).trap d).supervisorContextKept_mret
    have hpc : (m.hart.trap c).pc = m.hart.csrs.stvec.base := by
      rw [Hart.pc_trap, hs]
      rfl
    refine ⟨_, m.execute_mret_eq _ hmret hdone, hhandler, hhandler.level.trans hs, ?_, ?_⟩
    · rw [hhandler.pc, hpc]
      exact (Word.alignDown_eq_self_iff _).mpr (TrapVector.isAligned_base _)
    · intro htsr
      have hback := houter.of_resumed hhandler hkept
      have hclear := hkept.tsr.trans ((m.hart.tsr_trap c).trans htsr)
      obtain ⟨hreturn, hresumed⟩ := hback.resumed_sret hclear
      exact ⟨_, m.execute_sret_eq _ hsret hreturn, hresumed⟩

def userExample : Machine Ram :=
  let hart := Hart.initial (defaultResetVector + 2) .trap 0
  { hart :=
      { hart with
        level := .user
        csrs := { hart.csrs with delegation := { hart.csrs.delegation with exceptions := 0x100 } } }
    bus := .empty }

/-- A delegated environment call, interrupted at once by the machine timer. -/
theorem return_restores_context_nested :
    (Instruction.trapReturn .machine).operation? = some (.imm .mret) ∧
      (Instruction.trapReturn .supervisor).operation? = some (.imm .sret) ∧
      ∃ handler back : Hart,
        { userExample with
            hart := (userExample.hart.trap (.exception .environmentCallFromUser)).trap
              (.interrupt .machineTimer) }.execute (Instruction.trapReturn .machine) =
            .ok (.completed, { userExample with hart := handler }) ∧
          { userExample with hart := handler }.execute (Instruction.trapReturn .supervisor) =
            .ok (.completed, { userExample with hart := back }) ∧
          Resumed userExample.hart .supervisor back := by
  have hmret : (Instruction.trapReturn .machine).operation? = some (.imm .mret) := by decide
  have hsret : (Instruction.trapReturn .supervisor).operation? = some (.imm .sret) := by decide
  obtain ⟨-, -, hnested⟩ := return_restores_context userExample hmret hsret
    (.exception .environmentCallFromUser)
  obtain ⟨handler, hfirst, -, -, -, hsecond⟩ :=
    hnested (.interrupt .machineTimer) (by decide) (by decide)
  obtain ⟨back, hreturn, hresumed⟩ := hsecond rfl
  exact ⟨hmret, hsret, handler, back, hfirst, hreturn, hresumed⟩

end Machine

end Rv32
