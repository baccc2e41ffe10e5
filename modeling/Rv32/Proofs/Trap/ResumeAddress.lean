import Rv32.Memory.Ram
import Rv32.Proofs.Csr.Access
import Rv32.Proofs.Csr.Legal
import Rv32.Proofs.Hart.Run
import Rv32.Proofs.Memory.Ram
import Rv32.Proofs.Trap.Return

/-! # Resume addresses over a run

A resume address is kept without its two low bits, and jumps go wherever they
are told to. The program counter is a multiple of four again as soon as
anything but a jump sets it: resets, handlers and returns all lead to aligned
addresses. So the address that a trap saves is that of the program counter
unless the last jump went astray.
-/

namespace Rv32

/-- Whether what has set the program counter led to an aligned address. -/
def Landing.IsAligned : Landing → Prop
  | .jump target => target.IsAligned
  | _ => True

instance : (l : Landing) → Decidable l.IsAligned
  | .jump target => inferInstanceAs (Decidable target.IsAligned)
  | .reset => .isTrue trivial
  | .handler => .isTrue trivial
  | .resumed => .isTrue trivial

namespace Hart

/-- The invariant of a run, where `last` has set the program counter last. -/
structure Tracked (h : Hart) (last : Landing) : Prop where
  resetVector : h.resetVector.IsAligned
  epc : h.csrs.Resumable
  pc : h.pc.IsAligned ↔ last.IsAligned

theorem tracked_reset {h : Hart} (hvector : h.resetVector.IsAligned) : Tracked h.reset .reset :=
  { resetVector := hvector
    epc := CsrBank.resumable_initial _
    pc := iff_of_true hvector trivial }

theorem resumable_trap {h : Hart} (hepc : h.csrs.Resumable) (c : Cause) :
    (h.trap c).csrs.Resumable := by
  intro level
  rw [epc_trap_eq]
  split
  · exact h.pc.isAligned_alignDown
  · exact hepc level

theorem Tracked.trap {h : Hart} {last : Landing} (ht : Tracked h last) (c : Cause) :
    Tracked (h.trap c) .handler :=
  { resetVector := ht.resetVector
    epc := resumable_trap ht.epc c
    pc := iff_of_true (TrapVector.isAligned_base _) trivial }

theorem Tracked.retire {h : Hart} {last : Landing} (ht : Tracked h last) :
    Tracked h.retire last :=
  ⟨ht.resetVector, ht.epc, ht.pc⟩

/-- The program counter has moved to the next instruction. -/
theorem Tracked.next {h after : Hart} {last : Landing} (ht : Tracked h last)
    (hvector : after.resetVector = h.resetVector) (hepc : after.csrs.Resumable)
    (hpc : after.pc = h.pc + 4) : Tracked after last := by
  refine { resetVector := ?_, epc := hepc, pc := ?_ }
  · rw [hvector]
    exact ht.resetVector
  · rw [hpc, Word.isAligned_add_four]
    exact ht.pc

/-- A completed instruction keeps the invariant, with the landing that it names. -/
theorem Tracked.completed {h after : Hart} {i : Instruction} {last : Landing}
    (ht : Tracked h last) (he : Effect h i .completed after) :
    Tracked after ((h.landing? i).getD last) := by
  cases he with
  | waited hnext hmip =>
      rw [hnext]
      exact ht
  | advanced hnext =>
      rw [hnext]
      exact ht.next rfl ht.epc rfl
  | wrote rd v hnext =>
      rw [hnext]
      exact ht.next rfl ht.epc (h.pc_writeBack rd v)
  | reserved x hi hop v =>
      subst hi
      exact ht.next rfl ht.epc (pc_writeBack _ x.rd v)
  | released x hi hop v =>
      subst hi
      exact ht.next rfl ht.epc (pc_writeBack _ x.rd v)
  | accessed rd n old value mask csrs hread hwrite hnext =>
      rw [hnext]
      obtain ⟨c, -, -, rfl⟩ := CsrBank.writeMasked_eq_ok hwrite
      exact ht.next rfl (CsrBank.resumable_update ht.epc c value mask) (h.pc_writeBack rd old)
  -- From here on the program counter has been set, and what it was before does not matter.
  | jumped target hjump =>
      rw [hjump]
      exact ⟨ht.resetVector, ht.epc, Iff.rfl⟩
  | linked rd target hjump =>
      rw [hjump]
      refine ⟨ht.resetVector, ht.epc, ?_⟩
      rw [pc_jumpAndLink]
      exact Iff.rfl
  | leftMachine hop hlevel =>
      rw [h.landing?_of_return (.inl hop)]
      exact ⟨ht.resetVector, ht.epc, iff_of_true (ht.epc .machine) trivial⟩
  | leftSupervisor hop hmay =>
      rw [h.landing?_of_return (.inr hop)]
      exact ⟨ht.resetVector, ht.epc, iff_of_true (ht.epc .supervisor) trivial⟩

end Hart

namespace Machine

open Hart (Tracked)

variable {β : Type} [Bus β]

theorem tracked_step (m : Machine β) {last : Landing} (ht : Tracked m.hart last) :
    Tracked m.step.2.hart (m.landing last .step) := by
  cases hattempt : m.attempt? with
  | none =>
      rw [hart_step_of_fatal hattempt]
      simp only [landing, hattempt]
      exact ht
  | some found =>
      obtain ⟨i, outcome, after⟩ := found
      have heffect := effect_of_attempt hattempt
      simp only [step_of_attempt hattempt, landing, hattempt]
      cases outcome with
      | completed => exact (ht.completed heffect).retire
      | raised x =>
          rw [heffect.eq_of_raised]
          exact ht.retire.trap _
      | exited v =>
          rw [heffect.eq_of_exited]
          exact ht.retire

theorem tracked_after (m : Machine β) {last : Landing} (ht : Tracked m.hart last) (e : Event β) :
    Tracked (m.after e).hart (m.landing last e) := by
  cases e with
  | step => exact m.tracked_step ht
  | interrupt =>
      cases hi : m.hart.nextInterrupt? with
      | none =>
          simp only [Machine.after, landing, Hart.takeInterrupt, hi, Option.isSome_none]
          exact ht
      | some i =>
          simp only [Machine.after, landing, Hart.takeInterrupt, hi, Option.isSome_some, if_true]
          exact ht.trap _
  | outside bus interrupts clock => exact ⟨ht.resetVector, ht.epc, ht.pc⟩
  | reset => exact Hart.tracked_reset ht.resetVector

theorem tracked_play (m : Machine β) {last : Landing} (ht : Tracked m.hart last)
    (es : List (Event β)) : Tracked (m.play es).hart (m.lastLanding last es) := by
  induction es generalizing m last with
  | nil => exact ht
  | cons e rest ih => exact ih (m.after e) (m.tracked_after ht e)

def savedPc (m : Machine β) (e : Event β) : Word :=
  (m.after e).hart.csrs.epc (m.after e).hart.level

theorem savedPc_of_trap {m : Machine β} {e : Event β} {h : Hart} {c : Cause}
    (htrap : m.trap? e = some (h, c)) : m.savedPc e = m.hart.pc.alignDown := by
  unfold savedPc
  rw [hart_after_of_trap htrap, Hart.level_trap, Hart.epc_trap, pc_of_trap htrap]

/--
Whenever a trap is taken in a run that starts at an aligned address, the resume
address saved is the program counter without its two low bits. It is the
program counter itself unless a jump to an address that is not aligned has set
it last. The matching return goes to the address saved.
-/
theorem resume_address_of_run (bus : β) {resetVector : Word} (ecallMode : EcallMode)
    (clock : DoubleWord) (hvector : resetVector.IsAligned) (es : List (Event β)) {e : Event β}
    {h : Hart} {c : Cause}
    (htrap : ((start bus resetVector ecallMode clock).play es).trap? e = some (h, c)) :
    let origin := start bus resetVector ecallMode clock
    let m := origin.play es
    let handler := (m.after e).hart
    handler = h.trap c ∧ h.pc = m.hart.pc ∧
      m.savedPc e = m.hart.pc.alignDown ∧
      (m.savedPc e = m.hart.pc ↔ (origin.lastLanding .reset es).IsAligned) ∧
      (handler.level = .machine →
        handler.mret.1 = .completed ∧ handler.mret.2.pc = m.savedPc e) ∧
      (handler.level = .supervisor → handler.csrs.status.tsr = false →
        handler.sret.1 = .completed ∧ handler.sret.2.pc = m.savedPc e) := by
  intro origin m handler
  have hstart : Tracked origin.hart .reset :=
    { resetVector := hvector
      epc := CsrBank.resumable_initial clock
      pc := iff_of_true hvector trivial }
  have htracked := origin.tracked_play hstart es
  have hhandler : handler = h.trap c := hart_after_of_trap htrap
  have hpc : h.pc = m.hart.pc := pc_of_trap htrap
  have hsaved : m.savedPc e = m.hart.pc.alignDown := savedPc_of_trap htrap
  refine ⟨hhandler, hpc, hsaved, ?_, ?_, ?_⟩
  · rw [hsaved, Word.alignDown_eq_self_iff]
    exact htracked.pc
  · intro hlevel
    rw [hhandler] at hlevel ⊢
    obtain ⟨hdone, hresumed⟩ := Hart.mret_trap hlevel
    rw [hsaved, ← hpc]
    exact ⟨hdone, hresumed.pc⟩
  · intro hlevel htsr
    rw [hhandler] at hlevel htsr ⊢
    rw [Hart.tsr_trap] at htsr
    obtain ⟨hdone, hresumed⟩ := Hart.sret_trap hlevel htsr
    rw [hsaved, ← hpc]
    exact ⟨hdone, hresumed.pc⟩

/-! ## A jump that goes astray -/

/-- A jump by six bytes, and the environment call that stands there. -/
def strayProgram : List Byte :=
  leBytes 4 (0x0060006F : Word) ++ leBytes 4 (0x00730000 : Word) ++ leBytes 4 (0 : Word)

def strayMemory : Ram :=
  Ram.empty.write defaultResetVector strayProgram

def strayJump : Machine Ram :=
  start strayMemory defaultResetVector .trap 0

def strayCall : Machine Ram :=
  { hart := (strayJump.hart.jumpAndLink Register.zero (defaultResetVector + 6)).retire
    bus := strayMemory }

theorem fetch_strayMemory {h : Hart} {k : Nat}
    (hpc : h.pc = defaultResetVector + BitVec.ofNat 32 k) (hk : k + 4 ≤ strayProgram.length) :
    (Machine.fetch { hart := h, bus := strayMemory }).1 =
      ofLeBytes 32 ((strayProgram.drop k).take 4) :=
  congrArg Prod.fst (fetch_program hpc hk (by decide) .empty)

theorem attempt?_strayJump :
    strayJump.attempt? =
      some (.j ⟨Opcode.jal, Register.zero, 6⟩, .completed,
        { strayJump with
          hart := strayJump.hart.jumpAndLink Register.zero (defaultResetVector + 6) }) := by
  have hfetch : strayJump.fetch.1 = 0x0060006F := fetch_strayMemory (k := 0) rfl (by decide)
  rw [attempt?_eq_some, hfetch]
  exact ⟨rfl, rfl⟩

theorem after_strayJump : strayJump.after .step = strayCall := by
  simp only [Machine.after, step_of_attempt attempt?_strayJump]
  rfl

theorem landing_strayJump :
    strayJump.landing .reset .step = .jump (defaultResetVector + 6) := by
  simp only [landing, attempt?_strayJump]
  rfl

theorem trap?_strayCall :
    strayCall.trap? .step =
      some (strayCall.hart.retire, .exception .environmentCallFromMachine) := by
  have hfetch : strayCall.fetch.1 = 0x73 := fetch_strayMemory (k := 6) rfl (by decide)
  have hattempt : strayCall.attempt? =
      some (.i ⟨Opcode.system, Register.zero, 0, Register.zero, 0⟩,
        .raised .environmentCallFromMachine, strayCall) := by
    rw [attempt?_eq_some, hfetch]
    exact ⟨rfl, rfl⟩
  simp only [trap?, hattempt]

theorem resume_address_of_run_astray :
    defaultResetVector.IsAligned ∧
      (strayJump.play [.step]).trap? .step =
        some (strayCall.hart.retire, .exception .environmentCallFromMachine) ∧
      (strayJump.play [.step]).savedPc .step = defaultResetVector + 4 ∧
      (strayJump.play [.step]).savedPc .step ≠ (strayJump.play [.step]).hart.pc := by
  have hvector : defaultResetVector.IsAligned := by decide
  have hplay : strayJump.play [.step] = strayCall := after_strayJump
  have htrap : (strayJump.play [.step]).trap? .step =
      some (strayCall.hart.retire, .exception .environmentCallFromMachine) := by
    rw [hplay]
    exact trap?_strayCall
  have hastray : ¬ (strayJump.lastLanding .reset [.step]).IsAligned := by
    change ¬ (strayJump.landing .reset .step).IsAligned
    rw [landing_strayJump]
    decide
  obtain ⟨-, -, hsaved, hexact, -, -⟩ :=
    resume_address_of_run strayMemory .trap 0 hvector [.step] htrap
  refine ⟨hvector, htrap, ?_, fun heq => hastray (hexact.mp heq)⟩
  refine hsaved.trans ?_
  change (strayJump.play [.step]).hart.pc.alignDown = _
  rw [hplay]
  decide

theorem not_always_resumed_at_pc :
    ¬ ∀ (bus : Ram) (resetVector : Word) (ecallMode : EcallMode) (clock : DoubleWord)
        (es : List (Event Ram)) (e : Event Ram) (h : Hart) (c : Cause),
      resetVector.IsAligned →
      ((start bus resetVector ecallMode clock).play es).trap? e = some (h, c) →
      ((start bus resetVector ecallMode clock).play es).savedPc e = h.pc := by
  intro hall
  have htrap : (strayJump.play [.step]).trap? .step =
      some (strayCall.hart.retire, .exception .environmentCallFromMachine) := by
    rw [show strayJump.play [.step] = strayCall from after_strayJump]
    exact trap?_strayCall
  have hequal := hall strayMemory defaultResetVector .trap 0 [.step] .step _ _ (by decide) htrap
  have hsaved := savedPc_of_trap htrap
  have hpc := pc_of_trap htrap
  have haligned : (strayJump.play [.step]).hart.pc.IsAligned := by
    rw [← Word.alignDown_eq_self_iff, ← hsaved, ← hpc]
    exact hequal
  rw [show strayJump.play [.step] = strayCall from after_strayJump] at haligned
  exact absurd haligned (by decide)

end Machine

end Rv32
