import Rv32.Proofs.Csr.Aliasing
import Rv32.Proofs.DoubleWord
import Rv32.Proofs.Hart.Run

/-! # The step counter

A hart has one counter of sixty-four bits, which software sees under four names
and in two halves. A step that is not fatal adds one to it, whether or not its
instruction raises an exception, and nothing else adds to it. An instruction
that writes a half of the counter does so before its own step is counted.
-/

namespace Rv32

/-! ## The registers that show the counter -/

inductive CounterView where
  | cycle
  | instret
  | mcycle
  | minstret
  deriving DecidableEq, Repr

namespace CounterView

def register : CounterView → Half → Csr
  | cycle, .low => .cycle
  | cycle, .high => .cycleh
  | instret, .low => .instret
  | instret, .high => .instreth
  | mcycle, .low => .mcycle
  | mcycle, .high => .mcycleh
  | minstret, .low => .minstret
  | minstret, .high => .minstreth

def isWritable : CounterView → Bool
  | cycle => false
  | instret => false
  | mcycle => true
  | minstret => true

variable (v : CounterView) (half : Half)

theorem value_register (b : CsrBank) : b.value (v.register half) = b.retired.half half := by
  cases v <;> cases half <;> rfl

theorem isReadOnly_register : (v.register half).number.isReadOnly = !v.isWritable := by
  cases v <;> cases half <;> rfl

/-- The names that can be written are those of machine mode. -/
theorem requiredLevel_register :
    (v.register half).number.requiredLevel = if v.isWritable then .machine else .user := by
  cases v <;> cases half <;> rfl

theorem update_register (hv : v.isWritable = true) (b : CsrBank) (value mask : Word) :
    b.update (v.register half) value mask =
      { b with retired := CsrBank.mergeHalf b.retired half value mask } := by
  cases v with
  | cycle => cases hv
  | instret => cases hv
  | mcycle => cases half <;> rfl
  | minstret => cases half <;> rfl

/-- A read that is not refused gives the half of the counter, whatever the level. -/
theorem eq_half_of_read {b : CsrBank} {level : Level} {w : Word}
    (h : b.read (v.register half).number level = .ok w) : w = b.retired.half half := by
  obtain ⟨c, hc, rfl⟩ := CsrBank.read_eq_ok_iff.mp h
  obtain rfl : c = v.register half := Csr.number_injective (CsrBank.access_eq_ok_iff.mp hc).1
  exact v.value_register half b

/-- The two halves make up the counter. -/
theorem read_register (b : CsrBank) :
    ∃ high low, b.read (v.register .high).number .machine = .ok high ∧
      b.read (v.register .low).number .machine = .ok low ∧
      high.toNat * 2 ^ 32 + low.toNat = b.retired.toNat := by
  refine ⟨_, _, b.read_machine _, b.read_machine _, ?_⟩
  rw [value_register, value_register]
  exact b.retired.toNat_halves

/-- What a write has passed that is not refused, and what it has done. -/
theorem writeMasked_register_iff (b after : CsrBank) (value mask : Word) (level : Level) :
    b.writeMasked (v.register half).number value mask level = .ok after ↔
      (level = .machine ∧ v.isWritable = true) ∧
        after = { b with retired := CsrBank.mergeHalf b.retired half value mask } := by
  constructor
  · intro h
    obtain ⟨c, hc, hwritable, rfl⟩ := CsrBank.writeMasked_eq_ok_iff.mp h
    obtain ⟨hn, hmay⟩ := CsrBank.access_eq_ok_iff.mp hc
    obtain rfl : c = v.register half := Csr.number_injective hn
    rw [isReadOnly_register, Bool.not_eq_false'] at hwritable
    have hlevel := hmay.privileged
    rw [← CsrNumber.rank_requiredLevel, requiredLevel_register, hwritable] at hlevel
    refine ⟨⟨?_, hwritable⟩, v.update_register half hwritable b value mask⟩
    cases level with
    | machine => rfl
    | user => exact absurd hlevel (by decide)
    | supervisor => exact absurd hlevel (by decide)
  · rintro ⟨⟨rfl, hwritable⟩, rfl⟩
    rw [b.writeMasked_machine (by rw [isReadOnly_register, hwritable]; rfl),
      v.update_register half hwritable]

end CounterView

/-! ## Writes of halves -/

namespace CsrBank

/-- A masked write replaces the selected bits of its half and nothing else. -/
theorem getLsbD_half_mergeHalf (v : DoubleWord) (half other : Half) (value mask : Word) (k : Nat) :
    (DoubleWord.half (mergeHalf v half value mask) other).getLsbD k =
      if other = half ∧ mask.getLsbD k = true then value.getLsbD k
      else (v.half other).getLsbD k := by
  unfold mergeHalf
  rw [DoubleWord.half_withHalf]
  by_cases h : half = other
  · subst h
    rw [if_pos rfl, Word.getLsbD_merge]
    simp
  · rw [if_neg h, if_neg fun hboth => h hboth.1.symm]

end CsrBank

structure CounterWrite where
  half : Half
  value : Word
  mask : Word
  deriving DecidableEq, Repr

def CounterWrite.applied (v : DoubleWord) : Option CounterWrite → DoubleWord
  | some w => CsrBank.mergeHalf v w.half w.value w.mask
  | none => v

/-- The half of the counter to which a write of the register goes, if it goes to the counter. -/
def Csr.counterHalf? : Csr → Option Half
  | mcycle => some .low
  | minstret => some .low
  | mcycleh => some .high
  | minstreth => some .high
  | _ => none

theorem Csr.counterHalf?_of_isReadOnly {c : Csr} (h : c.number.isReadOnly = true) :
    c.counterHalf? = none := by
  cases c with
  | _ => first | rfl | exact absurd h (by decide)

theorem CsrBank.retired_update (b : CsrBank) (c : Csr) (value mask : Word) :
    (b.update c value mask).retired =
      CounterWrite.applied b.retired (c.counterHalf?.map fun half => ⟨half, value, mask⟩) := by
  cases c <;> rfl

namespace Hart

/-- The write to the counter that a control register access makes, if it is allowed to. -/
def counterAccess? (h : Hart) (x : IType) (action : CsrAction) (operand : CsrOperand) :
    Option CounterWrite :=
  match h.csrs.access (x.csr.setWidth 16) h.level,
      csrWrite? action (h.csrOperand x operand) (decide (x.rs1 = Register.zero)) with
  | .ok c, some (value, mask) => c.counterHalf?.map fun half => ⟨half, value, mask⟩
  | _, _ => none

def counterWrite? (h : Hart) : Instruction → Option CounterWrite
  | .i x =>
      match x.operation? with
      | some (.csr action operand) => h.counterAccess? x action operand
      | _ => none
  | _ => none

/-! ## One instruction -/

theorem retired_executeCsr (h : Hart) (x : IType) (action : CsrAction) (operand : CsrOperand) :
    (h.executeCsr x action operand).2.csrs.retired =
      CounterWrite.applied h.csrs.retired (h.counterAccess? x action operand) := by
  unfold executeCsr accessCsr counterAccess? CsrBank.read CsrBank.writeMasked
  cases hc : h.csrs.access (x.csr.setWidth 16) h.level with
  | error e => rfl
  | ok c =>
      cases csrWrite? action (h.csrOperand x operand) (decide (x.rs1 = Register.zero)) with
      | none => rfl
      | some write =>
          obtain ⟨value, mask⟩ := write
          have hn := (CsrBank.access_eq_ok_iff.mp hc).1
          rw [← hn]
          cases hro : c.number.isReadOnly with
          | true =>
              have hother := Csr.counterHalf?_of_isReadOnly hro
              simp only [if_true, hother, Option.map_none]
              rfl
          | false => exact h.csrs.retired_update c value mask

end Hart

namespace Machine

variable {β : Type} [Bus β]

theorem retired_executeReg (m : Machine β) (x : RType) (op : RegOp) :
    (m.executeReg x op).2.hart.csrs.retired = m.hart.csrs.retired := by
  cases op with
  | storeConditional =>
      simp only [executeReg, storeConditional]
      split <;> rfl
  | _ => rfl

theorem retired_executeImm (m : Machine β) {x : IType} {op : ImmOp} (hop : x.operation? = some op) :
    (m.executeImm x op).2.hart.csrs.retired =
      CounterWrite.applied m.hart.csrs.retired (m.hart.counterWrite? (.i x)) := by
  simp only [Hart.counterWrite?, hop]
  cases op with
  | csr action operand => exact m.hart.retired_executeCsr x action operand
  | ecall =>
      simp only [executeImm, settle, Hart.ecall]
      split <;> rfl
  | sret =>
      simp only [executeImm, settle, Hart.sret]
      split <;> rfl
  | mret =>
      simp only [executeImm, settle, Hart.mret]
      split <;> rfl
  | wfi =>
      simp only [executeImm, settle, Hart.wfi]
      split
      · rfl
      · split <;> rfl
  | _ => rfl

/-- Whatever an instruction comes to, the counter is as before but for a write to it. -/
theorem retired_of_execute {m after : Machine β} {i : Instruction} {outcome : Outcome}
    (h : m.execute i = .ok (outcome, after)) :
    after.hart.csrs.retired =
      CounterWrite.applied m.hart.csrs.retired (m.hart.counterWrite? i) := by
  refine execute_cases (P := fun i r => r.2.hart.csrs.retired =
      CounterWrite.applied m.hart.csrs.retired (m.hart.counterWrite? i))
    ?reg ?imm ?store ?branch ?upper ?jump ?fence h
  case reg => exact fun x op _ => m.retired_executeReg x op
  case imm => exact fun x op hop => m.retired_executeImm hop
  case store => exact fun x op _ => rfl
  case branch =>
    intro x op _
    unfold executeBranch
    split <;> rfl
  case upper =>
    intro x op _
    cases op <;> rfl
  case jump =>
    intro x op _
    cases op with
    | jal => rfl
  case fence =>
    intro x op _
    cases op <;> rfl

/-! ## One event -/

/-- Whether the event is a step that is counted: one that is not fatal. -/
def counts (m : Machine β) : Event β → Bool
  | .step =>
      match m.step.1 with
      | .fatal _ => false
      | _ => true
  | _ => false

/-- Whether the event neither resets the counter nor has an instruction write it. -/
def Spares (m : Machine β) : Event β → Prop
  | .step => ∀ i outcome after, m.attempt? = some (i, outcome, after) →
      m.hart.counterWrite? i = none
  | .reset => False
  | _ => True

theorem exists_fatal_of_attempt?_eq_none {m : Machine β} (h : m.attempt? = none) :
    ∃ f, m.step.1 = .fatal f := by
  have hpc : m.fetch.2.hart.pc = m.hart.pc := rfl
  cases hi : instructionAt m.hart.pc m.fetch.1 with
  | error f => exact ⟨f, by simp only [step, dispatch, hpc, hi]⟩
  | ok i =>
      cases hexec : m.fetch.2.execute i with
      | error source =>
          exact ⟨.decode m.hart.pc source, by simp only [step, dispatch, hpc, hi, hexec]⟩
      | ok result => simp [attempt?, hi, hexec] at h

/-- Exactly the steps are counted that have executed an instruction. -/
theorem counts_step (m : Machine β) : m.counts .step = m.attempt?.isSome := by
  cases hattempt : m.attempt? with
  | none =>
      obtain ⟨f, hf⟩ := exists_fatal_of_attempt?_eq_none hattempt
      simp only [counts, hf, Option.isSome_none]
  | some found =>
      obtain ⟨i, outcome, after⟩ := found
      simp only [counts, step_of_attempt hattempt, Option.isSome_some]
      cases outcome <;> rfl

/-- A step that is counted adds one to what its instruction has left in the counter. -/
theorem retired_step_of_attempt {m after : Machine β} {i : Instruction} {outcome : Outcome}
    (hattempt : m.attempt? = some (i, outcome, after)) :
    m.step.2.hart.csrs.retired =
      CounterWrite.applied m.hart.csrs.retired (m.hart.counterWrite? i) + 1 := by
  have hwritten := retired_of_execute (attempt?_eq_some.mp hattempt).2
  rw [hart_fetch] at hwritten
  rw [step_of_attempt hattempt, ← hwritten]
  cases outcome <;> rfl

theorem retired_after_of_spares {m : Machine β} {e : Event β} (hspares : m.Spares e) :
    (m.after e).hart.csrs.retired = m.hart.csrs.retired + BitVec.ofNat 64 (m.counts e).toNat := by
  cases e with
  | step =>
      rw [counts_step]
      cases hattempt : m.attempt? with
      | none =>
          change m.step.2.hart.csrs.retired = _
          rw [hart_step_of_fatal hattempt]
          exact (BitVec.add_zero _).symm
      | some found =>
          obtain ⟨i, outcome, after⟩ := found
          change m.step.2.hart.csrs.retired = _
          rw [retired_step_of_attempt hattempt, hspares i outcome after hattempt]
          rfl
  | interrupt =>
      have hkept : m.hart.takeInterrupt.2.csrs.retired = m.hart.csrs.retired :=
        Hart.takeInterrupt_of_trap (P := fun h => h.csrs.retired = m.hart.csrs.retired) rfl
          fun _ => rfl
      exact hkept.trans (BitVec.add_zero _).symm
  | outside bus interrupts clock => exact (BitVec.add_zero _).symm
  | reset => exact hspares.elim

/-! ## Runs -/

def stepsCounted (m : Machine β) : List (Event β) → Nat
  | [] => 0
  | e :: rest => (m.counts e).toNat + (m.after e).stepsCounted rest

def SparesCounter (m : Machine β) : List (Event β) → Prop
  | [] => True
  | e :: rest => m.Spares e ∧ (m.after e).SparesCounter rest

theorem retired_play {m : Machine β} {es : List (Event β)} (hspares : m.SparesCounter es) :
    (m.play es).hart.csrs.retired =
      m.hart.csrs.retired + BitVec.ofNat 64 (m.stepsCounted es) := by
  induction es generalizing m with
  | nil => exact (BitVec.add_zero _).symm
  | cons e rest ih =>
      rw [play, ih hspares.2, retired_after_of_spares hspares.1, stepsCounted, BitVec.add_assoc,
        ← BitVec.ofNat_add]

/--
Unless an instruction writes the counter or a reset clears it, every step of a
run that is not fatal adds one to it, modulo 2^64, and nothing else does. Under
each of its names the counter is read as the two halves that make it up. Two of
the names can be written, in machine mode, and a masked write replaces the
selected bits of one half and changes nothing else in the bank.
-/
theorem steps_counted :
    (∀ (m : Machine β) (es : List (Event β)), m.SparesCounter es →
      (m.play es).hart.csrs.retired.toNat =
        (m.hart.csrs.retired.toNat + m.stepsCounted es) % 2 ^ 64) ∧
      (∀ (b : CsrBank) (v : CounterView),
        (∃ high low, b.read (v.register .high).number .machine = .ok high ∧
          b.read (v.register .low).number .machine = .ok low ∧
          high.toNat * 2 ^ 32 + low.toNat = b.retired.toNat) ∧
        ∀ half level w, b.read (v.register half).number level = .ok w → w = b.retired.half half) ∧
      ∀ (b : CsrBank) (v : CounterView) half value mask level,
        ((∃ after, b.writeMasked (v.register half).number value mask level = .ok after) ↔
          level = .machine ∧ v.isWritable = true) ∧
        ∀ after, b.writeMasked (v.register half).number value mask level = .ok after →
          after = { b with retired := after.retired } ∧
            ∀ other k, (after.retired.half other).getLsbD k =
              if other = half ∧ mask.getLsbD k = true then value.getLsbD k
              else (b.retired.half other).getLsbD k := by
  refine ⟨?runs, ?reads, ?writes⟩
  case runs =>
    intro m es hspares
    rw [retired_play hspares, BitVec.toNat_add, BitVec.toNat_ofNat, Nat.add_mod_mod]
  case reads => exact fun b v => ⟨v.read_register b, fun half level w => v.eq_half_of_read half⟩
  case writes =>
    intro b v half value mask level
    have hiff (after : CsrBank) := v.writeMasked_register_iff half b after value mask level
    refine ⟨⟨fun ⟨after, h⟩ => ((hiff after).mp h).1, fun h => ⟨_, (hiff _).mpr ⟨h, rfl⟩⟩⟩, ?_⟩
    intro after h
    obtain ⟨-, rfl⟩ := (hiff after).mp h
    exact ⟨rfl, fun other k => CsrBank.getLsbD_half_mergeHalf b.retired half other value mask k⟩

/-! ## A carry between the halves -/

/-- A read of the counter, an environment call, and no instruction. -/
def carryProgram : List Byte :=
  leBytes 4 (0xC00022F3 : Word) ++ leBytes 4 (0x00000073 : Word) ++ leBytes 4 (0 : Word)

/-- A machine about to run it, with all ones in the low half. Traps lead to the end. -/
def carryStart : Machine Ram :=
  { hart :=
      { Hart.initial defaultResetVector .trap 0 with
        csrs :=
          { CsrBank.initial 0 with
            retired := 0xFFFFFFFF
            mtvec := .ofBase (defaultResetVector + 8) .direct } }
    bus := Ram.empty.write defaultResetVector carryProgram }

def carryRead : Machine Ram :=
  { carryStart with hart := (carryStart.hart.writeBack 5 0xFFFFFFFF).retire }

def carryCalled : Machine Ram :=
  { carryStart with
    hart := carryRead.hart.retire.trap (.exception .environmentCallFromMachine) }

theorem attempt?_carryStart :
    carryStart.attempt? = some (.i ⟨Opcode.system, 5, 2, 0, 0xFFFFFC00⟩, .completed,
      { carryStart with hart := carryStart.hart.writeBack 5 0xFFFFFFFF }) := by
  have hfetch : carryStart.fetch = (0xC00022F3, carryStart) :=
    fetch_program (k := 0) rfl (by decide) (by decide) .empty
  rw [attempt?_eq_some, hfetch]
  exact ⟨rfl, rfl⟩

theorem attempt?_carryRead :
    carryRead.attempt? = some (.i ⟨Opcode.system, 0, 0, 0, 0⟩,
      .raised .environmentCallFromMachine, carryRead) := by
  have hfetch : carryRead.fetch = (0x00000073, carryRead) :=
    fetch_program (k := 4) rfl (by decide) (by decide) .empty
  rw [attempt?_eq_some, hfetch]
  exact ⟨rfl, rfl⟩

theorem attempt?_carryCalled : carryCalled.attempt? = none := by
  have hfetch : carryCalled.fetch = (0, carryCalled) :=
    fetch_program (k := 8) rfl (by decide) (by decide) .empty
  unfold attempt?
  rw [hfetch]
  rfl

/-- Two of the three steps are counted, one of them with a trap. -/
theorem steps_counted_carry :
    carryStart.SparesCounter [.step, .step, .step] ∧
      carryStart.stepsCounted [.step, .step, .step] = 2 ∧
      (carryStart.play [.step, .step, .step]).hart.csrs.retired = 0x100000001 ∧
      ∃ after, carryStart.hart.csrs.writeMasked 0xB80 0x77 0xF0 .machine = .ok after ∧
        (after.retired.half .high).getLsbD 4 = true ∧
        (after.retired.half .high).getLsbD 0 = false := by
  have hread : carryStart.after .step = carryRead := by
    simp only [Machine.after, step_of_attempt attempt?_carryStart]
    rfl
  have hcalled : carryRead.after .step = carryCalled := by
    simp only [Machine.after, step_of_attempt attempt?_carryRead]
    rfl
  have hspares : carryStart.SparesCounter [.step, .step, .step] := by
    refine ⟨?_, ?_, ?_, trivial⟩
    · intro i outcome after h
      cases attempt?_carryStart.symm.trans h
      rfl
    · rw [hread]
      intro i outcome after h
      cases attempt?_carryRead.symm.trans h
      rfl
    · rw [hread, hcalled]
      intro i outcome after h
      cases attempt?_carryCalled.symm.trans h
  have hcounted : carryStart.stepsCounted [.step, .step, .step] = 2 := by
    simp only [stepsCounted, hread, hcalled, counts_step, attempt?_carryStart, attempt?_carryRead,
      attempt?_carryCalled]
    rfl
  obtain ⟨hruns, -, hwrites⟩ := steps_counted (β := Ram)
  obtain ⟨-, hmasked⟩ := hwrites carryStart.hart.csrs .mcycle .high 0x77 0xF0 .machine
  obtain ⟨-, hbits⟩ := hmasked _ rfl
  refine ⟨hspares, hcounted, ?_, _, rfl, hbits .high 4, hbits .high 0⟩
  apply BitVec.eq_of_toNat_eq
  rw [hruns carryStart _ hspares, hcounted]
  rfl

end Machine

end Rv32
