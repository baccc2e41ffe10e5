import Rv32.Proofs.Word
import Rv32.Trap.Interrupts

/-! # The bits of the pending register

The register shows one bit for every interrupt, and nothing else. A write
through the supervisor's view reaches the software interrupt of the supervisor
if that is delegated, and no other bit.
-/

namespace Rv32

namespace Interrupts

@[simp] theorem getLsbD_mip_code (s : Interrupts) (i : Interrupt) :
    s.mip.getLsbD i.code = s.isPending i := by
  cases i <;>
    simp only [mip, Interrupt.code, isPending, BitVec.getLsbD_setWidth, BitVec.getLsbD_append,
      BitVec.getLsbD_ofBool, Nat.reduceLT, Nat.reduceSub, if_true, if_false, decide_true,
      Bool.true_and]

theorem getLsbD_mip_of_ne_code (s : Interrupts) {k : Nat} (hk : ∀ i : Interrupt, i.code ≠ k) :
    s.mip.getLsbD k = false := by
  by_cases hlow : k < 12
  · have h1 := hk .supervisorSoftware
    have h3 := hk .machineSoftware
    have h5 := hk .supervisorTimer
    have h7 := hk .machineTimer
    have h9 := hk .supervisorExternal
    have h11 := hk .machineExternal
    simp only [Interrupt.code] at h1 h3 h5 h7 h9 h11
    obtain rfl | rfl | rfl | rfl | rfl | rfl :
        k = 0 ∨ k = 2 ∨ k = 4 ∨ k = 6 ∨ k = 8 ∨ k = 10 := by omega
    all_goals
      simp only [mip, BitVec.getLsbD_setWidth, BitVec.getLsbD_append, Nat.reduceLT, Nat.reduceSub,
        if_true, if_false, decide_true, Bool.true_and]
      rfl
  · rw [mip, BitVec.getLsbD_setWidth, BitVec.getLsbD_of_ge _ _ (by omega), Bool.and_false]

/-- The register is the set of the pending interrupts. -/
theorem getLsbD_mip_congr {s t : Interrupts} {k : Nat}
    (h : ∀ i : Interrupt, i.code = k → t.isPending i = s.isPending i) :
    t.mip.getLsbD k = s.mip.getLsbD k := by
  by_cases hk : ∃ i : Interrupt, i.code = k
  · obtain ⟨i, rfl⟩ := hk
    simp only [getLsbD_mip_code, h i rfl]
  · have hne : ∀ i : Interrupt, i.code ≠ k := fun i hi => hk ⟨i, hi⟩
    rw [getLsbD_mip_of_ne_code t hne, getLsbD_mip_of_ne_code s hne]

theorem isPending_of_mip_eq_zero {s : Interrupts} (h : s.mip = 0) (i : Interrupt) :
    s.isPending i = false := by
  rw [← getLsbD_mip_code, h]
  exact BitVec.getLsbD_zero

/-- With nothing pending no interrupt is due, whatever is enabled. -/
theorem next?_eq_none_of_mip_eq_zero {s : Interrupts} (h : s.mip = 0) (level : Level)
    (status : Status) (d : Delegation) : s.next? level status d = none := by
  unfold next?
  rw [List.find?_eq_none]
  intro i _
  simp [isDue, isPending_of_mip_eq_zero h]

theorem isPending_of_next? {s : Interrupts} {level : Level} {status : Status} {d : Delegation}
    {i : Interrupt} (h : s.next? level status d = some i) : s.isPending i = true := by
  have hdue : s.isDue level status d i = true := List.find?_some h
  simp only [isDue, Bool.and_eq_true] at hdue
  exact hdue.1.1

/-! ## Interrupts that are taken -/

theorem isPending_clearPending_self (s : Interrupts) (i : Interrupt) :
    (s.clearPending i).isPending i = false := by
  cases i <;> rfl

theorem isPending_clearPending_of_ne (s : Interrupts) {i j : Interrupt} (h : i ≠ j) :
    (s.clearPending i).isPending j = s.isPending j := by
  cases i <;> cases j <;> first | rfl | exact absurd rfl h

/-! ## Writes of the supervisor -/

theorem getLsbD_sip_mask (mask : Word) (d : Delegation) (i : Nat) :
    (mask &&& d.interrupts &&& supervisorPendingMask).getLsbD i =
      (mask.getLsbD i && d.interrupts.getLsbD i && decide (i = 1)) := by
  have hmask : supervisorPendingMask = BitVec.twoPow 32 1 := by decide
  simp only [BitVec.getLsbD_and, hmask, BitVec.getLsbD_twoPow]
  by_cases hi : i = 1
  · simp [hi]
  · simp [hi, Ne.symm hi]

theorem writeSip_eq (s : Interrupts) (value mask : Word) (d : Delegation) :
    s.writeSip value mask d =
      { s with
        ssip :=
          if mask.getLsbD 1 && d.delegatesInterrupt .supervisorSoftware then value.getLsbD 1
          else s.ssip } := by
  simp only [writeSip, writeMip, getLsbD_sip_mask, Delegation.delegatesInterrupt, Interrupt.code]
  simp

theorem isPending_writeSip (s : Interrupts) (value mask : Word) (d : Delegation) {i : Interrupt}
    (hi : i = .supervisorSoftware → d.delegatesInterrupt i = false) :
    (s.writeSip value mask d).isPending i = s.isPending i := by
  rw [writeSip_eq]
  cases i with
  | supervisorSoftware => simp [isPending, hi rfl]
  | _ => rfl

/-- The supervisor enables and disables delegated interrupts only. -/
theorem getLsbD_mie_writeSie (s : Interrupts) (value mask : Word) {d : Delegation} {k : Nat}
    (hk : d.interrupts.getLsbD k = false) :
    (s.writeSie value mask d).mie.getLsbD k = s.mie.getLsbD k := by
  have hmask : (mask &&& d.interrupts &&& enableMask).getLsbD k = false := by
    simp only [BitVec.getLsbD_and, hk, Bool.and_false, Bool.false_and]
  rw [writeSie, writeMie, Word.getLsbD_merge, hmask]
  rfl

end Interrupts

end Rv32
