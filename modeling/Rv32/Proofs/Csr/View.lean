import Rv32.Proofs.Csr.PartialWrite
import Rv32.Proofs.Csr.StatusBits

/-! # The supervisor's views as lenses

Three registers of the supervisor show a part of a register of machine mode: the
fields of the status register that concern it, and of the interrupts those that
are delegated. What is read is the part, what is written stays within the part,
and what has been written is read back where the register takes it.
-/

namespace Rv32

/-! ## Bits of masked writes -/

namespace Status

variable {s : Status} {mask : Word} {k : Nat}

/-- Of the bits that the mask leaves out a write changes the summary bit alone. -/
theorem Legal.getLsbD_pack_write_of_clear (hs : s.Legal) (value : Word)
    (hclear : mask.getLsbD k = false) (hk : k ≠ 31) :
    (s.write value mask).pack.getLsbD k = s.pack.getLsbD k := by
  by_cases hfixed : k ∈ [6, 15, 16, 31]
  · have hube : (s.write value mask).ube = s.ube := hs.ube.symm
    have hxs : (s.write value mask).xs = s.xs := hs.xs.symm
    rw [getLsbD_pack, getLsbD_pack]
    simp only [List.mem_cons, List.not_mem_nil, or_false] at hfixed
    rcases hfixed with rfl | rfl | rfl | rfl
    · exact hube
    · exact congrArg (fun x => x.bits.getLsbD 0) hxs
    · exact congrArg (fun x => x.bits.getLsbD 1) hxs
    · exact absurd rfl hk
  · exact s.getLsbD_pack_write_of_clear value hclear hfixed

end Status

/-- The supervisor writes one bit of what is pending, if that is delegated. -/
theorem Interrupts.getLsbD_mip_writeSip (s : Interrupts) (value mask : Word) (d : Delegation)
    (k : Nat) :
    (s.writeSip value mask d).mip.getLsbD k =
      if k = 1 ∧ mask.getLsbD 1 = true ∧ d.interrupts.getLsbD 1 = true then value.getLsbD 1
      else s.mip.getLsbD k := by
  by_cases hk : k = 1
  · subst hk
    have hbit (t : Interrupts) : t.mip.getLsbD 1 = t.ssip :=
      t.getLsbD_mip_code .supervisorSoftware
    rw [hbit, hbit, writeSip_eq]
    simp [Delegation.delegatesInterrupt, Interrupt.code]
  · rw [if_neg fun h => hk h.1]
    refine getLsbD_mip_congr fun i hi => ?_
    refine s.isPending_writeSip value mask d ?_
    rintro rfl
    exact absurd hi.symm hk

/-! ## The views -/

inductive CsrView where
  | status
  | enabled
  | pending
  deriving DecidableEq, Repr

namespace CsrView

def register : CsrView → Csr
  | status => .sstatus
  | enabled => .sie
  | pending => .sip

def source : CsrView → Csr
  | status => .mstatus
  | enabled => .mie
  | pending => .mip

/-- The bits that it shows: fixed ones of the status register, else those that are delegated. -/
def mask (v : CsrView) (b : CsrBank) : Word :=
  match v with
  | status => Status.supervisorMask
  | enabled => b.value .mideleg
  | pending => b.value .mideleg

/--
The positions that show what is written to them: in the status register the
enable bit of the supervisor, the two fields of its last trap, two context
fields and two permissions; every delegated interrupt enable; and the software
interrupt of the supervisor, if it is delegated.
-/
def Stores (v : CsrView) (b : CsrBank) (k : Nat) : Prop :=
  match v with
  | status => k ∈ [1, 5, 8, 9, 10, 13, 14, 18, 19]
  | enabled => (b.value .mideleg).getLsbD k = true
  | pending => k = 1 ∧ (b.value .mideleg).getLsbD 1 = true

/-- What the bits of `value` that `mask` selects change when they are written through the view. -/
structure Written (v : CsrView) (before : CsrBank) (value mask : Word) (after : CsrBank) :
    Prop where
  outside : ∀ k, (v.mask before).getLsbD k = false →
    (after.value v.source).getLsbD k = (before.value v.source).getLsbD k
  unmasked : ∀ k, mask.getLsbD k = false → ¬ (v = status ∧ k = 31) →
    (after.value v.source).getLsbD k = (before.value v.source).getLsbD k
  summary : v = status → ((after.value .mstatus).getLsbD 31 = true ↔
    after.status.fs = .dirty ∨ after.status.vs = .dirty)
  software : v = pending → ∃ ssip,
    after = { before with interrupts := { before.interrupts with ssip := ssip } } ∧
      (ssip ≠ before.interrupts.ssip → (before.value .mideleg).getLsbD 1 = true)
  stored : ∀ k, v.Stores before k → mask.getLsbD k = true →
    (after.value v.register).getLsbD k = value.getLsbD k

theorem value_register (v : CsrView) (b : CsrBank) :
    b.value v.register = b.value v.source &&& v.mask b := by
  cases v <;> rfl

theorem isReadOnly_register (v : CsrView) : v.register.number.isReadOnly = false := by
  cases v <;> decide

variable {b : CsrBank}

theorem written_status (hb : b.Legal) (value mask : Word) :
    status.Written b value mask (b.update .sstatus value mask) := by
  have hkept {k : Nat} (hclear : (mask &&& Status.supervisorMask).getLsbD k = false)
      (hk : k ≠ 31) :=
    hb.status.getLsbD_pack_write_of_clear value hclear hk
  have hlegal := hb.status.writeSupervisor value mask
  refine
    { outside := ?outside
      unmasked := ?unmasked
      summary := ?summary
      software := fun h => absurd h (by decide)
      stored := ?stored }
  case outside =>
    intro k hk
    refine hkept (Status.supervisorMask_clear mask hk) ?_
    rintro rfl
    have hlast : Status.supervisorMask.getLsbD 31 = true := by decide
    exact absurd (hlast.symm.trans hk) Bool.noConfusion
  case unmasked =>
    intro k hk hne
    refine hkept ?_ fun hlast => hne ⟨rfl, hlast⟩
    rw [BitVec.getLsbD_and, hk, Bool.false_and]
  case summary =>
    intro _
    refine Iff.trans ?_ hlegal.sd
    exact iff_of_eq (congrArg (· = true) (Status.getLsbD_pack _ 31))
  case stored =>
    intro k hk hmask
    have hplain : ∀ k ∈ [1, 5, 8, 9, 10, 13, 14, 18, 19], k ∉ [6, 11, 12, 15, 16, 31] ∧
        Status.supervisorMask.getLsbD k = true ∧ Status.fieldMask.getLsbD k = true := by decide
    obtain ⟨hrule, hsupervisor, hfield⟩ := hplain k hk
    have hbits : (mask &&& Status.supervisorMask).getLsbD k = true := by
      rw [BitVec.getLsbD_and, hmask, hsupervisor, Bool.and_self]
    change ((b.status.write value (mask &&& Status.supervisorMask)).pack &&&
      Status.supervisorMask).getLsbD k = value.getLsbD k
    rw [BitVec.getLsbD_and, b.status.getLsbD_pack_write value _ hrule, hbits, hfield, hsupervisor,
      if_pos rfl, Bool.and_true, Bool.and_true]

theorem written_enabled (hb : b.Legal) (value mask : Word) :
    enabled.Written b value mask (b.update .sie value mask) := by
  have hkept {k : Nat} (hclear : (mask &&& b.delegation.interrupts).getLsbD k = false) :
      (b.interrupts.writeSie value mask b.delegation).mie.getLsbD k =
        b.interrupts.mie.getLsbD k := by
    rw [Interrupts.writeSie, Interrupts.writeMie, Word.getLsbD_merge, BitVec.getLsbD_and, hclear,
      Bool.false_and, if_neg Bool.false_ne_true]
  refine
    { outside := ?outside
      unmasked := ?unmasked
      summary := fun h => absurd h (by decide)
      software := fun h => absurd h (by decide)
      stored := ?stored }
  case outside =>
    exact fun k hk => b.interrupts.getLsbD_mie_writeSie value mask hk
  case unmasked =>
    intro k hk _
    refine hkept ?_
    rw [BitVec.getLsbD_and, hk, Bool.false_and]
  case stored =>
    intro k hk hmask
    have hwithin : (b.value .mideleg).Within Interrupts.enableMask :=
      hb.mideleg.trans (by decide)
    have henable := Word.within_iff.mp hwithin k hk
    change ((b.interrupts.writeSie value mask b.delegation).mie &&&
      b.value .mideleg).getLsbD k = value.getLsbD k
    have hbits : (mask &&& b.delegation.interrupts &&& Interrupts.enableMask).getLsbD k = true := by
      rw [BitVec.getLsbD_and, BitVec.getLsbD_and, hmask, henable, Bool.true_and, Bool.and_true]
      exact hk
    rw [BitVec.getLsbD_and, hk, Bool.and_true, Interrupts.writeSie, Interrupts.writeMie,
      Word.getLsbD_merge, hbits, if_pos rfl]

theorem written_pending (b : CsrBank) (value mask : Word) :
    pending.Written b value mask (b.update .sip value mask) := by
  have hbit := b.interrupts.getLsbD_mip_writeSip value mask b.delegation
  refine
    { outside := ?outside
      unmasked := ?unmasked
      summary := fun h => absurd h (by decide)
      software := ?software
      stored := ?stored }
  case outside =>
    intro k hk
    refine (hbit k).trans (if_neg ?_)
    rintro ⟨rfl, -, hdelegated⟩
    exact absurd (hk.symm.trans hdelegated) Bool.false_ne_true
  case unmasked =>
    intro k hk _
    refine (hbit k).trans (if_neg ?_)
    rintro ⟨rfl, hmask, -⟩
    exact absurd (hk.symm.trans hmask) Bool.false_ne_true
  case software =>
    intro _
    refine ⟨_, congrArg (fun s => { b with interrupts := s }) (Interrupts.writeSip_eq _ _ _ _), ?_⟩
    intro hne
    refine Decidable.byContradiction fun hkept => hne (if_neg ?_)
    rw [Bool.and_eq_true]
    exact fun h => hkept h.2
  case stored =>
    rintro k ⟨rfl, hdelegated⟩ hmask
    change ((b.interrupts.writeSip value mask b.delegation).mip &&&
      b.value .mideleg).getLsbD 1 = value.getLsbD 1
    rw [BitVec.getLsbD_and, hdelegated, Bool.and_true, hbit]
    exact if_pos ⟨rfl, hmask, hdelegated⟩

theorem written_update (v : CsrView) (hb : b.Legal) (value mask : Word) :
    v.Written b value mask (b.update v.register value mask) := by
  cases v with
  | status => exact written_status hb value mask
  | enabled => exact written_enabled hb value mask
  | pending => exact written_pending b value mask

/-- All levels but the lowest have access to the views. -/
theorem access_register (v : CsrView) (b : CsrBank) {level : Level} (hlevel : level ≠ .user) :
    b.access v.register.number level = .ok v.register := by
  refine b.access_of_writable v.isReadOnly_register ?_
  revert hlevel
  cases v <;> cases level <;> decide

end CsrView

namespace Hart

/--
In every bank that a hart comes to, a view of the supervisor is read as its
source restricted to the bits of the view. A write through the view keeps the
bits of the source outside the view and those that are not selected, but for
the summary bit, and can change nothing of what is pending but the software
interrupt of the supervisor, if that is delegated. Read again, the view shows
what has been written to the fields that take any value.
-/
theorem views_are_lenses {h : Hart} (hreach : h.Reachable) (v : CsrView) {level : Level}
    (hlevel : level ≠ .user) (value mask : Word) :
    h.csrs.read v.register.number level = .ok (h.csrs.value v.source &&& v.mask h.csrs) ∧
      ∃ after, h.csrs.writeMasked v.register.number value mask level = .ok after ∧
        after.read v.register.number level = .ok (after.value v.register) ∧
        v.Written h.csrs value mask after := by
  have haccess (b : CsrBank) := v.access_register b hlevel
  have hread (b : CsrBank) : b.read v.register.number level = .ok (b.value v.register) :=
    CsrBank.read_eq_ok_iff.mpr ⟨v.register, haccess b, rfl⟩
  refine ⟨?_, h.csrs.update v.register value mask, ?_, hread _, ?_⟩
  · rw [hread, v.value_register]
  · exact CsrBank.writeMasked_eq_ok_iff.mpr ⟨v.register, haccess _, v.isReadOnly_register, rfl⟩
  · exact v.written_update hreach.legal value mask

/-- The supervisor turns the floating-point context off where all bits were set. -/
theorem views_are_lenses_crowded :
    crowded.Reachable ∧ Level.supervisor ≠ .user ∧
      ∃ after, crowded.csrs.writeMasked 0x100 0 0x6000 .supervisor = .ok after ∧
        (after.value .sstatus).getLsbD 13 = false ∧ (after.value .mstatus).getLsbD 12 = true := by
  have hlevel : Level.supervisor ≠ .user := by decide
  obtain ⟨-, after, hwrite, -, hwritten⟩ :=
    views_are_lenses reachable_crowded .status hlevel 0 0x6000
  refine ⟨reachable_crowded, hlevel, after, hwrite, ?_, ?_⟩
  · exact hwritten.stored 13 (by simp [CsrView.Stores]) (by decide)
  · refine (hwritten.outside 12 (by decide)).trans ?_
    decide +kernel

end Hart

end Rv32
