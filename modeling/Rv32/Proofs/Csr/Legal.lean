import Rv32.Proofs.Csr.Access
import Rv32.Proofs.Csr.Status
import Rv32.Proofs.Trap.Entry
import Rv32.Proofs.Trap.Pending

/-! # Legal contents of the control registers

Software may write any value under any mask, but the registers take only what
is legal: a partial write is judged by what it would leave, old bits and new
ones together. Trap vectors and the pending register cannot hold anything
illegal at all; for the other registers every way of changing them keeps them
legal.
-/

namespace Rv32

/-! ## The status register -/

namespace Status

/-- Contents that a write can leave. -/
structure Legal (s : Status) : Prop where
  mpp : s.mpp ≠ .reserved
  ube : s.ube = false
  xs : s.xs = .off
  sd : s.sd = true ↔ s.fs = .dirty ∨ s.vs = .dirty

theorem legal_reset : reset.Legal :=
  { mpp := by decide
    ube := rfl
    xs := rfl
    sd := by decide }

/-- Whatever was to be written, what is stored is legal if the old contents were. -/
theorem legal_legalize (s : Status) {old : Status} (hold : old.Legal) :
    (s.legalize old).Legal := by
  refine { mpp := ?_, ube := rfl, xs := rfl, sd := ?_ }
  · simp only [legalize]
    split
    · exact hold.mpp
    · rename_i hreserved
      intro hmpp
      rw [hmpp] at hreserved
      exact hreserved rfl
  · simp only [legalize, Bool.or_eq_true, decide_eq_true_eq]

theorem Legal.write {s : Status} (hs : s.Legal) (value mask : Word) :
    (s.write value mask).Legal :=
  legal_legalize _ hs

theorem Legal.writeSupervisor {s : Status} (hs : s.Legal) (value mask : Word) :
    (s.writeSupervisor value mask).Legal :=
  hs.write value (mask &&& supervisorMask)

/-- No hart runs in the reserved level, so none is saved by a trap. -/
theorem Legal.withMpp {s : Status} (hs : s.Legal) (level : Level) : (s.withMpp level).Legal := by
  refine { hs with mpp := ?_ }
  change level.field ≠ .reserved
  cases level <;> decide

theorem Legal.withSpp {s : Status} (hs : s.Legal) (level : Level) : (s.withSpp level).Legal :=
  { hs with }

theorem Legal.enterSupervisor {s : Status} (hs : s.Legal) (origin : Level) :
    (s.enterSupervisor origin).Legal := by
  refine Legal.withSpp ?_ origin
  exact { hs with }

theorem Legal.enterMachine {s : Status} (hs : s.Legal) (origin : Level) :
    (s.enterMachine origin).Legal := by
  refine Legal.withMpp ?_ origin
  exact { hs with }

theorem Legal.leaveSupervisor {s : Status} (hs : s.Legal) : s.leaveSupervisor.Legal := by
  refine Legal.withSpp ?_ .user
  exact { hs with }

theorem Legal.leaveMachine {s : Status} (hs : s.Legal) : s.leaveMachine.Legal := by
  refine Legal.withMpp ?_ .user
  exact { hs with }

end Status

/-! ## Trap vectors -/

namespace TrapVector

/-- A handler that starts at a multiple of four, and one of the two modes with names. -/
structure Legal (v : TrapVector) : Prop where
  base : v.base.IsAligned
  value : v.value = v.base ∨ v.value = v.base + 1

theorem toNat_append_mode (base : BitVec 30) (mode : BitVec 2) :
    (base ++ mode).toNat = 4 * base.toNat + mode.toNat := by
  rw [Word.toNat_append]
  omega

theorem toNat_base (v : TrapVector) : v.base.toNat = 4 * v.baseBits.toNat :=
  toNat_append_mode v.baseBits 0

theorem toNat_value (v : TrapVector) :
    v.value.toNat = 4 * v.baseBits.toNat + v.mode.bits.toNat :=
  toNat_append_mode v.baseBits v.mode.bits

theorem legal (v : TrapVector) : v.Legal := by
  refine { base := v.isAligned_base, value := ?_ }
  cases hmode : v.mode with
  | direct =>
      left
      apply BitVec.eq_of_toNat_eq
      rw [toNat_value, toNat_base, hmode]
      rfl
  | vectored =>
      right
      have hone : (1 : Word).toNat = 1 := rfl
      have hbits : VectorMode.vectored.bits.toNat = 1 := rfl
      have hbound := v.baseBits.isLt
      apply BitVec.eq_of_toNat_eq
      rw [BitVec.toNat_add, toNat_value, toNat_base, hmode, hbits, hone]
      omega

end TrapVector

/-! ## Interrupts -/

namespace Interrupts

theorem within_mip (s : Interrupts) : s.mip.Within 0xAAA := by
  rw [Word.within_iff]
  intro k hk
  by_cases hcode : ∃ i : Interrupt, i.code = k
  · obtain ⟨i, rfl⟩ := hcode
    cases i <;> decide
  · have hclear := s.getLsbD_mip_of_ne_code (fun i hi => hcode ⟨i, hi⟩)
    rw [hclear] at hk
    cases hk

theorem mie_clearPending (s : Interrupts) (i : Interrupt) : (s.clearPending i).mie = s.mie := by
  cases i <;> rfl

end Interrupts

namespace CsrBank

/-! ## Resume addresses -/

def Resumable (b : CsrBank) : Prop :=
  ∀ level, (b.epc level).IsAligned

theorem resumable_initial (clock : DoubleWord) : (initial clock).Resumable := by
  intro level
  cases level <;> exact Word.isAligned_zero

theorem isAligned_plainUpdate (level : Level) {old : Word} (value mask : Word)
    (hold : old.IsAligned) : (plainUpdate (epcOf level) old value mask).IsAligned := by
  cases level <;> exact Word.isAligned_merge mask hold value.isAligned_alignDown

theorem resumable_setPlain {b : CsrBank} (hb : b.Resumable) {c : PlainCsr} {v : Word}
    (hv : ∀ level, c = epcOf level → v.IsAligned) : (b.setPlain c v).Resumable := by
  intro level
  rw [epc_setPlain]
  split
  · rename_i hc
    exact hv level hc
  · exact hb level

theorem resumable_update {b : CsrBank} (hb : b.Resumable) (c : Csr) (value mask : Word) :
    (b.update c value mask).Resumable := by
  cases c with
  | plain c =>
      refine resumable_setPlain hb ?_
      rintro level rfl
      exact isAligned_plainUpdate level value mask (hb level)
  | _ => exact hb

/-! ## The bank -/

/-- Legal contents of the whole bank, most of them as software reads them. -/
structure Legal (b : CsrBank) : Prop where
  status : b.status.Legal
  vector : ∀ level, (b.trapVector level).Legal
  resume : b.Resumable
  medeleg : (b.value .medeleg).Within 0xB3FF
  mideleg : (b.value .mideleg).Within 0x222
  mie : (b.value .mie).Within 0xAAA
  mip : (b.value .mip).Within 0xAAA
  seip : (b.value .mip).getLsbD 9 = (b.interrupts.seipLine || b.interrupts.seipSoftware)
  satp : (b.value (.plain .satp)).getLsbD 31 = false

/-- The contents that have to be looked at. The others are legal in every bank. -/
theorem legal_of {b : CsrBank} (status : b.status.Legal) (resume : b.Resumable)
    (medeleg : b.delegation.exceptions.Within 0xB3FF)
    (mideleg : b.delegation.interrupts.Within 0x222) (mie : b.interrupts.mie.Within 0xAAA)
    (satp : (b.plain.get .satp).getLsbD 31 = false) : b.Legal :=
  { status := status
    vector := fun level => (b.trapVector level).legal
    resume := resume
    medeleg := medeleg
    mideleg := mideleg
    mie := mie
    mip := b.interrupts.within_mip
    seip := b.interrupts.getLsbD_mip_code .supervisorExternal
    satp := satp }

theorem legal_initial (clock : DoubleWord) : (initial clock).Legal := by
  have hsatp : (initial clock).plain.get .satp = 0 := rfl
  refine legal_of Status.legal_reset (resumable_initial clock) (Word.within_zero _)
    (Word.within_zero _) (Word.within_zero _) ?_
  rw [hsatp]
  rfl

theorem Legal.withStatus {b : CsrBank} (hb : b.Legal) {s : Status} (hs : s.Legal) :
    { b with status := s }.Legal :=
  { hb with status := hs }

theorem Legal.withInterrupts {b : CsrBank} (hb : b.Legal) {s : Interrupts}
    (hs : s.mie.Within 0xAAA) : { b with interrupts := s }.Legal :=
  legal_of hb.status hb.resume hb.medeleg hb.mideleg hs hb.satp

theorem Legal.withClock {b : CsrBank} (hb : b.Legal) (clock : DoubleWord) :
    { b with clock := clock }.Legal :=
  { hb with }

theorem Legal.withRetired {b : CsrBank} (hb : b.Legal) (retired : DoubleWord) :
    { b with retired := retired }.Legal :=
  { hb with }

/-- Of the plain registers only resume addresses and the paging mode have illegal contents. -/
theorem Legal.setPlain {b : CsrBank} (hb : b.Legal) {c : PlainCsr} {v : Word}
    (hresume : ∀ level, c = epcOf level → v.IsAligned) (hsatp : c = .satp → v.getLsbD 31 = false) :
    (b.setPlain c v).Legal := by
  refine legal_of hb.status (resumable_setPlain hb.resume hresume) hb.medeleg hb.mideleg hb.mie ?_
  change ((b.plain.set c v).get .satp).getLsbD 31 = false
  rw [PlainCsrs.get_set]
  split
  · rename_i hc
    exact hsatp hc
  · exact hb.satp

/-! ## Writes -/

/-- A write that would turn paging on is not made. -/
theorem getLsbD_plainUpdate_satp {old : Word} (hold : old.getLsbD 31 = false)
    (value mask : Word) : (plainUpdate .satp old value mask).getLsbD 31 = false := by
  have hmsb (w : Word) : w.msb = w.getLsbD 31 := BitVec.msb_eq_getLsbD_last w
  simp only [plainUpdate, hmsb]
  split
  · exact hold
  · rename_i hclear
    exact Bool.eq_false_iff.mpr hclear

theorem Legal.update {b : CsrBank} (hb : b.Legal) (c : Csr) (value mask : Word) :
    (b.update c value mask).Legal := by
  cases c with
  | plain c =>
      refine hb.setPlain ?_ ?_
      · rintro level rfl
        exact isAligned_plainUpdate level value mask (hb.resume level)
      · rintro rfl
        exact getLsbD_plainUpdate_satp hb.satp value mask
  | sstatus => exact hb.withStatus (hb.status.writeSupervisor value mask)
  | mstatus => exact hb.withStatus (hb.status.write value mask)
  | sie => exact hb.withInterrupts (Word.within_merge value _ hb.mie)
  | mie => exact hb.withInterrupts (Word.within_merge value mask hb.mie)
  | sip => exact hb.withInterrupts hb.mie
  | mip => exact hb.withInterrupts hb.mie
  | medeleg => exact { hb with medeleg := Word.within_merge value mask hb.medeleg }
  | mideleg => exact { hb with mideleg := Word.within_merge value mask hb.mideleg }
  | stvec => exact { hb with vector := fun level => TrapVector.legal _ }
  | mtvec => exact { hb with vector := fun level => TrapVector.legal _ }
  | mcycle => exact hb.withRetired _
  | minstret => exact hb.withRetired _
  | mcycleh => exact hb.withRetired _
  | minstreth => exact hb.withRetired _
  | _ => exact hb

theorem Legal.writeMasked {b after : CsrBank} (hb : b.Legal) {n : CsrNumber} {value mask : Word}
    {level : Level} (hwrite : b.writeMasked n value mask level = .ok after) : after.Legal := by
  obtain ⟨c, -, -, rfl⟩ := writeMasked_eq_ok hwrite
  exact hb.update c value mask

/-! ## Trap registers -/

theorem Legal.setEpc {b : CsrBank} (hb : b.Legal) (level : Level) (v : Word) :
    (b.setEpc level v).Legal := by
  refine hb.setPlain (fun _ _ => v.isAligned_alignDown) ?_
  intro hsatp
  cases level <;> cases hsatp

theorem Legal.setCause {b : CsrBank} (hb : b.Legal) (level : Level) (v : Word) :
    (b.setCause level v).Legal := by
  refine hb.setPlain ?_ ?_
  · intro other hepc
    cases level <;> cases other <;> cases hepc
  · intro hsatp
    cases level <;> cases hsatp

theorem Legal.setTval {b : CsrBank} (hb : b.Legal) (level : Level) (v : Word) :
    (b.setTval level v).Legal := by
  refine hb.setPlain ?_ ?_
  · intro other hepc
    cases level <;> cases other <;> cases hepc
  · intro hsatp
    cases level <;> cases hsatp

end CsrBank

end Rv32
