import Rv32.Proofs.Csr.PartialWrite
import Rv32.Proofs.Csr.StatusBits
import Rv32.Proofs.Csr.SupervisorView
import Rv32.Proofs.DoubleWord

/-! # Repeated writes

Whether a register takes a written value may depend on what it holds, so the
second of two equal writes is judged by other contents than the first. It changes
nothing all the same: what has been stored is the old contents or legal, and both
are kept. In the same way what is read from a register can be written back to it.
-/

namespace Rv32

namespace Word

theorem merge_idem (old value mask : Word) :
    merge (merge old value mask) value mask = merge old value mask := by
  apply BitVec.eq_of_getLsbD_eq
  intro i _
  simp only [getLsbD_merge]
  split <;> rfl

end Word

/-! ## The status register -/

namespace Status

/-- The rules for legal values do not look at the bits that they fix. -/
theorem legalize_unpack_congr {w v : Word}
    (h : ∀ k, k ∉ [6, 15, 16, 31] → w.getLsbD k = v.getLsbD k) (old : Status) :
    (unpack w).legalize old = (unpack v).legalize old := by
  have hpair (lo : Nat) (hlow : lo ∉ [6, 15, 16, 31]) (hhigh : lo + 1 ∉ [6, 15, 16, 31]) :
      w.extractLsb' lo 2 = v.extractLsb' lo 2 := by
    apply BitVec.eq_of_getLsbD_eq
    intro i hi
    rw [BitVec.getLsbD_extractLsb', BitVec.getLsbD_extractLsb']
    obtain rfl | rfl : i = 0 ∨ i = 1 := by omega
    · exact congrArg _ (h lo hlow)
    · exact congrArg _ (h (lo + 1) hhigh)
  have hvs : (unpack w).vs = (unpack v).vs :=
    congrArg ContextStatus.ofBits (hpair 9 (by decide) (by decide))
  have hfs : (unpack w).fs = (unpack v).fs :=
    congrArg ContextStatus.ofBits (hpair 13 (by decide) (by decide))
  have hmpp : (unpack w).mpp = (unpack v).mpp :=
    congrArg LevelField.ofBits (hpair 11 (by decide) (by decide))
  unfold legalize
  rw [hvs, hfs, hmpp]
  simp (disch := decide) only [unpack, h]

/-- The reserved level is not taken, and what is kept for it is kept again. -/
theorem legalize_legalize (s old : Status) : s.legalize (s.legalize old) = s.legalize old := by
  unfold legalize
  split <;> rfl

theorem legalize_self {s : Status} (hs : s.Legal) : s.legalize s = s := by
  have hsd : (s.fs = .dirty || s.vs = .dirty : Bool) = s.sd := by
    rw [Bool.eq_iff_iff, hs.sd, Bool.or_eq_true, decide_eq_true_eq, decide_eq_true_eq]
  unfold legalize
  rw [ite_self, hsd, ← hs.ube, ← hs.xs]

theorem write_idem (s : Status) (value mask : Word) :
    (s.write value mask).write value mask = s.write value mask := by
  -- Apart from the bits that the rules fix, both writes come to the same word.
  have hmerged (k : Nat) (hk : k ∉ [6, 15, 16, 31]) :
      (Word.merge (s.write value mask).pack value mask).getLsbD k =
        (Word.merge s.pack value mask).getLsbD k := by
    rw [Word.getLsbD_merge, Word.getLsbD_merge]
    cases hmask : mask.getLsbD k with
    | true => rfl
    | false => exact s.getLsbD_pack_write_of_clear value hmask hk
  calc (s.write value mask).write value mask
      = (unpack (Word.merge s.pack value mask)).legalize (s.write value mask) :=
        legalize_unpack_congr hmerged _
    _ = s.write value mask := legalize_legalize _ s

theorem writeSupervisor_idem (s : Status) (value mask : Word) :
    (s.writeSupervisor value mask).writeSupervisor value mask = s.writeSupervisor value mask :=
  s.write_idem value (mask &&& supervisorMask)

theorem write_zero {s : Status} (hs : s.Legal) (value : Word) : s.write value 0 = s := by
  unfold write
  rw [Word.merge_zero, unpack_pack, legalize_self hs]

end Status

/-! ## Trap vectors -/

theorem VectorMode.bits_of_ofBits? {b : BitVec 2} {mode : VectorMode} (h : ofBits? b = some mode) :
    mode.bits = b := by
  revert b mode
  decide

namespace TrapVector

theorem value_ofBase {w : Word} {mode : VectorMode}
    (h : VectorMode.ofBits? (w.extractLsb' 0 2) = some mode) : (ofBase w mode).value = w := by
  unfold value ofBase
  rw [VectorMode.bits_of_ofBits? h]
  apply BitVec.eq_of_getLsbD_eq
  intro i hi
  rw [BitVec.getLsbD_append]
  by_cases hlow : i < 2
  · simp [hlow]
  · simp [hlow, show i - 2 < 30 by omega, show 2 + (i - 2) = i by omega]

/-- A write keeps the vector or stores the word that it merges. -/
theorem write_cases (v : TrapVector) (value mask : Word) :
    v.write value mask = v ∨ (v.write value mask).value = Word.merge v.value value mask := by
  unfold write
  dsimp only
  split
  · rename_i hmode
    exact .inr (value_ofBase hmode)
  · exact .inl rfl

theorem write_idem (v : TrapVector) (value mask : Word) :
    (v.write value mask).write value mask = v.write value mask := by
  rcases v.write_cases value mask with hkept | hstored
  · rw [hkept, hkept]
  · rcases (v.write value mask).write_cases value mask with hkept | hagain
    · exact hkept
    · apply value_injective
      rw [hagain, hstored, Word.merge_idem]

theorem write_zero (v : TrapVector) (value : Word) : v.write value 0 = v := by
  rcases v.write_cases value 0 with hkept | hstored
  · exact hkept
  · apply value_injective
    rw [hstored, Word.merge_zero]

end TrapVector

/-! ## Interrupts -/

namespace Interrupts

theorem writeMip_idem (s : Interrupts) (value mask : Word) :
    (s.writeMip value mask).writeMip value mask = s.writeMip value mask := by
  simp only [writeMip, Interrupts.mk.injEq, and_true]
  refine ⟨?_, ?_, ?_⟩ <;> split <;> rfl

theorem writeMie_idem (s : Interrupts) (value mask : Word) :
    (s.writeMie value mask).writeMie value mask = s.writeMie value mask := by
  simp only [writeMie, Word.merge_idem]

theorem writeMip_zero (s : Interrupts) (value : Word) : s.writeMip value 0 = s := by
  have hclear (k : Nat) : (0 : Word).getLsbD k = false := BitVec.getLsbD_zero
  simp only [writeMip, hclear]
  rfl

theorem writeMie_zero (s : Interrupts) (value : Word) : s.writeMie value 0 = s := by
  unfold writeMie
  rw [Word.zero_and, Word.merge_zero]

end Interrupts

/-! ## Plain registers and counters -/

namespace CsrBank

theorem plainUpdate_idem (c : PlainCsr) (old value mask : Word) :
    plainUpdate c (plainUpdate c old value mask) value mask = plainUpdate c old value mask := by
  cases c with
  | satp =>
      cases hmsb : (Word.merge old value mask).msb with
      | false => simp [plainUpdate, hmsb, Word.merge_idem]
      | true => simp [plainUpdate, hmsb]
  | _ => exact Word.merge_idem _ _ _

theorem plainUpdate_zero (c : PlainCsr) (old value : Word) : plainUpdate c old value 0 = old := by
  cases c with
  | satp => simp only [plainUpdate, Word.merge_zero, ite_self]
  | _ => exact Word.merge_zero _ _

theorem mergeHalf_idem (v : DoubleWord) (h : Half) (value mask : Word) :
    mergeHalf (mergeHalf v h value mask) h value mask = mergeHalf v h value mask := by
  apply DoubleWord.eq_of_half_eq
  intro k
  simp only [mergeHalf, DoubleWord.half_withHalf, if_true, Word.merge_idem]
  split <;> rfl

theorem mergeHalf_zero (v : DoubleWord) (h : Half) (value : Word) : mergeHalf v h value 0 = v := by
  unfold mergeHalf
  rw [Word.merge_zero]
  cases h <;> exact v.high_append_low

theorem setPlain_setPlain (b : CsrBank) (c : PlainCsr) (v w : Word) :
    (b.setPlain c v).setPlain c w = b.setPlain c w := by
  simp [setPlain, PlainCsrs.set]

theorem setPlain_get (b : CsrBank) (c : PlainCsr) : b.setPlain c (b.plain.get c) = b := by
  simp [setPlain, PlainCsrs.set, PlainCsrs.get]

/-! ## The bank -/

/-- The second of two equal writes changes nothing, whatever the bank held before the first. -/
theorem update_idem (b : CsrBank) (c : Csr) (value mask : Word) :
    (b.update c value mask).update c value mask = b.update c value mask := by
  have hcounter (h : Half) := mergeHalf_idem b.retired h value mask
  cases c with
  | mcycle => exact congrArg (fun v => { b with retired := v }) (hcounter .low)
  | minstret => exact congrArg (fun v => { b with retired := v }) (hcounter .low)
  | mcycleh => exact congrArg (fun v => { b with retired := v }) (hcounter .high)
  | minstreth => exact congrArg (fun v => { b with retired := v }) (hcounter .high)
  | sstatus =>
      exact congrArg (fun s => { b with status := s }) (b.status.writeSupervisor_idem value mask)
  | mstatus => exact congrArg (fun s => { b with status := s }) (b.status.write_idem value mask)
  | stvec => exact congrArg (fun v => { b with stvec := v }) (b.stvec.write_idem value mask)
  | mtvec => exact congrArg (fun v => { b with mtvec := v }) (b.mtvec.write_idem value mask)
  | medeleg =>
      exact congrArg (fun w => { b with delegation := { b.delegation with exceptions := w } })
        (Word.merge_idem _ value _)
  | mideleg =>
      exact congrArg (fun w => { b with delegation := { b.delegation with interrupts := w } })
        (Word.merge_idem _ value _)
  | mie =>
      exact congrArg (fun s => { b with interrupts := s }) (b.interrupts.writeMie_idem value mask)
  | sie =>
      exact congrArg (fun s => { b with interrupts := s }) (b.interrupts.writeMie_idem value _)
  | mip =>
      exact congrArg (fun s => { b with interrupts := s }) (b.interrupts.writeMip_idem value mask)
  | sip =>
      exact congrArg (fun s => { b with interrupts := s }) (b.interrupts.writeMip_idem value _)
  | plain r =>
      change (b.setPlain r _).setPlain r (plainUpdate r ((b.plain.set r _).get r) value mask) = _
      rw [setPlain_setPlain, PlainCsrs.get_set_self, plainUpdate_idem]
      rfl
  | _ => rfl

/-- A write of no bits keeps what the registers can take. -/
theorem update_zero {b : CsrBank} (hb : b.Legal) (c : Csr) (value : Word) :
    b.update c value 0 = b := by
  have hcounter (h : Half) := mergeHalf_zero b.retired h value
  cases c with
  | mcycle => exact congrArg (fun v => { b with retired := v }) (hcounter .low)
  | minstret => exact congrArg (fun v => { b with retired := v }) (hcounter .low)
  | mcycleh => exact congrArg (fun v => { b with retired := v }) (hcounter .high)
  | minstreth => exact congrArg (fun v => { b with retired := v }) (hcounter .high)
  | sstatus =>
      simp only [update, Status.writeSupervisor, Word.zero_and, Status.write_zero hb.status]
  | mstatus => simp only [update, Status.write_zero hb.status]
  | stvec => simp only [update, TrapVector.write_zero]
  | mtvec => simp only [update, TrapVector.write_zero]
  | medeleg => simp only [update, Delegation.writeExceptions, Word.zero_and, Word.merge_zero]
  | mideleg => simp only [update, Delegation.writeInterrupts, Word.zero_and, Word.merge_zero]
  | mie => simp only [update, Interrupts.writeMie_zero]
  | sie => simp only [update, Interrupts.writeSie, Word.zero_and, Interrupts.writeMie_zero]
  | mip => simp only [update, Interrupts.writeMip_zero]
  | sip => simp only [update, Interrupts.writeSip, Word.zero_and, Interrupts.writeMip_zero]
  | plain r => simp only [update, plainUpdate_zero, setPlain_get]
  | _ => rfl

/-- What is read from a register can be written back to it. -/
theorem update_value {b : CsrBank} (hb : b.Legal) {c : Csr} (hc : c ≠ .mip) :
    b.update c (b.value c) (.allOnes 32) = b := by
  have hmerge := update_merge hb.resume hc 0 0
  rw [Word.merge_zero] at hmerge
  rw [hmerge, update_zero hb]

/-- Written back, the pending register shows the same, but its hidden source may have changed. -/
theorem read_update_value {b : CsrBank} (hb : b.Legal) (c : Csr) (n : CsrNumber) (level : Level) :
    (b.update c (b.value c) (.allOnes 32)).read n level = b.read n level := by
  by_cases hc : c = .mip
  · subst hc
    have hmip := b.interrupts.mip_writeMip_merge 0 0
    rw [Word.merge_zero, Interrupts.writeMip_zero] at hmip
    exact b.read_withInterrupts_congr hmip rfl n level
  · rw [update_value hb hc]

/-- A write that is permitted is permitted again, since no write closes a register to writes. -/
theorem writeMasked_writeMasked {b after : CsrBank} {n : CsrNumber} {value mask : Word}
    {level : Level} (hwrite : b.writeMasked n value mask level = .ok after) :
    after.writeMasked n value mask level = .ok after := by
  obtain ⟨c, hc, hwritable, rfl⟩ := writeMasked_eq_ok_iff.mp hwrite
  obtain ⟨rfl, hlevel, -⟩ := access_eq_ok hc
  have hagain := (b.update c value mask).access_of_writable hwritable hlevel
  exact writeMasked_eq_ok_iff.mpr ⟨c, hagain, hwritable, (b.update_idem c value mask).symm⟩

end CsrBank

namespace Hart

/--
In every bank that a hart comes to, the second of two equal writes is accepted
and changes nothing, and so does the write of what has just been read, but that
the pending register takes what it shows of the supervisor external interrupt
for the software's source, which no read tells. Of the status register all
combinations of fields can be packed and unpacked again, and the word of an
unpacked value is that value without the bits that belong to no field.
-/
theorem writes_idempotent {h : Hart} (hreach : h.Reachable) {n : CsrNumber} {level : Level}
    (hmay : h.csrs.MayWrite n level) (value mask : Word) :
    (∃ after, h.csrs.writeMasked n value mask level = .ok after ∧
        after.writeMasked n value mask level = .ok after) ∧
      (∃ old after, h.csrs.read n level = .ok old ∧ h.csrs.write n old level = .ok after ∧
        (∀ k l, after.read k l = h.csrs.read k l) ∧ (n ≠ Csr.mip.number → after = h.csrs)) ∧
      (∀ s : Status, Status.unpack s.pack = s) ∧
      ∀ w : Word, (Status.unpack w).pack = w &&& 0x807FFFEA := by
  refine ⟨?twice, ?back, Status.unpack_pack, Status.pack_unpack⟩
  case twice =>
    obtain ⟨after, hwrite⟩ := (CsrBank.exists_writeMasked_iff value mask).mpr hmay
    exact ⟨after, hwrite, CsrBank.writeMasked_writeMasked hwrite⟩
  case back =>
    obtain ⟨old, hread⟩ := CsrBank.exists_read_iff.mpr hmay.toMayRead
    obtain ⟨after, hwrite⟩ := (CsrBank.exists_writeMasked_iff old (.allOnes 32)).mpr hmay
    refine ⟨old, after, hread, hwrite, ?_⟩
    obtain ⟨c, hc, rfl⟩ := CsrBank.read_eq_ok_iff.mp hread
    obtain ⟨d, hd, -, rfl⟩ := CsrBank.writeMasked_eq_ok_iff.mp hwrite
    obtain rfl : c = d := Except.ok.inj (hc.symm.trans hd)
    obtain ⟨rfl, -⟩ := CsrBank.access_eq_ok_iff.mp hc
    refine ⟨CsrBank.read_update_value hreach.legal c, fun hne => ?_⟩
    exact CsrBank.update_value hreach.legal fun hmip => hne (congrArg Csr.number hmip)

/-- One bit of the previous level is cleared, and the reserved level that results is not taken. -/
theorem writes_idempotent_half_cleared :
    halfCleared.Reachable ∧ halfCleared.csrs.MayWrite 0x300 .machine ∧
      ∃ after, halfCleared.csrs.writeMasked 0x300 0 0x800 .machine = .ok after ∧
        after.writeMasked 0x300 0 0x800 .machine = .ok after ∧
        after.status.mpp = .machine := by
  have hmay : halfCleared.csrs.MayWrite 0x300 .machine :=
    (CsrBank.exists_writeMasked_iff 0 0x800).mp ⟨_, rfl⟩
  obtain ⟨⟨after, hwrite, hagain⟩, -⟩ := writes_idempotent reachable_halfCleared hmay 0 0x800
  refine ⟨reachable_halfCleared, hmay, after, hwrite, hagain, ?_⟩
  have hafter : halfCleared.csrs.update .mstatus 0 0x800 = after := Except.ok.inj hwrite
  rw [← hafter]
  decide +kernel

end Hart

end Rv32
