import Rv32.Proofs.Csr.Aliasing

/-! # Writes of single bits

A register can be written whole or under a mask. Each register that only takes
certain values has its own rule for the masked write, and each rule comes to the
same as reading the register, replacing the bits of the mask and writing all of
it back, provided that the register holds a value that it could have taken. The
pending register is the exception: a bit of it has a source that is not read
back alone, so only the masked write leaves that source to the mask.
-/

namespace Rv32

/-! ## Merged words -/

namespace Word

/-- A masked write of ones sets the bits of the mask. -/
theorem merge_ones (old mask : Word) : merge old (.allOnes 32) mask = old ||| mask := by
  apply BitVec.eq_of_getLsbD_eq
  intro i hi
  simp only [getLsbD_merge, BitVec.getLsbD_allOnes, hi, decide_true, BitVec.getLsbD_or]
  cases mask.getLsbD i <;> simp

theorem zero_and (mask : Word) : 0 &&& mask = 0 :=
  BitVec.zero_and

/-- A masked write of zeros clears the bits of the mask. -/
theorem merge_zeros (old mask : Word) : merge old 0 mask = old &&& ~~~mask := by
  unfold merge
  rw [zero_and]
  exact BitVec.or_zero

/--
What is replaced within `bound` may be merged before or after it is cut down to
`bound`. Outside of it `view` may differ from the old word.
-/
theorem merge_merge {old view bound : Word} (hview : view &&& bound = old &&& bound)
    (value mask : Word) : merge old (merge view value mask) bound =
      merge old value (mask &&& bound) := by
  apply BitVec.eq_of_getLsbD_eq
  intro i _
  have hbit := congrArg (fun w : Word => w.getLsbD i) hview
  simp only [BitVec.getLsbD_and] at hbit
  simp only [getLsbD_merge, BitVec.getLsbD_and]
  cases hbound : bound.getLsbD i with
  | false => simp
  | true =>
      have hsame : view.getLsbD i = old.getLsbD i := by simpa [hbound] using hbit
      cases mask.getLsbD i <;> simp [hsame]

theorem alignDown_merge (old value mask : Word) :
    (merge old value mask).alignDown = merge old.alignDown value.alignDown mask := by
  apply BitVec.eq_of_getLsbD_eq
  intro i _
  simp only [alignDown, BitVec.getLsbD_and, getLsbD_merge]
  cases mask.getLsbD i <;> simp

end Word

/-! ## By register -/

theorem Status.write_merge (s : Status) (value mask : Word) :
    s.write (Word.merge s.pack value mask) (.allOnes 32) = s.write value mask := by
  unfold write
  rw [Word.merge_allOnes]

theorem Status.writeSupervisor_merge (s : Status) (value mask : Word) :
    s.writeSupervisor (Word.merge s.supervisorView value mask) (.allOnes 32) =
      s.writeSupervisor value mask := by
  have hview : s.supervisorView &&& supervisorMask = s.pack &&& supervisorMask := by
    unfold supervisorView
    rw [BitVec.and_assoc, BitVec.and_self]
  unfold writeSupervisor write
  rw [BitVec.allOnes_and, Word.merge_merge hview]

theorem TrapVector.write_merge (v : TrapVector) (value mask : Word) :
    v.write (Word.merge v.value value mask) (.allOnes 32) = v.write value mask := by
  unfold write
  rw [Word.merge_allOnes]

namespace Delegation

theorem writeExceptions_merge (d : Delegation) (value mask : Word) :
    d.writeExceptions (Word.merge d.exceptions value mask) (.allOnes 32) =
      d.writeExceptions value mask := by
  unfold writeExceptions
  rw [BitVec.allOnes_and, Word.merge_merge rfl]

theorem writeInterrupts_merge (d : Delegation) (value mask : Word) :
    d.writeInterrupts (Word.merge d.interrupts value mask) (.allOnes 32) =
      d.writeInterrupts value mask := by
  unfold writeInterrupts
  rw [BitVec.allOnes_and, Word.merge_merge rfl]

end Delegation

namespace Interrupts

theorem writeMie_merge (s : Interrupts) (value mask : Word) :
    s.writeMie (Word.merge s.mie value mask) (.allOnes 32) = s.writeMie value mask := by
  unfold writeMie
  rw [BitVec.allOnes_and, Word.merge_merge rfl]

theorem writeSie_merge (s : Interrupts) (d : Delegation) (value mask : Word) :
    s.writeSie (Word.merge (s.sie d) value mask) (.allOnes 32) d = s.writeSie value mask d := by
  have hview : s.sie d &&& (d.interrupts &&& enableMask) =
      s.mie &&& (d.interrupts &&& enableMask) := by
    unfold sie
    rw [BitVec.and_assoc, ← BitVec.and_assoc d.interrupts, BitVec.and_self]
  unfold writeSie writeMie
  rw [BitVec.allOnes_and, Word.merge_merge hview, BitVec.and_assoc]

theorem writeSip_merge (s : Interrupts) (d : Delegation) (value mask : Word) :
    s.writeSip (Word.merge (s.sip d) value mask) (.allOnes 32) d = s.writeSip value mask d := by
  have hssip : (s.sip d).getLsbD 1 = (s.ssip && d.delegatesInterrupt .supervisorSoftware) := by
    unfold sip
    rw [BitVec.getLsbD_and]
    exact congrArg (· && _) (s.getLsbD_mip_code .supervisorSoftware)
  rw [writeSip_eq, writeSip_eq, Word.getLsbD_merge, hssip]
  cases d.delegatesInterrupt .supervisorSoftware <;> simp

end Interrupts

namespace CsrBank

/-- Resume addresses alone have to be legal for this, and no other plain register. -/
theorem plainUpdate_merge (c : PlainCsr) {old : Word}
    (hold : ∀ level, c = epcOf level → old.IsAligned) (value mask : Word) :
    plainUpdate c old (Word.merge old value mask) (.allOnes 32) = plainUpdate c old value mask := by
  have hwhole (v : Word) : Word.merge old v (.allOnes 32) = v := Word.merge_allOnes old v
  have hepc (h : old.IsAligned) :
      Word.merge old (Word.merge old value mask).alignDown (.allOnes 32) =
        Word.merge old value.alignDown mask := by
    rw [hwhole, Word.alignDown_merge, (Word.alignDown_eq_self_iff old).mpr h]
  cases c with
  | mepc => exact hepc (hold .machine rfl)
  | sepc => exact hepc (hold .supervisor rfl)
  | satp => simp only [plainUpdate, hwhole]
  | _ => exact hwhole _

theorem mergeHalf_merge (v : DoubleWord) (h : Half) (value mask : Word) :
    mergeHalf v h (Word.merge (DoubleWord.half v h) value mask) (.allOnes 32) =
      mergeHalf v h value mask := by
  unfold mergeHalf
  rw [Word.merge_allOnes]

/-- With legal resume addresses a masked write is the write of what it merges, but for `mip`. -/
theorem update_merge {b : CsrBank} (hb : b.Resumable) {c : Csr} (hc : c ≠ .mip)
    (value mask : Word) :
    b.update c (Word.merge (b.value c) value mask) (.allOnes 32) = b.update c value mask := by
  have hcounter (h : Half) := mergeHalf_merge b.retired h value mask
  cases c with
  | mip => exact absurd rfl hc
  | mcycle => exact congrArg (fun v => { b with retired := v }) (hcounter .low)
  | minstret => exact congrArg (fun v => { b with retired := v }) (hcounter .low)
  | mcycleh => exact congrArg (fun v => { b with retired := v }) (hcounter .high)
  | minstreth => exact congrArg (fun v => { b with retired := v }) (hcounter .high)
  | sstatus =>
      exact congrArg (fun s => { b with status := s }) (b.status.writeSupervisor_merge value mask)
  | mstatus => exact congrArg (fun s => { b with status := s }) (b.status.write_merge value mask)
  | stvec => exact congrArg (fun v => { b with stvec := v }) (b.stvec.write_merge value mask)
  | mtvec => exact congrArg (fun v => { b with mtvec := v }) (b.mtvec.write_merge value mask)
  | medeleg =>
      exact congrArg (fun d => { b with delegation := d })
        (b.delegation.writeExceptions_merge value mask)
  | mideleg =>
      exact congrArg (fun d => { b with delegation := d })
        (b.delegation.writeInterrupts_merge value mask)
  | mie =>
      exact congrArg (fun s => { b with interrupts := s }) (b.interrupts.writeMie_merge value mask)
  | sie =>
      exact congrArg (fun s => { b with interrupts := s })
        (b.interrupts.writeSie_merge b.delegation value mask)
  | sip =>
      exact congrArg (fun s => { b with interrupts := s })
        (b.interrupts.writeSip_merge b.delegation value mask)
  | plain r =>
      have hold : ∀ level, r = epcOf level → (b.plain.get r).IsAligned := by
        rintro level rfl
        exact hb level
      exact congrArg (b.setPlain r) (plainUpdate_merge r hold value mask)
  | _ => rfl

end CsrBank

/-! ## The pending register -/

/-- The two ways to write the register leave the same interrupts pending. -/
theorem Interrupts.isPending_writeMip_merge (s : Interrupts) (value mask : Word) (i : Interrupt) :
    (s.writeMip (Word.merge s.mip value mask) (.allOnes 32)).isPending i =
      (s.writeMip value mask).isPending i := by
  have hmerged (j : Interrupt) : (Word.merge s.mip value mask).getLsbD j.code =
      if mask.getLsbD j.code then value.getLsbD j.code else s.isPending j := by
    rw [Word.getLsbD_merge, getLsbD_mip_code]
  -- All bits are written back, those outside the mask as they have been read.
  have hback (j : Interrupt) (old : Bool) :
      (if (BitVec.allOnes 32).getLsbD j.code then (Word.merge s.mip value mask).getLsbD j.code
        else old) = if mask.getLsbD j.code then value.getLsbD j.code else s.isPending j := by
    have hones : (BitVec.allOnes 32).getLsbD j.code = true := by
      cases j <;> rfl
    rw [if_pos hones, hmerged]
  cases i with
  | supervisorSoftware => exact hback .supervisorSoftware s.ssip
  | supervisorTimer => exact hback .supervisorTimer s.stip
  | supervisorExternal =>
      -- The line is up whether or not it has been stored as the software's bit.
      refine (congrArg (s.seipLine || ·) (hback .supervisorExternal s.seipSoftware)).trans ?_
      simp only [isPending, seip, writeMip, Interrupt.code]
      cases s.seipLine <;> simp
  | _ => rfl

theorem Interrupts.mip_writeMip_merge (s : Interrupts) (value mask : Word) :
    (s.writeMip (Word.merge s.mip value mask) (.allOnes 32)).mip = (s.writeMip value mask).mip := by
  apply BitVec.eq_of_getLsbD_eq
  intro k _
  exact getLsbD_mip_congr fun i _ => s.isPending_writeMip_merge value mask i

namespace CsrBank

/-- Interrupts that show the same in their two registers cannot be told apart by reads. -/
theorem read_withInterrupts_congr (b : CsrBank) {s t : Interrupts} (hmip : s.mip = t.mip)
    (hmie : s.mie = t.mie) (n : CsrNumber) (level : Level) :
    { b with interrupts := s }.read n level = { b with interrupts := t }.read n level := by
  have haccess : { b with interrupts := s }.access n level =
      { b with interrupts := t }.access n level := rfl
  have hvalue (c : Csr) : { b with interrupts := s }.value c =
      { b with interrupts := t }.value c := by
    refine value_eq_of_agrees fun p _ => ?_
    cases p with
    | pending => exact hmip
    | enabled => exact hmie
    | _ => rfl
  unfold read
  rw [haccess]
  simp only [hvalue]

/-- The bit that software sets is written through the pending register only. -/
theorem seipSoftware_update (b : CsrBank) {c : Csr} {value mask : Word}
    (h : c ≠ .mip ∨ mask.getLsbD 9 = false) :
    (b.update c value mask).interrupts.seipSoftware = b.interrupts.seipSoftware := by
  cases c with
  | mip =>
      have hmask : mask.getLsbD 9 = false := h.resolve_left fun hne => hne rfl
      simp only [update, Interrupts.writeMip, hmask]
      rfl
  | sip =>
      change (b.interrupts.writeSip value mask b.delegation).seipSoftware = _
      rw [Interrupts.writeSip_eq]
  | _ => rfl

/-! ## Reading first -/

/--
The bank after what `f` makes of the value of register number `n` has been
written back to it. Refused if one of the two accesses is.
-/
def modify (b : CsrBank) (n : CsrNumber) (f : Word → Word) (level : Level) :
    Except Exception CsrBank :=
  match b.read n level with
  | .ok old => b.write n (f old) level
  | .error e => .error e

/-- The two ways to write are refused alike, or both come to an update of the same register. -/
theorem writeMasked_and_modify (b : CsrBank) (n : CsrNumber) (value mask : Word) (level : Level) :
    (∃ e, b.writeMasked n value mask level = .error e ∧
        b.modify n (Word.merge · value mask) level = .error e) ∨
      ∃ c : Csr, c.number = n ∧ b.writeMasked n value mask level = .ok (b.update c value mask) ∧
        b.modify n (Word.merge · value mask) level =
          .ok (b.update c (Word.merge (b.value c) value mask) (.allOnes 32)) := by
  unfold modify read write writeMasked
  cases hc : b.access n level with
  | error e => exact .inl ⟨e, rfl, rfl⟩
  | ok c =>
      obtain ⟨hn, -⟩ := access_eq_ok_iff.mp hc
      cases hro : n.isReadOnly with
      | true => exact .inl ⟨.illegalInstruction, rfl, rfl⟩
      | false => exact .inr ⟨c, hn, rfl, rfl⟩

/-- Whether two writes are refused alike or leave banks that no read tells apart. -/
def ReadAlike (r s : Except Exception CsrBank) : Prop :=
  (∃ e, r = .error e ∧ s = .error e) ∨
    ∃ b d : CsrBank, r = .ok b ∧ s = .ok d ∧ ∀ n level, b.read n level = d.read n level

variable {b : CsrBank} {n : CsrNumber}

theorem writeMasked_eq_modify (hb : b.Resumable) (hn : n ≠ Csr.mip.number) (value mask : Word)
    (level : Level) :
    b.writeMasked n value mask level = b.modify n (Word.merge · value mask) level := by
  rcases b.writeMasked_and_modify n value mask level with ⟨e, hw, hm⟩ | ⟨c, hc, hw, hm⟩
  · rw [hw, hm]
  · have hne : c ≠ .mip := by
      rintro rfl
      exact hn hc.symm
    rw [hw, hm, update_merge hb hne]

theorem readAlike_modify (hb : b.Resumable) (n : CsrNumber) (value mask : Word) (level : Level) :
    ReadAlike (b.writeMasked n value mask level) (b.modify n (Word.merge · value mask) level) := by
  rcases b.writeMasked_and_modify n value mask level with hrefused | ⟨c, -, hw, hm⟩
  · exact .inl hrefused
  · refine .inr ⟨_, _, hw, hm, fun k l => ?_⟩
    by_cases hc : c = .mip
    · subst hc
      have hmip := (b.interrupts.mip_writeMip_merge value mask).symm
      exact b.read_withInterrupts_congr (s := b.interrupts.writeMip value mask) hmip rfl k l
    · rw [update_merge hb hc]

theorem mip_of_seipSoftware_ne {value mask : Word} {level : Level} {after : CsrBank}
    (hwrite : b.writeMasked n value mask level = .ok after)
    (hne : after.interrupts.seipSoftware ≠ b.interrupts.seipSoftware) :
    n = Csr.mip.number ∧ mask.getLsbD 9 = true := by
  obtain ⟨c, hc, -, rfl⟩ := writeMasked_eq_ok_iff.mp hwrite
  obtain ⟨rfl, -⟩ := access_eq_ok_iff.mp hc
  have hmip : ¬ (c ≠ .mip ∨ mask.getLsbD 9 = false) := fun h => hne (b.seipSoftware_update h)
  rw [not_or, ne_eq, Decidable.not_not, Bool.not_eq_false] at hmip
  exact ⟨congrArg Csr.number hmip.1, hmip.2⟩

/-- Written back, what the pending register shows becomes the software's bit. -/
theorem seipSoftware_of_modify {f : Word → Word} {level : Level} {after : CsrBank}
    (h : b.modify Csr.mip.number f level = .ok after) :
    after.interrupts.seipSoftware = (f (b.value .mip)).getLsbD 9 := by
  unfold modify at h
  split at h
  · rename_i old hread
    obtain ⟨r, hr, rfl⟩ := read_eq_ok_iff.mp hread
    obtain ⟨c, hc, -, rfl⟩ := writeMasked_eq_ok_iff.mp h
    rw [hr] at hc
    cases hc
    obtain rfl : r = .mip := Csr.number_injective (access_eq_ok_iff.mp hr).1
    rfl
  · cases h

end CsrBank

namespace Hart

open CsrBank (ReadAlike)

theorem Reachable.legal {h : Hart} (hreach : h.Reachable) : h.csrs.Legal := by
  induction hreach with
  | initial resetVector ecallMode clock => exact CsrBank.legal_initial clock
  | operated _ hop ih => exact hop.legal ih

/--
In every bank that a hart comes to, a write that sets or clears the bits of a
mask does what a read does that is followed by the write of the word with the
bits set or cleared. For the pending register no read tells the two apart, but
the masked write changes the software's source of the supervisor external
interrupt only if its bit is in the mask, whereas the write of the whole word
stores what was shown, the line of the interrupt controller with it.
-/
theorem set_and_clear_read_first {h : Hart} (hreach : h.Reachable) (n : CsrNumber) (level : Level)
    (m : Word) :
    (n ≠ Csr.mip.number →
        h.csrs.writeMasked n (.allOnes 32) m level = h.csrs.modify n (· ||| m) level ∧
          h.csrs.writeMasked n 0 m level = h.csrs.modify n (· &&& ~~~m) level) ∧
      ReadAlike (h.csrs.writeMasked n (.allOnes 32) m level) (h.csrs.modify n (· ||| m) level) ∧
      ReadAlike (h.csrs.writeMasked n 0 m level) (h.csrs.modify n (· &&& ~~~m) level) ∧
      (∀ value after, h.csrs.writeMasked n value m level = .ok after →
        after.interrupts.seipSoftware ≠ h.csrs.interrupts.seipSoftware →
        n = Csr.mip.number ∧ m.getLsbD 9 = true) ∧
      ∀ f after, h.csrs.modify Csr.mip.number f level = .ok after →
        after.interrupts.seipSoftware = (f (h.csrs.value .mip)).getLsbD 9 := by
  have hresume : h.csrs.Resumable := hreach.legal.resume
  have hset : (· ||| m) = (Word.merge · (.allOnes 32) m) :=
    funext fun old => (Word.merge_ones old m).symm
  have hclear : (· &&& ~~~m) = (Word.merge · 0 m) :=
    funext fun old => (Word.merge_zeros old m).symm
  rw [hset, hclear]
  refine ⟨fun hn => ⟨?_, ?_⟩, ?_, ?_, ?_, ?_⟩
  · exact CsrBank.writeMasked_eq_modify hresume hn _ m level
  · exact CsrBank.writeMasked_eq_modify hresume hn 0 m level
  · exact CsrBank.readAlike_modify hresume n _ m level
  · exact CsrBank.readAlike_modify hresume n 0 m level
  · exact fun value after hwrite hne => CsrBank.mip_of_seipSoftware_ne hwrite hne
  · exact fun f after hmodify => CsrBank.seipSoftware_of_modify hmodify

def signalled : Hart :=
  { initial defaultResetVector .trap 0 with
    csrs :=
      { CsrBank.initial 0 with interrupts := Interrupts.reset.drive .supervisorExternal true } }

/-- The line stays out of the software's bit if another bit is set, but not if all are written. -/
theorem set_and_clear_read_first_signalled :
    signalled.Reachable ∧
      signalled.csrs.writeMasked 0x341 (.allOnes 32) 7 .machine =
        signalled.csrs.modify 0x341 (· ||| 7) .machine ∧
      (∃ after, signalled.csrs.writeMasked 0x344 (.allOnes 32) 2 .machine = .ok after ∧
        after.interrupts.seipSoftware = false) ∧
      ∃ after, signalled.csrs.modify 0x344 (· ||| 2) .machine = .ok after ∧
        after.interrupts.seipSoftware = true := by
  have hreach : signalled.Reachable :=
    .operated (.initial defaultResetVector .trap 0) (.driven .supervisorExternal true)
  obtain ⟨hepc, -⟩ := set_and_clear_read_first hreach 0x341 .machine 7
  obtain ⟨-, -, -, hkept, hwhole⟩ := set_and_clear_read_first hreach 0x344 .machine 2
  refine ⟨hreach, (hepc (by decide)).1, ⟨_, rfl, ?_⟩, ⟨_, rfl, ?_⟩⟩
  · refine Decidable.byContradiction fun hne => ?_
    exact absurd (hkept (.allOnes 32) _ rfl hne).2 (by decide)
  · rw [hwhole (· ||| 2) _ rfl]
    decide

end Hart

end Rv32
