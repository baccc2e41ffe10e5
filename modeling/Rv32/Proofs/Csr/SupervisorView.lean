import Rv32.Proofs.Csr.Access
import Rv32.Proofs.Csr.Status
import Rv32.Proofs.Trap.Pending

/-! # What the supervisor sees of the register bank

Three registers of the supervisor are views of registers of the machine. The
view of the status register is the register with the fields of machine mode
cleared, and a write through a view depends on nothing that the view leaves out.
So two banks that show the supervisor the same also do so after the same write.
-/

namespace Rv32

/-- What a masked write within `bound` leaves within `bound` depends on nothing outside. -/
theorem Word.merge_and (old value mask bound : Word) :
    merge old value (mask &&& bound) &&& bound =
      merge (old &&& bound) value (mask &&& bound) := by
  apply BitVec.eq_of_getLsbD_eq
  intro i _
  simp only [BitVec.getLsbD_and, getLsbD_merge]
  cases bound.getLsbD i <;> simp

theorem VectorMode.ofBits?_bits (m : VectorMode) : ofBits? m.bits = some m := by
  cases m <;> rfl

theorem TrapVector.value_injective {v w : TrapVector} (h : v.value = w.value) : v = w := by
  have hbits := congrArg (fun x : Word => x.extractLsb' 0 2) h
  have hbase := congrArg (fun x : Word => x.extractLsb' 2 30) h
  have hmode (u : TrapVector) : u.value.extractLsb' 0 2 = u.mode.bits :=
    BitVec.extractLsb'_append_eq_right
  have hhigh (u : TrapVector) : u.value.extractLsb' 2 30 = u.baseBits :=
    BitVec.extractLsb'_append_eq_left
  simp only [hmode] at hbits
  simp only [hhigh] at hbase
  have hsome : some v.mode = some w.mode := by
    rw [← VectorMode.ofBits?_bits, ← VectorMode.ofBits?_bits, hbits]
  cases v
  cases w
  simp_all

/-! ## The status register -/

namespace Status

def visible (s : Status) : Status :=
  { s with
    mie := false
    mpie := false
    mpp := .user
    mprv := false
    tvm := false
    tw := false
    tsr := false }

theorem supervisorView_eq_pack (s : Status) : s.supervisorView = s.visible.pack := by
  have hmask : supervisorMask =
      1#1 ++ 0xFF#8 ++ 0#1 ++ 0#1 ++ 0#1 ++ 1#1 ++ 1#1 ++ 0#1 ++ 3#2 ++ 3#2 ++ 0#2 ++ 3#2
        ++ 1#1 ++ 0#1 ++ 1#1 ++ 1#1 ++ 1#1 ++ 0#1 ++ 1#1 ++ 1#1 ++ 1#1 := by decide
  have hone (b : BitVec 1) : b &&& 1#1 = b := BitVec.and_allOnes
  have hthree (b : BitVec 2) : b &&& 3#2 = b := BitVec.and_allOnes
  unfold supervisorView
  rw [hmask]
  refine BitVec.and_append.trans ?_
  simp only [BitVec.and_append, hone, hthree, BitVec.and_zero, BitVec.zero_and]
  rfl

theorem supervisorView_eq_iff {s t : Status} :
    s.supervisorView = t.supervisorView ↔ s.visible = t.visible := by
  rw [supervisorView_eq_pack, supervisorView_eq_pack]
  constructor
  · intro h
    rw [← s.visible.unpack_pack, h, unpack_pack]
  · intro h
    rw [h]

/-- The mask keeps the bits of the visible fields and clears those of the others. -/
theorem unpack_and_supervisorMask (w : Word) :
    unpack (w &&& supervisorMask) = (unpack w).visible := by
  have hclear (i : Nat) (h : supervisorMask.getLsbD i = false) :
      (w &&& supervisorMask).getLsbD i = false := by
    rw [BitVec.getLsbD_and, h, Bool.and_false]
  have hkept (i : Nat) (h : supervisorMask.getLsbD i = true) :
      (w &&& supervisorMask).getLsbD i = w.getLsbD i := by
    rw [BitVec.getLsbD_and, h, Bool.and_true]
  have hfield (lo : Nat) (h : supervisorMask.extractLsb' lo 2 = BitVec.allOnes 2) :
      (w &&& supervisorMask).extractLsb' lo 2 = w.extractLsb' lo 2 := by
    rw [BitVec.extractLsb'_and, h, BitVec.and_allOnes]
  have hmpp : (w &&& supervisorMask).extractLsb' 11 2 = 0 := by
    have hzero : supervisorMask.extractLsb' 11 2 = 0 := by decide
    rw [BitVec.extractLsb'_and, hzero]
    exact BitVec.and_zero
  unfold unpack visible
  rw [hmpp, hfield 9 (by decide), hfield 13 (by decide), hfield 15 (by decide)]
  simp only [hclear 3 (by decide), hclear 7 (by decide), hclear 17 (by decide),
    hclear 20 (by decide), hclear 21 (by decide), hclear 22 (by decide), hkept 1 (by decide),
    hkept 5 (by decide), hkept 6 (by decide), hkept 8 (by decide), hkept 18 (by decide),
    hkept 19 (by decide), hkept 31 (by decide)]
  rfl

variable {s t : Status}

/-- The rules for legal values look at visible fields only, but for the reserved level. -/
theorem visible_legalize_congr {old₁ old₂ : Status} (h : s.visible = t.visible) :
    (s.legalize old₁).visible = (t.legalize old₂).visible := by
  have hvisible (u old : Status) : (u.legalize old).visible =
      { u.visible with
        ube := false
        xs := .off
        sd := u.visible.fs = .dirty || u.visible.vs = .dirty } := rfl
  rw [hvisible, hvisible, h]

theorem supervisorView_writeSupervisor_congr (value mask : Word)
    (h : s.supervisorView = t.supervisorView) :
    (s.writeSupervisor value mask).supervisorView =
      (t.writeSupervisor value mask).supervisorView := by
  rw [supervisorView_eq_iff]
  apply visible_legalize_congr
  have hmerged (u : Status) :
      Word.merge u.pack value (mask &&& supervisorMask) &&& supervisorMask =
        Word.merge u.supervisorView value (mask &&& supervisorMask) :=
    Word.merge_and u.pack value mask supervisorMask
  rw [← unpack_and_supervisorMask, ← unpack_and_supervisorMask, hmerged, hmerged, h]

theorem supervisorView_leaveSupervisor_congr (h : s.supervisorView = t.supervisorView) :
    s.leaveSupervisor.supervisorView = t.leaveSupervisor.supervisorView := by
  rw [supervisorView_eq_iff] at *
  have hvisible (u : Status) : u.leaveSupervisor.visible =
      { u.visible with sie := u.visible.spie, spie := true, spp := false } := rfl
  rw [hvisible, hvisible, h]

theorem sppLevel_congr (h : s.supervisorView = t.supervisorView) : s.sppLevel = t.sppLevel := by
  have hvisible (u : Status) : u.sppLevel = u.visible.sppLevel := rfl
  rw [hvisible s, hvisible t, supervisorView_eq_iff.mp h]

end Status

/-! ## Interrupts -/

namespace Interrupts

variable {s t : Interrupts} {d e : Delegation}

theorem sie_writeSie_congr (value mask : Word) (hd : d.interrupts = e.interrupts)
    (h : s.sie d = t.sie e) :
    (s.writeSie value mask d).sie d = (t.writeSie value mask e).sie e := by
  have hwritten (u : Interrupts) (d : Delegation) : (u.writeSie value mask d).sie d =
      Word.merge (u.sie d) value (mask &&& enableMask &&& d.interrupts) := by
    have hmask : mask &&& d.interrupts &&& enableMask = mask &&& enableMask &&& d.interrupts := by
      rw [BitVec.and_assoc, BitVec.and_comm d.interrupts, ← BitVec.and_assoc]
    have hmerged := Word.merge_and u.mie value (mask &&& enableMask) d.interrupts
    unfold sie writeSie writeMie
    rw [hmask]
    exact hmerged
  rw [hwritten, hwritten, h, hd]

theorem isPending_congr (h : s.mip = t.mip) (i : Interrupt) : s.isPending i = t.isPending i := by
  rw [← getLsbD_mip_code, ← getLsbD_mip_code, h]

theorem mip_writeSip_congr (value mask : Word) (hd : d.interrupts = e.interrupts)
    (h : s.mip = t.mip) : (s.writeSip value mask d).mip = (t.writeSip value mask e).mip := by
  apply BitVec.eq_of_getLsbD_eq
  intro k _
  apply getLsbD_mip_congr
  intro i _
  by_cases hi : i = .supervisorSoftware
  · subst hi
    have hssip : s.ssip = t.ssip := isPending_congr h .supervisorSoftware
    have hdelegated : d.delegatesInterrupt .supervisorSoftware =
        e.delegatesInterrupt .supervisorSoftware := by
      unfold Delegation.delegatesInterrupt
      rw [hd]
    rw [writeSip_eq, writeSip_eq, hdelegated]
    simp only [isPending, hssip]
  · have hother (hsoftware : i = .supervisorSoftware) (f : Delegation) :
        f.delegatesInterrupt i = false := absurd hsoftware hi
    rw [isPending_writeSip t value mask e (hother · e),
      isPending_writeSip s value mask d (hother · d)]
    exact isPending_congr h i

end Interrupts

/-! ## The bank -/

namespace CsrBank

/--
The banks agree on the registers that software below machine mode reads, and on
the registers of machine mode that decide over its accesses, its waits and its
trap returns. Everything else may differ.
-/
structure AgreeBelowMachine (b c : CsrBank) : Prop where
  sstatus : b.value .sstatus = c.value .sstatus
  sie : b.value .sie = c.value .sie
  sip : b.value .sip = c.value .sip
  stvec : b.value .stvec = c.value .stvec
  plain : ∀ r : PlainCsr, r.isMachineOwned = false → b.value (.plain r) = c.value (.plain r)
  mideleg : b.value .mideleg = c.value .mideleg
  mip : b.value .mip = c.value .mip
  mcounteren : b.value (.plain .mcounteren) = c.value (.plain .mcounteren)
  tsr : b.status.tsr = c.status.tsr
  tw : b.status.tw = c.status.tw
  retired : b.retired = c.retired
  clock : b.clock = c.clock

variable {b c : CsrBank}

theorem AgreeBelowMachine.access_eq (h : AgreeBelowMachine b c) (n : CsrNumber) (level : Level) :
    b.access n level = c.access n level := by
  have hopens (r : Csr) : b.opensCounter r level = c.opensCounter r level := by
    have hm : b.plain.get .mcounteren = c.plain.get .mcounteren := h.mcounteren
    have hs : b.plain.get .scounteren = c.plain.get .scounteren := h.plain .scounteren rfl
    unfold opensCounter
    rw [hm, hs]
  unfold access
  simp only [hopens]

theorem AgreeBelowMachine.value_eq (h : AgreeBelowMachine b c) {r : Csr} {level : Level}
    (hbelow : level ≠ .machine) (hlevel : r.number.requiredLevel.rank ≤ level.rank) :
    b.value r = c.value r := by
  have hown : r.number.requiredLevel ≠ .machine := by
    intro hmachine
    rw [hmachine] at hlevel
    cases level with
    | machine => exact hbelow rfl
    | user => exact absurd hlevel (by decide)
    | supervisor => exact absurd hlevel (by decide)
  cases r with
  | cycle => exact congrArg (fun v => DoubleWord.half v .low) h.retired
  | instret => exact congrArg (fun v => DoubleWord.half v .low) h.retired
  | cycleh => exact congrArg (fun v => DoubleWord.half v .high) h.retired
  | instreth => exact congrArg (fun v => DoubleWord.half v .high) h.retired
  | time => exact congrArg (fun v => DoubleWord.half v .low) h.clock
  | timeh => exact congrArg (fun v => DoubleWord.half v .high) h.clock
  | sstatus => exact h.sstatus
  | sie => exact h.sie
  | stvec => exact h.stvec
  | sip => exact h.sip
  | plain p =>
      cases hp : p.isMachineOwned with
      | false => exact h.plain p hp
      | true =>
          rw [Csr.requiredLevel_plain, hp] at hown
          exact absurd rfl hown
  | _ => exact absurd rfl hown

theorem AgreeBelowMachine.read_eq (h : AgreeBelowMachine b c) {level : Level}
    (hbelow : level ≠ .machine) (n : CsrNumber) : b.read n level = c.read n level := by
  unfold read
  rw [h.access_eq]
  cases hr : c.access n level with
  | error e => rfl
  | ok r =>
      obtain ⟨hn, hlevel, -⟩ := access_eq_ok hr
      subst hn
      simp only [h.value_eq hbelow hlevel]

/-! ### Writes -/

theorem AgreeBelowMachine.setPlain (h : AgreeBelowMachine b c) {r : PlainCsr}
    (hr : r.isMachineOwned = false) (v : Word) :
    AgreeBelowMachine (b.setPlain r v) (c.setPlain r v) := by
  refine { h with plain := ?_, mcounteren := ?_ }
  · intro q hq
    change (b.plain.set r v).get q = (c.plain.set r v).get q
    rw [PlainCsrs.get_set, PlainCsrs.get_set]
    split
    · rfl
    · exact h.plain q hq
  · have hne : r ≠ .mcounteren := by
      rintro rfl
      cases hr
    change (b.plain.set r v).get .mcounteren = (c.plain.set r v).get .mcounteren
    rw [PlainCsrs.get_set, PlainCsrs.get_set, if_neg hne, if_neg hne]
    exact h.mcounteren

theorem AgreeBelowMachine.withStatus (h : AgreeBelowMachine b c) {s t : Status}
    (hview : s.supervisorView = t.supervisorView) (htsr : s.tsr = t.tsr) (htw : s.tw = t.tw) :
    AgreeBelowMachine { b with status := s } { c with status := t } :=
  { h with sstatus := hview, tsr := htsr, tw := htw }

theorem AgreeBelowMachine.update (h : AgreeBelowMachine b c) {r : Csr} (value mask : Word)
    (hr : r.isSupervisorWritable = true) :
    AgreeBelowMachine (b.update r value mask) (c.update r value mask) := by
  have hd : b.delegation.interrupts = c.delegation.interrupts := h.mideleg
  cases r with
  | sstatus =>
      have hb := Status.machineFieldsKept_writeSupervisor b.status value mask
      have hc := Status.machineFieldsKept_writeSupervisor c.status value mask
      refine h.withStatus (Status.supervisorView_writeSupervisor_congr value mask h.sstatus) ?_ ?_
      · rw [hb.tsr, hc.tsr, h.tsr]
      · rw [hb.tw, hc.tw, h.tw]
  | stvec =>
      have hvector : b.stvec = c.stvec := TrapVector.value_injective h.stvec
      refine { h with stvec := ?_ }
      change (b.stvec.write value mask).value = (c.stvec.write value mask).value
      rw [hvector]
  | sie => exact { h with sie := Interrupts.sie_writeSie_congr value mask hd h.sie }
  | sip =>
      have hmip := Interrupts.mip_writeSip_congr value mask hd h.mip
      refine { h with mip := hmip, sip := ?_ }
      change (b.interrupts.writeSip value mask b.delegation).mip &&& b.delegation.interrupts =
        (c.interrupts.writeSip value mask c.delegation).mip &&& c.delegation.interrupts
      rw [hmip, hd]
  | plain p =>
      have hp : p.isMachineOwned = false := by simpa [Csr.isSupervisorWritable] using hr
      have hold : b.plain.get p = c.plain.get p := h.plain p hp
      change AgreeBelowMachine (b.setPlain p _) (c.setPlain p _)
      rw [hold]
      exact h.setPlain hp _
  | _ => cases hr

/-- A write is refused by both banks or by neither, and then they agree afterwards. -/
theorem AgreeBelowMachine.writeMasked (h : AgreeBelowMachine b c) {level : Level}
    (hbelow : level ≠ .machine) (n : CsrNumber) (value mask : Word) :
    (∃ e, b.writeMasked n value mask level = .error e ∧
        c.writeMasked n value mask level = .error e) ∨
      ∃ b₁ c₁, b.writeMasked n value mask level = .ok b₁ ∧
        c.writeMasked n value mask level = .ok c₁ ∧ AgreeBelowMachine b₁ c₁ := by
  have haccess := h.access_eq n level
  unfold CsrBank.writeMasked
  cases hr : c.access n level with
  | error e =>
      rw [hr] at haccess
      rw [haccess]
      exact .inl ⟨e, rfl, rfl⟩
  | ok r =>
      rw [hr] at haccess
      rw [haccess]
      obtain ⟨hn, hlevel, -⟩ := access_eq_ok hr
      subst hn
      cases hro : r.number.isReadOnly with
      | true => exact .inl ⟨.illegalInstruction, by simp, by simp⟩
      | false =>
          have hwritable := (Csr.supervisor_of_writable hbelow hlevel hro).2
          exact .inr ⟨_, _, by simp, by simp, h.update value mask hwritable⟩

end CsrBank

end Rv32
