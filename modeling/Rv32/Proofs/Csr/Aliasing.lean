import Rv32.Proofs.Csr.Permission
import Rv32.Proofs.Hart.Reachable

/-! # Registers that show the same state

Several registers of a bank are views of one piece of its state, so a write of
one of them shows in the others. The state falls into parts, every register
writes at most one of them, and the value of a register depends on the parts
that it shows. Which registers are tied to which can then be read off.
-/

namespace Rv32

/-- A piece of the state of a bank that is written as a whole or not at all. -/
inductive CsrPart where
  | status
  | delegatedExceptions
  | delegatedInterrupts
  | pending
  | enabled
  | machineVector
  | supervisorVector
  | clock
  | counter (h : Half)
  | plain (c : PlainCsr)
  deriving DecidableEq, Repr

namespace CsrPart

/-- Whether two banks hold the same in the part. Of what is pending only the visible bits count. -/
def Agrees (p : CsrPart) (b d : CsrBank) : Prop :=
  match p with
  | status => b.status = d.status
  | delegatedExceptions => b.delegation.exceptions = d.delegation.exceptions
  | delegatedInterrupts => b.delegation.interrupts = d.delegation.interrupts
  | pending => b.interrupts.mip = d.interrupts.mip
  | enabled => b.interrupts.mie = d.interrupts.mie
  | machineVector => b.mtvec = d.mtvec
  | supervisorVector => b.stvec = d.stvec
  | clock => b.clock = d.clock
  | counter h => DoubleWord.half b.retired h = DoubleWord.half d.retired h
  | plain c => b.plain.get c = d.plain.get c

def shownBy : CsrPart → List Csr
  | status => [.mstatus, .sstatus]
  | delegatedExceptions => [.medeleg]
  | delegatedInterrupts => [.mideleg, .sie, .sip]
  | pending => [.mip, .sip]
  | enabled => [.mie, .sie]
  | machineVector => [.mtvec]
  | supervisorVector => [.stvec]
  | clock => [.time, .timeh]
  | counter .low => [.mcycle, .minstret, .cycle, .instret]
  | counter .high => [.mcycleh, .minstreth, .cycleh, .instreth]
  | plain c => [.plain c]

end CsrPart

namespace Csr

def part? : Csr → Option CsrPart
  | mcycle => some (.counter .low)
  | minstret => some (.counter .low)
  | mcycleh => some (.counter .high)
  | minstreth => some (.counter .high)
  | sstatus => some .status
  | mstatus => some .status
  | sie => some .enabled
  | mie => some .enabled
  | sip => some .pending
  | mip => some .pending
  | stvec => some .supervisorVector
  | mtvec => some .machineVector
  | medeleg => some .delegatedExceptions
  | mideleg => some .delegatedInterrupts
  | plain c => some (.plain c)
  | _ => none

/-- The other registers in which a write of the register may show. -/
def aliases : Csr → List Csr
  | mstatus => [sstatus]
  | sstatus => [mstatus]
  | mie => [sie]
  | sie => [mie]
  | mip => [sip]
  | sip => [mip]
  | mideleg => [sie, sip]
  | mcycle => [minstret, cycle, instret]
  | minstret => [mcycle, cycle, instret]
  | mcycleh => [minstreth, cycleh, instreth]
  | minstreth => [mcycleh, cycleh, instreth]
  | _ => []

/-- The aliases of a register are the other registers that show what it writes. -/
theorem aliases_eq_erase {a : Csr} {p : CsrPart} (ha : a.part? = some p) :
    a.aliases = p.shownBy.erase a := by
  cases a with
  | plain r =>
      cases ha
      simp [aliases, CsrPart.shownBy]
  | _ => cases ha <;> rfl

theorem mem_aliases {a c : Csr} {p : CsrPart} (ha : a.part? = some p) (hc : c ∈ p.shownBy)
    (hne : c ≠ a) : c ∈ a.aliases := by
  rw [aliases_eq_erase ha]
  exact (List.mem_erase_of_ne hne).mpr hc

theorem isReadOnly_of_alias {a c : Csr} (hc : c ∈ a.aliases) : a.number.isReadOnly = false := by
  cases a with
  | plain r => cases hc
  | _ => first | rfl | cases hc

end Csr

namespace CsrBank

/-! ## What a write changes and what a value depends on -/

/-- A write of one half of a counter keeps the other. -/
theorem half_mergeHalf_of_ne (v : DoubleWord) {h k : Half} (hne : h ≠ k) (value mask : Word) :
    DoubleWord.half (mergeHalf v h value mask) k = DoubleWord.half v k := by
  unfold mergeHalf
  rw [DoubleWord.half_withHalf, if_neg hne]

/-- A write leaves every part of the bank as it was but the one that it goes to. -/
theorem agrees_update (b : CsrBank) {a : Csr} {p : CsrPart} (hp : a.part? ≠ some p)
    (value mask : Word) : p.Agrees b (b.update a value mask) := by
  cases p with
  | counter k =>
      have hhalf (h : Half) (hne : some (CsrPart.counter h) ≠ some (.counter k)) :
          DoubleWord.half b.retired k = DoubleWord.half (mergeHalf b.retired h value mask) k := by
        refine (half_mergeHalf_of_ne b.retired (fun heq => hne ?_) value mask).symm
        rw [heq]
      cases a with
      | mcycle => exact hhalf .low hp
      | minstret => exact hhalf .low hp
      | mcycleh => exact hhalf .high hp
      | minstreth => exact hhalf .high hp
      | _ => rfl
  | plain c =>
      cases a with
      | plain d =>
          have hne : d ≠ c := fun heq => hp (by rw [heq]; rfl)
          change b.plain.get c = (b.plain.set d _).get c
          rw [PlainCsrs.get_set, if_neg hne]
      | _ => rfl
  | _ =>
      cases a with
      | _ => first | rfl | exact absurd rfl hp

/-- The value of a register depends on the parts that show in it and on nothing else. -/
theorem value_eq_of_agrees {b d : CsrBank} {c : Csr}
    (h : ∀ p : CsrPart, c ∈ p.shownBy → p.Agrees b d) : b.value c = d.value c := by
  cases c with
  | cycle => exact h (.counter .low) (by decide)
  | instret => exact h (.counter .low) (by decide)
  | mcycle => exact h (.counter .low) (by decide)
  | minstret => exact h (.counter .low) (by decide)
  | cycleh => exact h (.counter .high) (by decide)
  | instreth => exact h (.counter .high) (by decide)
  | mcycleh => exact h (.counter .high) (by decide)
  | minstreth => exact h (.counter .high) (by decide)
  | time => exact congrArg (fun t => DoubleWord.half t .low) (h .clock (by decide))
  | timeh => exact congrArg (fun t => DoubleWord.half t .high) (h .clock (by decide))
  | sstatus => exact congrArg Status.supervisorView (h .status (by decide))
  | mstatus => exact congrArg Status.pack (h .status (by decide))
  | stvec => exact congrArg TrapVector.value (h .supervisorVector (by decide))
  | mtvec => exact congrArg TrapVector.value (h .machineVector (by decide))
  | medeleg => exact h .delegatedExceptions (by decide)
  | mideleg => exact h .delegatedInterrupts (by decide)
  | mie => exact h .enabled (by decide)
  | mip => exact h .pending (by decide)
  | sie =>
      have henabled : b.interrupts.mie = d.interrupts.mie := h .enabled (by decide)
      have hdelegated : b.delegation.interrupts = d.delegation.interrupts :=
        h .delegatedInterrupts (by decide)
      change b.interrupts.mie &&& b.delegation.interrupts = _
      rw [henabled, hdelegated]
      rfl
  | sip =>
      have hpending : b.interrupts.mip = d.interrupts.mip := h .pending (by decide)
      have hdelegated : b.delegation.interrupts = d.delegation.interrupts :=
        h .delegatedInterrupts (by decide)
      change b.interrupts.mip &&& b.delegation.interrupts = _
      rw [hpending, hdelegated]
      rfl
  | plain r => exact h (.plain r) (by simp [CsrPart.shownBy])
  | mvendorid => rfl
  | marchid => rfl
  | mimpid => rfl
  | mhartid => rfl
  | mconfigptr => rfl
  | misa => rfl
  | mstatush => rfl

/-- A write shows in the register itself and in its aliases only. -/
theorem value_update_of_not_alias (b : CsrBank) {a c : Csr} (hne : c ≠ a) (hc : c ∉ a.aliases)
    (value mask : Word) : (b.update a value mask).value c = b.value c := by
  symm
  refine value_eq_of_agrees fun p hp => b.agrees_update (fun ha => ?_) value mask
  exact hc (Csr.mem_aliases ha hp hne)

/-! ## Machine mode -/

/-- Machine mode has access to every register, whatever the bank holds. -/
theorem access_machine (b : CsrBank) (c : Csr) : b.access c.number .machine = .ok c := by
  refine access_eq_ok_iff.mpr ⟨rfl, CsrNumber.isListed_number c, ?_, fun i _ _ => .inl rfl⟩
  have hthree : Level.machine.rank = 3 := rfl
  omega

theorem read_machine (b : CsrBank) (c : Csr) : b.read c.number .machine = .ok (b.value c) :=
  read_eq_ok_iff.mpr ⟨c, b.access_machine c, rfl⟩

theorem writeMasked_machine (b : CsrBank) {c : Csr} (hc : c.number.isReadOnly = false)
    (value mask : Word) :
    b.writeMasked c.number value mask .machine = .ok (b.update c value mask) :=
  writeMasked_eq_ok_iff.mpr ⟨c, b.access_machine c, hc, rfl⟩

/-- A number whose read depends on the bank in machine mode is that of a register. -/
theorem exists_number_of_read_ne {b d : CsrBank} {n : CsrNumber}
    (h : b.read n .machine ≠ d.read n .machine) : ∃ c : Csr, c.number = n := by
  cases hn : Csr.ofNumber? n with
  | some c => exact ⟨c, Csr.number_of_ofNumber? hn⟩
  | none =>
      have hrefused (x : CsrBank) : x.read n .machine = .error .illegalInstruction := by
        simp only [read, access, hn]
      exact absurd ((hrefused b).trans (hrefused d).symm) h

/-! ## A bank in which every alias shows -/

def filled (b : CsrBank) (cs : List Csr) : CsrBank :=
  cs.foldl (fun b c => b.update c (.allOnes 32) (.allOnes 32)) b

end CsrBank

namespace Hart

theorem Reachable.update {h : Hart} (hreach : h.Reachable) {c : Csr}
    (hc : c.number.isReadOnly = false) (value mask : Word) :
    { h with csrs := h.csrs.update c value mask }.Reachable :=
  .operated hreach
    (.wroteMasked c.number value mask .machine _ (h.csrs.writeMasked_machine hc value mask))

theorem Reachable.filled {h : Hart} (hreach : h.Reachable) {cs : List Csr}
    (hcs : ∀ c ∈ cs, c.number.isReadOnly = false) :
    { h with csrs := h.csrs.filled cs }.Reachable := by
  induction cs generalizing h with
  | nil => exact hreach
  | cons c rest ih =>
      have hwritten := hreach.update (hcs c List.mem_cons_self) (.allOnes 32) (.allOnes 32)
      exact ih hwritten fun d hd => hcs d (List.mem_cons_of_mem c hd)

/-- A hart with all bits set in the parts of its bank that more than one register shows. -/
def crowded : Hart :=
  { initial defaultResetVector .trap 0 with
    csrs := (CsrBank.initial 0).filled [.mideleg, .mie, .mip, .mstatus, .mcycle, .mcycleh] }

theorem reachable_crowded : crowded.Reachable :=
  Reachable.filled (.initial defaultResetVector .trap 0) (by decide)

/-- There a write of zero shows in every alias of the register that is written. -/
theorem value_update_crowded {a c : Csr} (hc : c ∈ a.aliases) :
    (crowded.csrs.update a 0 (.allOnes 32)).value c ≠ crowded.csrs.value c := by
  cases a with
  | plain r => cases hc
  | _ =>
      revert c
      decide +kernel

end Hart

namespace CsrBank

/--
What a write in machine mode changes in the value that machine mode reads under
another number, it changes in an alias of the register that is written. That
goes for every bank, and there is one that a hart comes to in which every write
of zero shows in all the aliases.
-/
theorem write_shows_in_aliases :
    (∀ (b after : CsrBank) (n k : CsrNumber) (value mask : Word),
        b.writeMasked n value mask .machine = .ok after → k ≠ n →
        after.read k .machine ≠ b.read k .machine →
        ∃ a c : Csr, a.number = n ∧ c.number = k ∧ c ∈ a.aliases) ∧
      ∃ h : Hart, h.Reachable ∧ ∀ a c : Csr, c ∈ a.aliases → ∃ after,
        h.csrs.writeMasked a.number 0 (.allOnes 32) .machine = .ok after ∧
          after.read c.number .machine ≠ h.csrs.read c.number .machine := by
  refine ⟨?only, Hart.crowded, Hart.reachable_crowded, ?shown⟩
  case only =>
    intro b after n k value mask hwrite hne hread
    obtain ⟨a, ha, -, rfl⟩ := writeMasked_eq_ok_iff.mp hwrite
    obtain ⟨rfl, -⟩ := access_eq_ok_iff.mp ha
    obtain ⟨c, rfl⟩ := exists_number_of_read_ne hread
    refine ⟨a, c, rfl, rfl, Decidable.not_not.mp fun hc => hread ?_⟩
    have hca : c ≠ a := fun heq => hne (congrArg Csr.number heq)
    rw [read_machine, read_machine, b.value_update_of_not_alias hca hc]
  case shown =>
    intro a c hc
    refine ⟨_, Hart.crowded.csrs.writeMasked_machine (Csr.isReadOnly_of_alias hc) 0 _, ?_⟩
    rw [read_machine, read_machine]
    exact fun hsame => Hart.value_update_crowded hc (Except.ok.inj hsame)

/-- The end of all delegation shows in the supervisor's enable register. -/
theorem write_shows_in_aliases_delegation :
    let b := Hart.crowded.csrs
    let after := b.update .mideleg 0 (.allOnes 32)
    b.writeMasked 0x303 0 (.allOnes 32) .machine = .ok after ∧
      after.read 0x104 .machine ≠ b.read 0x104 .machine ∧
      ∃ a c : Csr, a.number = 0x303 ∧ c.number = 0x104 ∧ c ∈ a.aliases := by
  intro b after
  have hwrite : b.writeMasked 0x303 0 (.allOnes 32) .machine = .ok after := rfl
  have hread : after.read 0x104 .machine ≠ b.read 0x104 .machine := by
    have hvalue : after.value .sie ≠ b.value .sie :=
      Hart.value_update_crowded (a := .mideleg) (by decide)
    exact fun hsame => hvalue (Except.ok.inj hsame)
  obtain ⟨honly, -⟩ := write_shows_in_aliases
  exact ⟨hwrite, hread, honly b after 0x303 0x104 0 (.allOnes 32) hwrite (by decide) hread⟩

end CsrBank

end Rv32
