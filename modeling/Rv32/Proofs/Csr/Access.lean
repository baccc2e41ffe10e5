import Rv32.Csr.Bank

/-! # Which register a checked access reaches

A number determines its register and is determined by it, so the level that an
access needs and whether it may write can be read off the register. Below
machine mode the registers that can be written are those of the supervisor, and
in user mode there are none.
-/

namespace Rv32

namespace PlainCsr

def isMachineOwned : PlainCsr → Bool
  | mcounteren => true
  | mcountinhibit => true
  | mscratch => true
  | mepc => true
  | mcause => true
  | mtval => true
  | menvcfg => true
  | menvcfgh => true
  | pmpcfg _ => true
  | pmpaddr _ => true
  | scounteren => false
  | senvcfg => false
  | sscratch => false
  | sepc => false
  | scause => false
  | stval => false
  | satp => false

end PlainCsr

namespace Csr

theorem number_of_ofNumber? {n : CsrNumber} {c : Csr} (h : ofNumber? n = some c) :
    c.number = n := by
  unfold ofNumber? at h
  split at h
  all_goals try
    rename_i hn
    cases h
    exact BitVec.eq_of_toNat_eq hn.symm
  -- What is left are the two ranges of numbered registers.
  split at h
  · cases h
    apply BitVec.eq_of_toNat_eq
    change (0x3A0 + (n.toNat - 0x3A0) % 65536) % 65536 = n.toNat
    omega
  · split at h
    · cases h
      apply BitVec.eq_of_toNat_eq
      change (0x3B0 + (n.toNat - 0x3B0) % 65536) % 65536 = n.toNat
      omega
    · cases h

theorem ofNumber?_number (c : Csr) : ofNumber? c.number = some c := by
  cases c with
  | plain p =>
      cases p with
      | pmpcfg i =>
          revert i
          decide
      | pmpaddr i =>
          revert i
          decide
      | _ => rfl
  | _ => rfl

theorem number_injective {c d : Csr} (h : c.number = d.number) : c = d := by
  have hsome := congrArg ofNumber? h
  rw [ofNumber?_number, ofNumber?_number] at hsome
  exact Option.some.inj hsome

def isSupervisorWritable : Csr → Bool
  | sstatus => true
  | sie => true
  | stvec => true
  | sip => true
  | plain c => !c.isMachineOwned
  | _ => false

theorem requiredLevel_plain (c : PlainCsr) :
    (plain c).number.requiredLevel = if c.isMachineOwned then .machine else .supervisor := by
  cases c with
  | pmpcfg i =>
      revert i
      decide
  | pmpaddr i =>
      revert i
      decide
  | _ => rfl

theorem requiredLevel_of_isSupervisorWritable {c : Csr} (h : c.isSupervisorWritable = true) :
    c.number.requiredLevel = .supervisor := by
  cases c with
  | plain c =>
      have howned : c.isMachineOwned = false := by simpa [isSupervisorWritable] using h
      rw [requiredLevel_plain, howned]
      rfl
  | _ => first | rfl | exact absurd h (by decide)

/-- A register that the supervisor cannot write is read-only or one of machine mode. -/
theorem isReadOnly_or_requiredLevel {c : Csr} (h : c.isSupervisorWritable = false) :
    c.number.isReadOnly = true ∨ c.number.requiredLevel = .machine := by
  cases c with
  | plain c =>
      have howned : c.isMachineOwned = true := by simpa [isSupervisorWritable] using h
      right
      rw [requiredLevel_plain, howned]
      rfl
  | _ => first | exact absurd h (by decide) | decide

/-- The registers that are opened to lower levels one by one are read-only. -/
theorem guardBit?_of_writable {c : Csr} (h : c.number.isReadOnly = false) :
    c.guardBit? = none := by
  cases c with
  | _ => first | rfl | exact absurd h (by decide)

/-- Below machine mode the supervisor alone writes registers, and only its own. -/
theorem supervisor_of_writable {c : Csr} {level : Level} (hbelow : level ≠ .machine)
    (hlevel : c.number.requiredLevel.rank ≤ level.rank) (hwrite : c.number.isReadOnly = false) :
    level = .supervisor ∧ c.isSupervisorWritable = true := by
  cases hc : c.isSupervisorWritable with
  | false =>
      exfalso
      rcases isReadOnly_or_requiredLevel hc with hro | hmachine
      · rw [hwrite] at hro
        cases hro
      · rw [hmachine] at hlevel
        cases level with
        | machine => exact hbelow rfl
        | user => exact absurd hlevel (by decide)
        | supervisor => exact absurd hlevel (by decide)
  | true =>
      rw [requiredLevel_of_isSupervisorWritable hc] at hlevel
      cases level with
      | machine => exact absurd rfl hbelow
      | user => exact absurd hlevel (by decide)
      | supervisor => exact ⟨rfl, rfl⟩

end Csr

namespace CsrBank

theorem access_eq_ok {b : CsrBank} {n : CsrNumber} {level : Level} {c : Csr}
    (h : b.access n level = .ok c) :
    c.number = n ∧ n.requiredLevel.rank ≤ level.rank ∧ b.opensCounter c level = true := by
  unfold access at h
  split at h
  · cases h
  · rename_i hn
    split at h
    · rename_i hcheck
      cases h
      exact ⟨Csr.number_of_ofNumber? hn, hcheck⟩
    · cases h

/-- Whether a register that can be written is reached does not depend on the bank. -/
theorem access_of_writable (b : CsrBank) {c : Csr} {level : Level}
    (hwrite : c.number.isReadOnly = false) (hlevel : c.number.requiredLevel.rank ≤ level.rank) :
    b.access c.number level = .ok c := by
  have hopen : b.opensCounter c level = true := by
    unfold opensCounter
    rw [Csr.guardBit?_of_writable hwrite]
  unfold access
  rw [Csr.ofNumber?_number]
  exact if_pos ⟨hlevel, hopen⟩

/-- What a write that is not refused has passed and has done. -/
theorem writeMasked_eq_ok {b after : CsrBank} {n : CsrNumber} {value mask : Word} {level : Level}
    (h : b.writeMasked n value mask level = .ok after) :
    ∃ c : Csr, c.number.requiredLevel.rank ≤ level.rank ∧ c.number.isReadOnly = false ∧
      after = b.update c value mask := by
  unfold writeMasked at h
  split at h
  · rename_i c hc
    obtain ⟨hn, hlevel, -⟩ := access_eq_ok hc
    subst hn
    split at h
    · cases h
    · rename_i hwrite
      cases h
      exact ⟨c, hlevel, by simpa using hwrite, rfl⟩
  · cases h

end CsrBank

end Rv32
