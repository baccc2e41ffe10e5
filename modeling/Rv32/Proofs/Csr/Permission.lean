import Rv32.Hart.Execution
import Rv32.Proofs.Csr.Access

/-! # Who may access which register

An access names its register by a number of sixteen bits. Whether it is allowed
can be said of the number and the level alone, but for the unprivileged
counters, which two registers open bit by bit. The rule here is stated on
numbers and ranges; the bank decides by register, and the two agree.
-/

namespace Rv32

/-! ## Numbers -/

namespace CsrNumber

/-- The ranges of numbers that registers have, with both ends included. -/
def ranges : List (Nat × Nat) :=
  [(0xC00, 0xC02), (0xC80, 0xC82), (0x100, 0x100), (0x104, 0x106), (0x10A, 0x10A), (0x140, 0x144),
    (0x180, 0x180), (0xF11, 0xF15), (0x300, 0x306), (0x310, 0x310), (0x30A, 0x30A), (0x31A, 0x31A),
    (0x320, 0x320), (0x340, 0x344), (0x3A0, 0x3A3), (0x3B0, 0x3BF), (0xB00, 0xB00), (0xB02, 0xB02),
    (0xB80, 0xB80), (0xB82, 0xB82)]

def IsListed (n : CsrNumber) : Prop :=
  ∃ r ∈ ranges, r.1 ≤ n.toNat ∧ n.toNat ≤ r.2

instance (n : CsrNumber) : Decidable n.IsListed :=
  inferInstanceAs (Decidable (∃ r ∈ ranges, r.1 ≤ n.toNat ∧ n.toNat ≤ r.2))

def listed : List Nat :=
  ranges.flatMap fun r => List.range' r.1 (r.2 + 1 - r.1)

theorem isListed_iff_mem (n : CsrNumber) : n.IsListed ↔ n.toNat ∈ listed := by
  unfold IsListed listed
  rw [List.mem_flatMap]
  refine exists_congr fun r => and_congr_right fun _ => ?_
  rw [List.mem_range'_1]
  omega

theorem isListed_number (c : Csr) : c.number.IsListed := by
  cases c with
  | plain p =>
      cases p with
      | pmpcfg i =>
          revert i
          decide
      | pmpaddr i =>
          revert i
          decide
      | _ => decide
  | _ => decide

theorem isSupported_iff (n : CsrNumber) : n.isSupported = true ↔ n.IsListed := by
  constructor
  · intro h
    obtain ⟨c, hc⟩ := Option.isSome_iff_exists.mp h
    rw [← Csr.number_of_ofNumber? hc]
    exact isListed_number c
  · intro h
    have hall : ∀ k ∈ listed, (Csr.ofNumber? (BitVec.ofNat 16 k)).isSome = true := by decide
    have hn := hall n.toNat ((isListed_iff_mem n).mp h)
    rwa [BitVec.ofNat_toNat, BitVec.setWidth_eq] at hn

theorem lt_of_isListed {n : CsrNumber} (h : n.IsListed) : n.toNat < 4096 := by
  have hall : ∀ k ∈ listed, k < 4096 := by decide
  exact hall n.toNat ((isListed_iff_mem n).mp h)

/-- No register has a number with more than twelve bits. -/
theorem isValid_of_isSupported {n : CsrNumber} (h : n.isSupported = true) : n.isValid = true :=
  decide_eq_true (lt_of_isListed ((isSupported_iff n).mp h))

/-- The level that an access needs is held by two bits of the number. -/
theorem rank_requiredLevel (n : CsrNumber) : n.requiredLevel.rank = n.toNat / 256 % 4 := by
  unfold requiredLevel LevelField.rank
  rw [LevelField.bits_ofBits, BitVec.extractLsb'_toNat, Nat.shiftRight_eq_div_pow]

/-- Of a number with twelve bits the two highest say whether the register is read-only. -/
theorem isReadOnly_iff {n : CsrNumber} (h : n.toNat < 4096) :
    n.isReadOnly = true ↔ n.toNat / 1024 % 4 = 3 := by
  have hshift : (n >>> 10).toNat = n.toNat / 1024 := by
    rw [BitVec.toNat_ushiftRight, Nat.shiftRight_eq_div_pow]
  have hthree : (0b11 : CsrNumber).toNat = 3 := rfl
  unfold isReadOnly
  rw [decide_eq_true_iff, ← BitVec.toNat_inj, hshift, hthree]
  omega

end CsrNumber

/-- The counters that two registers open to lower levels are known by their numbers. -/
theorem Csr.guardBit?_eq_some_iff (c : Csr) (i : Nat) :
    c.guardBit? = some i ↔ i < 3 ∧ (c.number.toNat = 0xC00 + i ∨ c.number.toNat = 0xC80 + i) := by
  cases c with
  | plain p =>
      -- The counters are open to all levels by number, and no plain register is.
      have hlevel := (plain p).number.rank_requiredLevel
      have huser : (plain p).number.requiredLevel.rank ≠ 0 := by
        rw [requiredLevel_plain]
        split <;> decide
      constructor
      · intro h
        cases h
      · intro h
        omega
  | _ =>
      simp only [guardBit?, number, BitVec.reduceToNat, Option.some.injEq, reduceCtorEq, false_iff]
      omega

namespace CsrBank

/-! ## The rule -/

/-- Whether the enable registers open the counter with number `n`, if it is one, to `level`. -/
def OpensCounter (b : CsrBank) (n : CsrNumber) (level : Level) : Prop :=
  ∀ i < 3, n.toNat = 0xC00 + i ∨ n.toNat = 0xC80 + i →
    level = .machine ∨
      (b.value (.plain .mcounteren)).getLsbD i = true ∧
        (level = .supervisor ∨ (b.value (.plain .scounteren)).getLsbD i = true)

structure MayRead (b : CsrBank) (n : CsrNumber) (level : Level) : Prop where
  listed : n.IsListed
  privileged : n.toNat / 256 % 4 ≤ level.rank
  opened : b.OpensCounter n level

/-- What is asked of a write. Two bits of the number are set in those of read-only registers. -/
structure MayWrite (b : CsrBank) (n : CsrNumber) (level : Level) : Prop extends
    MayRead b n level where
  writable : n.toNat / 1024 % 4 ≠ 3

variable {b : CsrBank} {n : CsrNumber} {level : Level}

theorem opensCounter_iff (b : CsrBank) (c : Csr) (level : Level) :
    b.opensCounter c level = true ↔ b.OpensCounter c.number level := by
  have hguard := c.guardBit?_eq_some_iff
  unfold opensCounter
  cases hc : c.guardBit? with
  | none =>
      refine iff_of_true rfl fun i hi hn => ?_
      have hsome := (hguard i).mpr ⟨hi, hn⟩
      rw [hc] at hsome
      cases hsome
  | some bit =>
      obtain ⟨hbit, hnumber⟩ := (hguard bit).mp hc
      have honly : b.OpensCounter c.number level ↔
          level = .machine ∨
            (b.value (.plain .mcounteren)).getLsbD bit = true ∧
              (level = .supervisor ∨ (b.value (.plain .scounteren)).getLsbD bit = true) := by
        refine ⟨fun h => h bit hbit hnumber, fun h i hi hn => ?_⟩
        have hsome := (hguard i).mpr ⟨hi, hn⟩
        rw [hc] at hsome
        cases hsome
        exact h
      rw [honly]
      cases level <;> simp [value]

/-- An access that is accepted reaches the register of that number. -/
theorem access_eq_ok_iff {c : Csr} :
    b.access n level = .ok c ↔ c.number = n ∧ b.MayRead n level := by
  constructor
  · intro h
    obtain ⟨hn, hlevel, hopen⟩ := access_eq_ok h
    rw [CsrNumber.rank_requiredLevel] at hlevel
    rw [opensCounter_iff, hn] at hopen
    exact ⟨hn, hn ▸ CsrNumber.isListed_number c, hlevel, hopen⟩
  · rintro ⟨rfl, h⟩
    have hlevel := h.privileged
    rw [← CsrNumber.rank_requiredLevel] at hlevel
    have hopen := (opensCounter_iff b c level).mpr h.opened
    unfold access
    rw [Csr.ofNumber?_number]
    exact if_pos ⟨hlevel, hopen⟩

theorem exists_access_iff : (∃ c, b.access n level = .ok c) ↔ b.MayRead n level := by
  constructor
  · rintro ⟨c, hc⟩
    exact (access_eq_ok_iff.mp hc).2
  · intro h
    obtain ⟨c, hc⟩ := Option.isSome_iff_exists.mp ((CsrNumber.isSupported_iff n).mpr h.listed)
    exact ⟨c, access_eq_ok_iff.mpr ⟨Csr.number_of_ofNumber? hc, h⟩⟩

theorem access_eq_error {e : Exception} (h : b.access n level = .error e) :
    e = .illegalInstruction := by
  unfold access at h
  split at h
  · cases h
    rfl
  · split at h
    · cases h
    · cases h
      rfl

/-- The check as tests made one after the other, the first of them of the number alone. -/
def checkedAccess (b : CsrBank) (n : CsrNumber) (level : Level) : Except Exception Csr :=
  if !n.isValid || !n.isSupported then .error .illegalInstruction
  else if level.rank < n.requiredLevel.rank then .error .illegalInstruction
  else
    match Csr.ofNumber? n with
    | none => .error .illegalInstruction
    | some c => if b.opensCounter c level then .ok c else .error .illegalInstruction

theorem checkedAccess_eq (b : CsrBank) (n : CsrNumber) (level : Level) :
    b.checkedAccess n level = b.access n level := by
  unfold checkedAccess access
  cases hc : Csr.ofNumber? n with
  | none =>
      have hsupported : n.isSupported = false := by
        rw [CsrNumber.isSupported, hc]
        rfl
      rw [hsupported, Bool.not_false, Bool.or_true, if_pos rfl]
  | some c =>
      have hsupported : n.isSupported = true := by
        rw [CsrNumber.isSupported, hc]
        rfl
      rw [CsrNumber.isValid_of_isSupported hsupported, hsupported, Bool.not_true, Bool.or_false,
        if_neg Bool.false_ne_true]
      by_cases hlevel : level.rank < n.requiredLevel.rank
      · have hrefused : ¬ (n.requiredLevel.rank ≤ level.rank ∧ b.opensCounter c level = true) :=
          fun h => absurd h.1 (Nat.not_le.mpr hlevel)
        simp only [if_pos hlevel, if_neg hrefused]
      · simp only [if_neg hlevel, Nat.not_lt.mp hlevel, true_and]

/-! ## Reads and writes -/

theorem read_eq_ok_iff {v : Word} :
    b.read n level = .ok v ↔ ∃ c, b.access n level = .ok c ∧ v = b.value c := by
  unfold read
  cases b.access n level with
  | error e => simp
  | ok c => simp [eq_comm]

theorem exists_read_iff : (∃ v, b.read n level = .ok v) ↔ b.MayRead n level := by
  rw [← exists_access_iff]
  constructor
  · rintro ⟨v, hv⟩
    obtain ⟨c, hc, -⟩ := read_eq_ok_iff.mp hv
    exact ⟨c, hc⟩
  · rintro ⟨c, hc⟩
    exact ⟨b.value c, read_eq_ok_iff.mpr ⟨c, hc, rfl⟩⟩

theorem read_eq_error {e : Exception} (h : b.read n level = .error e) :
    e = .illegalInstruction := by
  unfold read at h
  split at h
  · cases h
  · rename_i hc
    cases h
    exact access_eq_error hc

/-- A write that is accepted reaches the register of that number, which is not read-only. -/
theorem writeMasked_eq_ok_iff {value mask : Word} {after : CsrBank} :
    b.writeMasked n value mask level = .ok after ↔
      ∃ c, b.access n level = .ok c ∧ n.isReadOnly = false ∧ after = b.update c value mask := by
  unfold writeMasked
  cases b.access n level with
  | error e => simp
  | ok c => cases n.isReadOnly <;> simp [eq_comm]

theorem exists_writeMasked_iff (value mask : Word) :
    (∃ after, b.writeMasked n value mask level = .ok after) ↔ b.MayWrite n level := by
  constructor
  · rintro ⟨after, h⟩
    obtain ⟨c, hc, hwritable, -⟩ := writeMasked_eq_ok_iff.mp h
    have hread := (access_eq_ok_iff.mp hc).2
    refine { hread with writable := fun hbits => ?_ }
    rw [← CsrNumber.isReadOnly_iff (CsrNumber.lt_of_isListed hread.listed), hwritable] at hbits
    cases hbits
  · intro h
    obtain ⟨c, hc⟩ := exists_access_iff.mpr h.toMayRead
    have hwritable : n.isReadOnly = false := by
      rw [Bool.eq_false_iff, ne_eq, CsrNumber.isReadOnly_iff (CsrNumber.lt_of_isListed h.listed)]
      exact h.writable
    exact ⟨_, writeMasked_eq_ok_iff.mpr ⟨c, hc, hwritable, rfl⟩⟩

theorem writeMasked_eq_error {value mask : Word} {e : Exception}
    (h : b.writeMasked n value mask level = .error e) : e = .illegalInstruction := by
  unfold writeMasked at h
  split at h
  · split at h
    · cases h
      rfl
    · cases h
  · rename_i hc
    cases h
    exact access_eq_error hc

/-! ## Higher levels -/

variable {higher : Level}

theorem MayRead.mono (h : b.MayRead n level) (hle : level ≤ higher) : b.MayRead n higher := by
  refine ⟨h.listed, Nat.le_trans h.privileged hle, fun i hi hn => ?_⟩
  rcases h.opened i hi hn with rfl | ⟨hm, rfl | hs⟩
  · left
    cases higher with
    | machine => rfl
    | user => exact absurd hle (by decide)
    | supervisor => exact absurd hle (by decide)
  · cases higher with
    | machine => exact .inl rfl
    | user => exact absurd hle (by decide)
    | supervisor => exact .inr ⟨hm, .inl rfl⟩
  · exact .inr ⟨hm, .inr hs⟩

theorem access_mono {c : Csr} (h : b.access n level = .ok c) (hle : level ≤ higher) :
    b.access n higher = .ok c := by
  obtain ⟨hn, hread⟩ := access_eq_ok_iff.mp h
  exact access_eq_ok_iff.mpr ⟨hn, hread.mono hle⟩

theorem read_mono {v : Word} (h : b.read n level = .ok v) (hle : level ≤ higher) :
    b.read n higher = .ok v := by
  obtain ⟨c, hc, hv⟩ := read_eq_ok_iff.mp h
  exact read_eq_ok_iff.mpr ⟨c, access_mono hc hle, hv⟩

theorem writeMasked_mono {value mask : Word} {after : CsrBank}
    (h : b.writeMasked n value mask level = .ok after) (hle : level ≤ higher) :
    b.writeMasked n value mask higher = .ok after := by
  obtain ⟨c, hc, hwritable⟩ := writeMasked_eq_ok_iff.mp h
  exact writeMasked_eq_ok_iff.mpr ⟨c, access_mono hc hle, hwritable⟩

end CsrBank

/-! ## Instructions -/

namespace Hart

/-- An access by an instruction of which a part is not allowed changes neither register. -/
theorem accessCsr_of_refused {h : Hart} {n : CsrNumber} {write : Option (Word × Word)}
    (hrefused : ¬ (h.csrs.MayRead n h.level ∧ (write ≠ none → h.csrs.MayWrite n h.level)))
    (rd : Register) : h.accessCsr rd n write = (.raised .illegalInstruction, h) := by
  unfold accessCsr
  split
  · rename_i e hread
    rw [CsrBank.read_eq_error hread]
  · rename_i old hread
    have hmay : h.csrs.MayRead n h.level := CsrBank.exists_read_iff.mp ⟨old, hread⟩
    split
    · exact absurd ⟨hmay, fun hnone => absurd rfl hnone⟩ hrefused
    · rename_i v mask
      split
      · rename_i e hwrite
        rw [CsrBank.writeMasked_eq_error hwrite]
      · rename_i csrs hwrite
        have hmayWrite := (CsrBank.exists_writeMasked_iff v mask).mp ⟨csrs, hwrite⟩
        exact absurd ⟨hmay, fun _ => hmayWrite⟩ hrefused

end Hart

namespace CsrBank

/--
A read is accepted exactly if the number is that of a register, the level is
high enough and the register is no counter that is closed to the level; a write,
under whatever mask, exactly if besides the register is not read-only. Whatever
is refused is an illegal instruction, and an instruction with a refused access
leaves the hart as it was. What a level may do any higher level may do, to the
same effect, and no number with more than twelve bits is accepted. It makes no
difference that the tests are made one after the other.
-/
theorem access_permitted (b : CsrBank) (n : CsrNumber) (level : Level) :
    ((∃ v, b.read n level = .ok v) ↔ b.MayRead n level) ∧
      (∀ value mask, (∃ after, b.writeMasked n value mask level = .ok after) ↔
        b.MayWrite n level) ∧
      (∀ value, (∃ after, b.write n value level = .ok after) ↔ b.MayWrite n level) ∧
      (∀ e, (b.read n level = .error e ∨ (∃ value, b.write n value level = .error e) ∨
        ∃ value mask, b.writeMasked n value mask level = .error e) → e = .illegalInstruction) ∧
      (∀ (h : Hart) rd write, h.csrs = b → h.level = level →
        ¬ (b.MayRead n level ∧ (write ≠ none → b.MayWrite n level)) →
        h.accessCsr rd n write = (.raised .illegalInstruction, h)) ∧
      (∀ higher, level ≤ higher →
        (∀ v, b.read n level = .ok v → b.read n higher = .ok v) ∧
          ∀ value mask after, b.writeMasked n value mask level = .ok after →
            b.writeMasked n value mask higher = .ok after) ∧
      (∀ c, b.access n level = .ok c → c.number = n ∧ n.toNat < 4096) ∧
      b.checkedAccess n level = b.access n level := by
  refine ⟨exists_read_iff, exists_writeMasked_iff, fun value => exists_writeMasked_iff value _,
    ?refusals, ?unchanged, ?higher, ?numbers, b.checkedAccess_eq n level⟩
  case refusals =>
    rintro e (hread | ⟨value, hwrite⟩ | ⟨value, mask, hwrite⟩)
    · exact read_eq_error hread
    · exact writeMasked_eq_error hwrite
    · exact writeMasked_eq_error hwrite
  case unchanged =>
    rintro h rd write rfl rfl hrefused
    exact Hart.accessCsr_of_refused hrefused rd
  case higher =>
    exact fun higher hle => ⟨fun v hread => read_mono hread hle,
      fun value mask after hwrite => writeMasked_mono hwrite hle⟩
  case numbers =>
    intro c hc
    obtain ⟨hn, hread⟩ := access_eq_ok_iff.mp hc
    exact ⟨hn, CsrNumber.lt_of_isListed hread.listed⟩

def supervisorTime : CsrBank :=
  (initial 5).setPlain .mcounteren 2

theorem access_permitted_time :
    supervisorTime.read 0xC01 .supervisor = .ok 5 ∧ supervisorTime.read 0xC01 .machine = .ok 5 ∧
      supervisorTime.MayRead 0xC01 .supervisor ∧ ¬ supervisorTime.MayRead 0xC01 .user := by
  have hread : supervisorTime.read 0xC01 .supervisor = .ok 5 := rfl
  obtain ⟨hsupervisor, -, -, -, -, hhigher, -⟩ := access_permitted supervisorTime 0xC01 .supervisor
  obtain ⟨huser, -⟩ := access_permitted supervisorTime 0xC01 .user
  refine ⟨hread, (hhigher .machine (by decide)).1 5 hread, hsupervisor.mp ⟨5, hread⟩, fun h => ?_⟩
  obtain ⟨v, hv⟩ := huser.mpr h
  cases hv

end CsrBank

end Rv32
