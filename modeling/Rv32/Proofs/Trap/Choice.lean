import Rv32.Proofs.Trap.Entry
import Rv32.Proofs.Trap.Pending

/-! # Which interrupt is taken

A hart may take an interrupt that is pending, enabled and open to its level.
Two computations meet here: the choice of an interrupt, which looks at the
level and at the delegation of each candidate, and the trap, which looks at
them again to find the handler. They agree, and the earliest interrupt of the
fixed order is taken. The order does not ask where an interrupt goes, so a
delegated interrupt can keep one for the machine waiting.
-/

namespace Rv32

/-! ## The order of choice -/

/-- How early the interrupt comes among those that may be taken at the same time. -/
def Interrupt.place : Interrupt → Nat
  | .machineExternal => 0
  | .machineSoftware => 1
  | .machineTimer => 2
  | .supervisorExternal => 3
  | .supervisorSoftware => 4
  | .supervisorTimer => 5

theorem Interrupt.place_injective {i j : Interrupt} (h : i.place = j.place) : i = j := by
  revert h
  cases i <;> cases j <;> decide

/-- The order puts the interrupts that cannot be delegated first. -/
theorem Interrupt.place_lt_of_mask {i j : Interrupt}
    (hi : Delegation.interruptMask.getLsbD i.code = false)
    (hj : Delegation.interruptMask.getLsbD j.code = true) : i.place < j.place := by
  revert hi hj
  cases i <;> cases j <;> decide

namespace Interrupts

theorem mem_priority (i : Interrupt) : i ∈ priority := by
  cases i <;> decide

theorem pairwise_priority : priority.Pairwise (fun i j => i.place < j.place) := by
  decide

variable {s : Interrupts} {level : Level} {status : Status} {d : Delegation} {i j : Interrupt}

theorem next?_eq_none_iff :
    s.next? level status d = none ↔ ∀ i, ¬ s.isDue level status d i = true := by
  unfold next?
  rw [List.find?_eq_none]
  constructor
  · intro h i
    exact h i (mem_priority i)
  · intro h i _
    exact h i

theorem isDue_of_next? (h : s.next? level status d = some i) :
    s.isDue level status d i = true :=
  List.find?_some h

/-- No interrupt that is due comes before the one chosen. -/
theorem place_le_of_next? (h : s.next? level status d = some i)
    (hj : s.isDue level status d j = true) : i.place ≤ j.place := by
  obtain ⟨-, before, rest, hsplit, hbefore⟩ := List.find?_eq_some_iff_append.mp h
  have hmem : j ∈ before ++ i :: rest := by
    rw [← hsplit]
    exact mem_priority j
  have hsorted : (before ++ i :: rest).Pairwise (fun i j => i.place < j.place) := by
    rw [← hsplit]
    exact pairwise_priority
  rcases List.mem_append.mp hmem with hearlier | hlater
  · have hnot := hbefore j hearlier
    rw [hj] at hnot
    cases hnot
  · rcases List.mem_cons.mp hlater with rfl | hrest
    · exact Nat.le_refl _
    · have htail := (List.pairwise_append.mp hsorted).2.1
      exact Nat.le_of_lt ((List.pairwise_cons.mp htail).1 j hrest)

end Interrupts

namespace Hart

/-! ## Interrupts that may be taken -/

def Delegates (h : Hart) (i : Interrupt) : Prop :=
  (h.csrs.value .mideleg).getLsbD i.code = true

instance (h : Hart) (i : Interrupt) : Decidable (h.Delegates i) :=
  inferInstanceAs (Decidable ((h.csrs.value .mideleg).getLsbD i.code = true))

/-- Whether the hart may take the interrupt, by the registers that software sees. -/
def Takeable (h : Hart) (i : Interrupt) : Prop :=
  (h.csrs.value .mip).getLsbD i.code = true ∧ (h.csrs.value .mie).getLsbD i.code = true ∧
    if h.Delegates i then h.level = .user ∨ h.level = .supervisor ∧ h.csrs.status.sie = true
    else h.level < .machine ∨ h.csrs.status.mie = true

instance (h : Hart) (i : Interrupt) : Decidable (h.Takeable i) :=
  inferInstanceAs (Decidable (_ ∧ _ ∧ if h.Delegates i then _ ∨ _ ∧ _ else _ ∨ _))

theorem delegates_iff (h : Hart) (i : Interrupt) :
    h.Delegates i ↔ h.csrs.delegation.delegatesInterrupt i = true := Iff.rfl

theorem lt_supervisor_iff (level : Level) : level < .supervisor ↔ level = .user := by
  cases level <;> decide

theorem isDue_iff_takeable (h : Hart) (i : Interrupt) :
    h.csrs.interrupts.isDue h.level h.csrs.status h.csrs.delegation i = true ↔ h.Takeable i := by
  have hpending : (h.csrs.value .mip).getLsbD i.code = h.csrs.interrupts.isPending i :=
    h.csrs.interrupts.getLsbD_mip_code i
  have henabled : (h.csrs.value .mie).getLsbD i.code = h.csrs.interrupts.isEnabled i := rfl
  have hopen : Interrupts.accepts h.level h.csrs.status h.csrs.delegation i = true ↔
      if h.Delegates i then h.level = .user ∨ h.level = .supervisor ∧ h.csrs.status.sie = true
      else h.level < .machine ∨ h.csrs.status.mie = true := by
    unfold Interrupts.accepts
    by_cases hd : h.csrs.delegation.delegatesInterrupt i = true
    · rw [if_pos hd, if_pos ((h.delegates_iff i).mpr hd)]
      simp only [Bool.or_eq_true, Bool.and_eq_true, decide_eq_true_eq, lt_supervisor_iff]
    · rw [if_neg hd, if_neg (fun hdel => hd ((h.delegates_iff i).mp hdel))]
      simp only [Bool.or_eq_true, decide_eq_true_eq]
  unfold Interrupts.isDue Takeable
  rw [Bool.and_eq_true, Bool.and_eq_true, hpending, henabled, hopen, and_assoc]

theorem nextInterrupt?_eq_none_iff (h : Hart) :
    h.nextInterrupt? = none ↔ ∀ i, ¬ h.Takeable i := by
  unfold nextInterrupt?
  rw [Interrupts.next?_eq_none_iff]
  exact forall_congr' fun i => not_congr (h.isDue_iff_takeable i)

theorem takeable_of_next {h : Hart} {i : Interrupt} (hi : h.nextInterrupt? = some i) :
    h.Takeable i :=
  (h.isDue_iff_takeable i).mp (Interrupts.isDue_of_next? hi)

theorem place_le_of_next {h : Hart} {i j : Interrupt} (hi : h.nextInterrupt? = some i)
    (hj : h.Takeable j) : i.place ≤ j.place :=
  Interrupts.place_le_of_next? hi ((h.isDue_iff_takeable j).mpr hj)

/-! ## Where an interrupt is taken to -/

/-- Machine mode takes no interrupt for the supervisor. -/
theorem level_ne_machine_of_takeable {h : Hart} {i : Interrupt} (ht : h.Takeable i)
    (hd : h.Delegates i) : h.level ≠ .machine := by
  obtain ⟨-, -, hopen⟩ := ht
  rw [if_pos hd] at hopen
  rcases hopen with huser | ⟨hsupervisor, -⟩
  · rw [huser]
    decide
  · rw [hsupervisor]
    decide

/-- The trap goes where the choice has assumed that it will. -/
theorem handlerLevel_of_takeable {h : Hart} {i : Interrupt} (ht : h.Takeable i) :
    h.handlerLevel (.interrupt i) = if h.Delegates i then .supervisor else .machine := by
  by_cases hd : h.Delegates i
  · have hbelow := level_ne_machine_of_takeable ht hd
    have hdelegated : h.isDelegated (.interrupt i) = true := by
      simp only [isDelegated, hbelow, ne_eq, not_false_eq_true, decide_true, Bool.true_and]
      exact hd
    rw [if_pos hd, handlerLevel, if_pos hdelegated]
  · have hkept : h.isDelegated (.interrupt i) = false := by
      have hclear : h.csrs.delegation.delegates (.interrupt i) = false := Bool.eq_false_iff.mpr hd
      rw [isDelegated, hclear, Bool.and_false]
    rw [if_neg hd, handlerLevel, hkept]
    rfl

theorem level_le_handlerLevel (h : Hart) (c : Cause) : h.level ≤ h.handlerLevel c := by
  rcases h.handlerLevel_cases c with hmachine | ⟨hsupervisor, hbelow⟩
  · rw [hmachine]
    cases h.level <;> decide
  · rw [hsupervisor]
    cases hlevel : h.level with
    | user => decide
    | supervisor => decide
    | machine => exact absurd hlevel hbelow

theorem takeInterrupt_of_none {h : Hart} (hi : h.nextInterrupt? = none) :
    h.takeInterrupt = (none, h) := by
  unfold takeInterrupt
  rw [hi]

theorem takeInterrupt_of_some {h : Hart} {i : Interrupt} (hi : h.nextInterrupt? = some i) :
    h.takeInterrupt = (some i, h.trap (.interrupt i)) := by
  unfold takeInterrupt
  rw [hi]

theorem takeInterrupt_fst (h : Hart) : h.takeInterrupt.1 = h.nextInterrupt? := by
  cases hi : h.nextInterrupt? with
  | none => rw [takeInterrupt_of_none hi]
  | some i => rw [takeInterrupt_of_some hi]

theorem level_takeInterrupt {h : Hart} {i : Interrupt} (hi : h.nextInterrupt? = some i) :
    h.takeInterrupt.2.level = if h.Delegates i then .supervisor else .machine := by
  rw [takeInterrupt_of_some hi, level_trap, handlerLevel_of_takeable (takeable_of_next hi)]

/--
An interrupt is taken exactly when one may be, and otherwise nothing changes.
The one taken is the earliest of those that may be taken. It is handled by the
supervisor if it is delegated and by the machine if not, and never at a lower
level than that of the hart.
-/
theorem takeInterrupt_spec (h : Hart) :
    (h.takeInterrupt.1 = none ↔ ∀ i, ¬ h.Takeable i) ∧
      (h.takeInterrupt.1 = none → h.takeInterrupt.2 = h) ∧
      ∀ i, h.takeInterrupt.1 = some i →
        h.Takeable i ∧
        (∀ j, h.Takeable j → i.place ≤ j.place) ∧
        h.takeInterrupt.2.level = (if h.Delegates i then .supervisor else .machine) ∧
        h.level ≤ h.takeInterrupt.2.level := by
  rw [takeInterrupt_fst]
  refine ⟨h.nextInterrupt?_eq_none_iff, ?_, ?_⟩
  · intro hnone
    rw [takeInterrupt_of_none hnone]
  · intro i hi
    refine ⟨takeable_of_next hi, ?_, level_takeInterrupt hi, ?_⟩
    · intro j hj
      exact place_le_of_next hi hj
    · rw [takeInterrupt_of_some hi, level_trap]
      exact h.level_le_handlerLevel _

/-! ## Interrupts for the machine -/

def MachineDestined (h : Hart) (i : Interrupt) : Prop :=
  h.Takeable i ∧ ¬ h.Delegates i

instance (h : Hart) (i : Interrupt) : Decidable (h.MachineDestined i) :=
  inferInstanceAs (Decidable (_ ∧ _))

/-- Machine mode is entered for an interrupt that is not delegated. -/
theorem level_takeInterrupt_eq_machine_iff {h : Hart} {i : Interrupt}
    (hi : h.nextInterrupt? = some i) : h.takeInterrupt.2.level = .machine ↔ ¬ h.Delegates i := by
  rw [level_takeInterrupt hi]
  by_cases hd : h.Delegates i
  · rw [if_pos hd]
    exact iff_of_false (by decide) (not_not_intro hd)
  · rw [if_neg hd]
    exact iff_of_true rfl hd

/-- The interrupt taken is for the machine if one of those comes before all delegated ones. -/
theorem not_delegates_next_iff {h : Hart} {i : Interrupt} (hi : h.nextInterrupt? = some i) :
    ¬ h.Delegates i ↔
      ∀ j, h.Takeable j → h.Delegates j → ∃ k, h.MachineDestined k ∧ k.place < j.place := by
  have htaken := takeable_of_next hi
  constructor
  · intro hdi j hj hdj
    have hne : i.place ≠ j.place := by
      intro hplace
      rw [Interrupt.place_injective hplace] at hdi
      exact hdi hdj
    have hle := place_le_of_next hi hj
    exact ⟨i, ⟨htaken, hdi⟩, by omega⟩
  · intro hfirst hdi
    obtain ⟨k, hk, hbefore⟩ := hfirst i htaken hdi
    have hle := place_le_of_next hi hk.1
    omega

/--
With an interrupt for the machine waiting, some interrupt is taken. It is one
for the machine exactly if one of those comes before every delegated interrupt
that may be taken. This is so whenever one waits that cannot be delegated, as
long as the delegation register holds legal bits only.
-/
theorem machine_entered_iff {h : Hart} {m : Interrupt} (hm : h.MachineDestined m) :
    (∃ i, h.takeInterrupt.1 = some i ∧ h.Takeable i) ∧
      (h.takeInterrupt.2.level = .machine ↔
        ∀ j, h.Takeable j → h.Delegates j → ∃ k, h.MachineDestined k ∧ k.place < j.place) ∧
      ((h.csrs.value .mideleg).Within Delegation.interruptMask →
        Delegation.interruptMask.getLsbD m.code = false →
        h.takeInterrupt.2.level = .machine) := by
  have hsome : h.nextInterrupt? ≠ none := by
    intro hnone
    exact h.nextInterrupt?_eq_none_iff.mp hnone m hm.1
  obtain ⟨i, hi⟩ := Option.ne_none_iff_exists'.mp hsome
  have hexact := (level_takeInterrupt_eq_machine_iff hi).trans (not_delegates_next_iff hi)
  refine ⟨⟨i, ?_, takeable_of_next hi⟩, hexact, ?_⟩
  · rw [takeInterrupt_fst, hi]
  · intro hlegal hmask
    refine hexact.mpr ?_
    intro j _ hdj
    have hj := Word.within_iff.mp hlegal j.code hdj
    exact ⟨m, hm, Interrupt.place_lt_of_mask hmask hj⟩

/-! ## A delegated interrupt that comes first -/

/--
A user program with both external and timer interrupts of the supervisor
pending, of which the external one alone is delegated.
-/
def contested : Hart :=
  { Hart.initial defaultResetVector .selfTest 0 with
    csrs :=
      { CsrBank.initial 0 with
        delegation := { exceptions := 0, interrupts := 0x200 }
        interrupts :=
          { Interrupts.reset with seipSoftware := true, stip := true, mie := 0x220 } }
    level := .user }

theorem machineDestined_contested : contested.MachineDestined .supervisorTimer := by
  decide

theorem takeInterrupt_spec_contested :
    contested.takeInterrupt.1 = some .supervisorExternal ∧
      contested.Takeable .supervisorExternal ∧ contested.takeInterrupt.2.level = .supervisor := by
  have htaken : contested.takeInterrupt.1 = some .supervisorExternal := by decide
  obtain ⟨-, -, hspec⟩ := contested.takeInterrupt_spec
  obtain ⟨htakeable, -, hlevel, -⟩ := hspec _ htaken
  exact ⟨htaken, htakeable, hlevel.trans (if_pos (by decide))⟩

theorem machine_entered_iff_contested :
    contested.MachineDestined .supervisorTimer ∧ contested.takeInterrupt.2.level ≠ .machine := by
  have hdestined : contested.MachineDestined .supervisorTimer := machineDestined_contested
  obtain ⟨-, hexact, -⟩ := machine_entered_iff hdestined
  refine ⟨hdestined, ?_⟩
  intro hlevel
  obtain ⟨k, hk, hbefore⟩ := hexact.mp hlevel .supervisorExternal (by decide) (by decide)
  have hnone : ∀ k, contested.MachineDestined k →
      ¬ k.place < Interrupt.supervisorExternal.place := by
    intro k
    cases k <;> decide
  exact hnone k hk hbefore

theorem not_always_machine_first :
    ¬ ∀ (h : Hart) (m : Interrupt), h.MachineDestined m →
      ∃ i, h.takeInterrupt.1 = some i ∧ ¬ h.Delegates i ∧ h.takeInterrupt.2.level = .machine := by
  intro hall
  obtain ⟨i, hi, hdelegates, -⟩ := hall contested .supervisorTimer machineDestined_contested
  have htaken : contested.takeInterrupt.1 = some .supervisorExternal := by decide
  rw [htaken] at hi
  cases hi
  exact hdelegates (by decide)

end Hart

end Rv32
