import Mathlib.Data.List.Infix
import Rv32.Proofs.Device.Clint

/-! # Moving the deadline by halves

Software that stores words moves the deadline in three steps: the low half is
filled with ones, and then the new high half and the new low half are written.
On the way the deadline is never below both the old and the new one. As long as
neither of the two has come, no step raises the interrupt, whatever else is
done to the timer between the steps.
-/

namespace Rv32

namespace DoubleWord

/-- No double word with the same high half is larger than the one that ends in ones. -/
theorem toNat_le_of_low_ones {v w : DoubleWord} (hhigh : w.half .high = v.half .high)
    (hlow : w.half .low = BitVec.allOnes 32) : v.toNat ≤ w.toNat := by
  have hones : (BitVec.allOnes 32).toNat = 2 ^ 32 - 1 := BitVec.toNat_allOnes
  have hlt := (v.half .low).isLt
  rw [← v.toNat_halves, ← w.toNat_halves, hhigh, hlow]
  omega

end DoubleWord

namespace Clint

namespace Operation

def setsDeadline : Operation → Bool
  | writeWord offset _ => offset == 0x4000 || offset == 0x4004
  | writeDouble offset _ => offset == 0x4000
  | _ => false

def deadline (d : DoubleWord) : Operation → DoubleWord
  | writeWord offset w =>
      match Register.ofOffset? offset with
      | some (.mtimecmp h) => DoubleWord.withHalf d h w
      | _ => d
  | writeDouble offset v =>
      match WideRegister.ofOffset? offset with
      | some .mtimecmp => v
      | _ => d
  | _ => d

end Operation

/-- The three stores of words that move the deadline to `v`. -/
def deadlineStores (v : DoubleWord) : List Operation :=
  [.writeWord 0x4000 0xFFFFFFFF, .writeWord 0x4004 (v.half .high), .writeWord 0x4000 (v.half .low)]

/-! ## The deadline in a run -/

theorem mtimecmp_after (c : Clint) (op : Operation) :
    (c.after op).mtimecmp = op.deadline c.mtimecmp := by
  cases op with
  | setClock t => rfl
  | advanceClock ticks => rfl
  | writeWord offset w =>
      simp only [after, writeWord, Operation.deadline]
      cases Register.ofOffset? offset with
      | none => rfl
      | some register => cases register <;> rfl
  | writeDouble offset v =>
      simp only [after, writeDouble, Operation.deadline]
      cases WideRegister.ofOffset? offset with
      | none => rfl
      | some register => cases register <;> rfl

theorem mtimecmp_play (c : Clint) (ops : List Operation) :
    (c.play ops).mtimecmp = ops.foldl Operation.deadline c.mtimecmp := by
  induction ops generalizing c with
  | nil => rfl
  | cons op rest ih => rw [play, ih, mtimecmp_after, List.foldl_cons]

/-- What does not write the deadline leaves it as it is. -/
theorem deadline_of_other {op : Operation} (h : op.setsDeadline = false) (d : DoubleWord) :
    op.deadline d = d := by
  cases op with
  | setClock t => rfl
  | advanceClock ticks => rfl
  | writeWord offset w =>
      simp only [Operation.deadline]
      split
      · rename_i k hregister
        obtain rfl := Register.eq_address hregister
        cases k <;> cases h
      · rfl
  | writeDouble offset v =>
      simp only [Operation.deadline]
      split
      · rename_i hregister
        obtain rfl := WideRegister.eq_address hregister
        cases h
      · rfl

/-- Of a run only the writes of the deadline matter to it. -/
theorem foldl_deadline_filter (ops : List Operation) (d : DoubleWord) :
    (ops.filter Operation.setsDeadline).foldl Operation.deadline d =
      ops.foldl Operation.deadline d := by
  induction ops generalizing d with
  | nil => rfl
  | cons op rest ih =>
      cases h : op.setsDeadline with
      | true => rw [List.filter_cons_of_pos h, List.foldl_cons, List.foldl_cons, ih]
      | false =>
          rw [List.filter_cons_of_neg (by rw [h]; decide), List.foldl_cons, deadline_of_other h, ih]

/-! ## The three stores -/

theorem deadline_low (d : DoubleWord) (w : Word) :
    (Operation.writeWord 0x4000 w).deadline d = DoubleWord.withHalf d .low w := rfl

theorem deadline_high (d : DoubleWord) (w : Word) :
    (Operation.writeWord 0x4004 w).deadline d = DoubleWord.withHalf d .high w := rfl

theorem foldl_deadlineStores (old v : DoubleWord) :
    (deadlineStores v).foldl Operation.deadline old = v := by
  simp only [deadlineStores, List.foldl_cons, List.foldl_nil, deadline_low, deadline_high]
  exact DoubleWord.withHalf_withHalf _ v .high

/--
Before the first store the deadline is the old one. The ones in its low half make it at least the
old one as long as the high half is old, and at least the new one as soon as the high half is new.
-/
theorem le_foldl_of_prefix {p : List Operation} {v : DoubleWord} (old : DoubleWord)
    (h : p <+: deadlineStores v) :
    min old.toNat v.toNat ≤ (p.foldl Operation.deadline old).toNat := by
  have hones : (0xFFFFFFFF : Word) = BitVec.allOnes 32 := rfl
  rcases List.prefix_cons_iff.mp h with rfl | ⟨first, rfl, hfirst⟩
  · exact Nat.min_le_left _ _
  rcases List.prefix_cons_iff.mp hfirst with rfl | ⟨second, rfl, hsecond⟩
  · have hold : old.toNat ≤ (DoubleWord.withHalf old .low 0xFFFFFFFF).toNat := by
      apply DoubleWord.toNat_le_of_low_ones
      · rw [DoubleWord.half_withHalf, if_neg (by decide)]
      · rw [DoubleWord.half_withHalf, if_pos rfl, hones]
    exact Nat.le_trans (Nat.min_le_left _ _) hold
  rcases List.prefix_cons_iff.mp hsecond with rfl | ⟨third, rfl, hthird⟩
  · have hnew : v.toNat ≤ (DoubleWord.withHalf (DoubleWord.withHalf old .low 0xFFFFFFFF) .high
        (v.half .high)).toNat := by
      apply DoubleWord.toNat_le_of_low_ones
      · rw [DoubleWord.half_withHalf, if_pos rfl]
      · rw [DoubleWord.half_withHalf, if_neg (by decide), DoubleWord.half_withHalf, if_pos rfl,
          hones]
    exact Nat.le_trans (Nat.min_le_right _ _) hnew
  · obtain rfl := List.prefix_nil.mp hthird
    have hall := foldl_deadlineStores old v
    unfold deadlineStores at hall
    rw [hall]
    exact Nat.min_le_right _ _

variable {c : Clint} {v : DoubleWord} {ops p : List Operation}

theorem mtimecmp_of_stores (h : ops.filter Operation.setsDeadline = deadlineStores v) :
    (c.play ops).mtimecmp = v := by
  rw [mtimecmp_play, ← foldl_deadline_filter, h, foldl_deadlineStores]

theorem le_mtimecmp_of_stores (h : ops.filter Operation.setsDeadline = deadlineStores v)
    (hp : p <+: ops) : min c.mtimecmp.toNat v.toNat ≤ (c.play p).mtimecmp.toNat := by
  rw [mtimecmp_play, ← foldl_deadline_filter]
  apply le_foldl_of_prefix
  rw [← h]
  exact hp.filter _

theorem timerLine_eq_false_iff (c : Clint) :
    c.timerLine = false ↔ c.mtime.toNat < c.mtimecmp.toNat := by
  rw [← Bool.not_eq_true, timerLine_iff, Nat.not_le]

/-- The line can only be high in a run that moves the deadline if one of the two has come. -/
theorem timerLine_of_stores (h : ops.filter Operation.setsDeadline = deadlineStores v)
    (hp : p <+: ops) (hold : (c.play p).mtime.toNat < c.mtimecmp.toNat)
    (hnew : (c.play p).mtime.toNat < v.toNat) : (c.play p).timerLine = false := by
  have hbetween := le_mtimecmp_of_stores (c := c) h hp
  rw [timerLine_eq_false_iff]
  omega

theorem ticks_le_of_prefix (hp : p <+: ops) : ticks p ≤ ticks ops := by
  obtain ⟨rest, rfl⟩ := hp
  simp only [ticks, List.map_append, List.sum_append]
  omega

/-- While the time just goes on and ends before a limit, it is before the limit throughout. -/
theorem mtime_lt_of_prefix {limit : Nat} (htime : ∀ op ∈ ops, op.setsTime = false)
    (hclock : ∀ op ∈ ops, op.setsClock = false) (hlimit : c.mtime.toNat + ticks ops < limit)
    (hp : p <+: ops) : (c.play p).mtime.toNat < limit := by
  have hticks := ticks_le_of_prefix hp
  have hcounts := toNat_mtime_of_ticks (fun op hop => htime op (hp.subset hop))
    (fun op hop => hclock op (hp.subset hop)) c
  have hmod := Nat.mod_le (c.mtime.toNat + ticks p) (2 ^ 64)
  omega

theorem timerLine_of_ticks (h : ops.filter Operation.setsDeadline = deadlineStores v)
    (htime : ∀ op ∈ ops, op.setsTime = false) (hclock : ∀ op ∈ ops, op.setsClock = false)
    (hlimit : c.mtime.toNat + ticks ops < min c.mtimecmp.toNat v.toNat) (hp : p <+: ops) :
    (c.play p).timerLine = false := by
  have hbefore := mtime_lt_of_prefix htime hclock hlimit hp
  exact timerLine_of_stores h hp (Nat.lt_of_lt_of_le hbefore (Nat.min_le_left _ _))
    (Nat.lt_of_lt_of_le hbefore (Nat.min_le_right _ _))

/-- The three stores with nothing between them. -/
theorem timerLine_of_prefix (hlow : c.timerLine = false) (hnew : c.mtime.toNat < v.toNat)
    (hp : p <+: deadlineStores v) : (c.play p).timerLine = false := by
  have hold := c.timerLine_eq_false_iff.mp hlow
  have hstores : (deadlineStores v).filter Operation.setsDeadline = deadlineStores v := rfl
  have hticks : ticks (deadlineStores v) = 0 := rfl
  refine timerLine_of_ticks hstores ?_ ?_ ?_ hp
  · simp only [deadlineStores, List.forall_mem_cons, List.not_mem_nil, false_imp_iff, implies_true]
    exact ⟨rfl, rfl, rfl, trivial⟩
  · simp only [deadlineStores, List.forall_mem_cons, List.not_mem_nil, false_imp_iff, implies_true]
    exact ⟨rfl, rfl, rfl, trivial⟩
  · rw [hticks]
    omega

/-! ## No interrupt on the way -/

/--
Ones in the low half, then the new high half and then the new low half make `v` the deadline. After
each of the three stores the deadline is at least the smaller one of the old deadline and `v`, and
the line is low if it was low before and `v` has not come. The same holds of a run in which other
operations stand before, between and after the three: at each moment the line is low if the time is
then before both deadlines. In particular it is low throughout if the time only advances and does
not reach any of the two.
-/
theorem deadline_moves_quietly (c : Clint) (v : DoubleWord) :
    let least := min c.mtimecmp.toNat v.toNat
    (∃ filled raised moved,
      c.writeWord 0x4000 0xFFFFFFFF = .ok filled ∧
      filled.writeWord 0x4004 (v.half .high) = .ok raised ∧
      raised.writeWord 0x4000 (v.half .low) = .ok moved ∧
      moved.mtimecmp = v ∧
      ∀ d ∈ [filled, raised, moved], least ≤ d.mtimecmp.toNat ∧
        (c.timerLine = false → c.mtime.toNat < v.toNat → d.timerLine = false)) ∧
    ∀ ops, ops.filter Operation.setsDeadline = deadlineStores v →
      (c.play ops).mtimecmp = v ∧
      (∀ p, p <+: ops → least ≤ (c.play p).mtimecmp.toNat ∧
        ((c.play p).mtime.toNat < least → (c.play p).timerLine = false)) ∧
      ((∀ op ∈ ops, op.setsTime = false) → (∀ op ∈ ops, op.setsClock = false) →
        c.mtime.toNat + ticks ops < least → ∀ p, p <+: ops → (c.play p).timerLine = false) := by
  intro least
  have hstores : (deadlineStores v).filter Operation.setsDeadline = deadlineStores v := rfl
  have hstep : ∀ p, p <+: deadlineStores v → least ≤ (c.play p).mtimecmp.toNat ∧
      (c.timerLine = false → c.mtime.toNat < v.toNat → (c.play p).timerLine = false) :=
    fun p hp => ⟨le_mtimecmp_of_stores hstores hp,
      fun hlow hnew => timerLine_of_prefix hlow hnew hp⟩
  refine ⟨⟨c.play ((deadlineStores v).take 1), c.play ((deadlineStores v).take 2),
    c.play (deadlineStores v), rfl, rfl, rfl, mtimecmp_of_stores hstores, ?_⟩, ?_⟩
  · intro d hd
    simp only [List.mem_cons, List.not_mem_nil, or_false] at hd
    rcases hd with rfl | rfl | rfl
    · exact hstep _ (List.take_prefix 1 _)
    · exact hstep _ (List.take_prefix 2 _)
    · exact hstep _ List.prefix_rfl
  · intro ops h
    refine ⟨mtimecmp_of_stores h, fun p hp => ⟨le_mtimecmp_of_stores h hp, fun hbefore => ?_⟩, ?_⟩
    · exact timerLine_of_stores h hp (Nat.lt_of_lt_of_le hbefore (Nat.min_le_left _ _))
        (Nat.lt_of_lt_of_le hbefore (Nat.min_le_right _ _))
    · exact fun htime hclock hlimit p hp => timerLine_of_ticks h htime hclock hlimit hp

/-- A timer whose deadline is the first one with a high half, not much later than the time. -/
def carryingTimer : Clint :=
  { clock := 0xFFFEFFF0, offset := 0, mtimecmp := 0x100000000, msip := false }

def carryingRun : List Operation :=
  [.advanceClock 4, .writeWord 0x4000 0xFFFFFFFF, .advanceClock 5, .writeWord 0x4004 0,
    .writeWord 0 1, .advanceClock 6, .writeWord 0x4000 0xFFFF0000]

theorem deadline_moves_quietly_carrying :
    carryingTimer.timerLine = false ∧ carryingTimer.mtime.toNat < 0xFFFF0000 ∧
      carryingRun.filter Operation.setsDeadline = deadlineStores 0xFFFF0000 ∧
      (∀ op ∈ carryingRun, op.setsTime = false) ∧ (∀ op ∈ carryingRun, op.setsClock = false) ∧
      carryingTimer.mtime.toNat + ticks carryingRun < 0xFFFF0000 ∧
      (carryingTimer.play carryingRun).mtimecmp = 0xFFFF0000 ∧
      (carryingTimer.play (carryingRun.take 4)).timerLine = false := by
  have hfilter : carryingRun.filter Operation.setsDeadline = deadlineStores 0xFFFF0000 := by decide
  have htime : ∀ op ∈ carryingRun, op.setsTime = false := by decide
  have hclock : ∀ op ∈ carryingRun, op.setsClock = false := by decide
  obtain ⟨-, hruns⟩ := deadline_moves_quietly carryingTimer 0xFFFF0000
  obtain ⟨hmoved, -, hquiet⟩ := hruns carryingRun hfilter
  exact ⟨by decide, by decide, hfilter, htime, hclock, by decide, hmoved,
    hquiet htime hclock (by decide) _ (List.take_prefix 4 carryingRun)⟩

/-- The new high half alone would raise the interrupt. -/
example : (carryingTimer.play [.writeWord 0x4004 0]).timerLine = true := by
  decide

end Clint

end Rv32
