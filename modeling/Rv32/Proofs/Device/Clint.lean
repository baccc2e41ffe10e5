import Mathlib.Algebra.GroupWithZero.Nat
import Rv32.Device.Clint
import Rv32.Proofs.DoubleWord

/-! # The arithmetic of the timer

The timer is kept as an offset from a clock that goes on by itself, and its
registers are written whole or by halves. What software sees is an ordinary
counter modulo 2^64 all the same: from a write on it counts the ticks of the
clock, a half that is written replaces this half of the time there is now, and
no carry gets lost between the halves or at the wrap-around.
-/

namespace Rv32

namespace Clint

/-! ## Registers -/

def WideRegister.address : WideRegister → Word
  | mtimecmp => 0x4000
  | mtime => 0xBFF8

def WideRegister.halfAddress (r : WideRegister) : Half → Word
  | .low => r.address
  | .high => r.address + 4

def Register.address : Register → Word
  | msip => 0x0000
  | mtimecmp h => WideRegister.mtimecmp.halfAddress h
  | mtime h => WideRegister.mtime.halfAddress h

theorem Register.eq_address {offset : Word} {r : Register} (h : ofOffset? offset = some r) :
    offset = r.address := by
  unfold ofOffset? at h
  split at h <;> cases h
  all_goals
    rename_i hoffset
    exact BitVec.eq_of_toNat_eq hoffset

theorem WideRegister.eq_address {offset : Word} {r : WideRegister}
    (h : ofOffset? offset = some r) : offset = r.address := by
  unfold ofOffset? at h
  split at h <;> cases h
  all_goals
    rename_i hoffset
    exact BitVec.eq_of_toNat_eq hoffset

def value (c : Clint) : WideRegister → DoubleWord
  | .mtimecmp => c.mtimecmp
  | .mtime => c.mtime

def put (c : Clint) (r : WideRegister) (v : DoubleWord) : Clint :=
  match r with
  | .mtimecmp => { c with mtimecmp := v }
  | .mtime => c.setMtime v

/-- After the write, register `r` shows `v`, and nothing else has changed. -/
structure Written (c : Clint) (r : WideRegister) (v : DoubleWord) (next : Clint) : Prop where
  value : next.value r = v
  other : ∀ s, s ≠ r → next.value s = c.value s
  clock : next.clock = c.clock
  msip : next.msip = c.msip

variable (c : Clint) (r : WideRegister)

theorem readDouble_address : c.readDouble r.address = .ok (c.value r) := by
  cases r <;> rfl

theorem readWord_halfAddress (h : Half) :
    c.readWord (r.halfAddress h) = .ok ((c.value r).half h) := by
  cases r <;> cases h <;> rfl

theorem writeDouble_address (v : DoubleWord) : c.writeDouble r.address v = .ok (c.put r v) := by
  cases r <;> rfl

theorem writeWord_halfAddress (h : Half) (w : Word) :
    c.writeWord (r.halfAddress h) w = .ok (c.put r (DoubleWord.withHalf (c.value r) h w)) := by
  cases r <;> cases h <;> rfl

theorem written_put (v : DoubleWord) : c.Written r v (c.put r v) := by
  refine { value := ?_, other := ?_, clock := ?_, msip := ?_ }
  · cases r with
    | mtimecmp => rfl
    | mtime => exact c.mtime_setMtime v
  · intro s hs
    cases r with
    | mtimecmp =>
        cases s with
        | mtimecmp => exact absurd rfl hs
        | mtime => rfl
    | mtime =>
        cases s with
        | mtimecmp => rfl
        | mtime => exact absurd rfl hs
  · cases r <;> rfl
  · cases r <;> rfl

theorem put_put (v w : DoubleWord) : (c.put r v).put r w = c.put r w := by
  cases r <;> rfl

/-! ## Runs -/

inductive Operation where
  | setClock (t : DoubleWord)
  | advanceClock (ticks : DoubleWord)
  | writeWord (offset v : Word)
  | writeDouble (offset : Word) (v : DoubleWord)
  deriving DecidableEq

/-- The unit after an operation. A refused access changes nothing. -/
def after (c : Clint) : Operation → Clint
  | .setClock t => { c with clock := t }
  | .advanceClock ticks => { c with clock := c.clock + ticks }
  | .writeWord offset v =>
      match c.writeWord offset v with
      | .ok next => next
      | .error _ => c
  | .writeDouble offset v =>
      match c.writeDouble offset v with
      | .ok next => next
      | .error _ => c

def play (c : Clint) : List Operation → Clint
  | [] => c
  | op :: rest => (c.after op).play rest

namespace Operation

def clock (t : DoubleWord) : Operation → DoubleWord
  | setClock next => next
  | advanceClock ticks => t + ticks
  | _ => t

/-- How many ticks of the clock the operation is. -/
def ticks : Operation → Nat
  | advanceClock ticks => ticks.toNat
  | _ => 0

def setsClock : Operation → Bool
  | setClock _ => true
  | _ => false

def setsTime : Operation → Bool
  | writeWord offset _ => offset == 0xBFF8 || offset == 0xBFFC
  | writeDouble offset _ => offset == 0xBFF8
  | _ => false

end Operation

/-- How many ticks of the clock there are in a run. -/
def ticks (ops : List Operation) : Nat :=
  (ops.map Operation.ticks).sum

variable {c r}

theorem after_writeDouble (v : DoubleWord) : c.after (.writeDouble r.address v) = c.put r v := by
  simp only [after, writeDouble_address]

theorem after_writeWord (h : Half) (w : Word) :
    c.after (.writeWord (r.halfAddress h) w) =
      c.put r (DoubleWord.withHalf (c.value r) h w) := by
  simp only [after, writeWord_halfAddress]

/-- A word of the time is at one of two offsets. -/
theorem register_ne_mtime {offset v : Word} (hop : (Operation.writeWord offset v).setsTime = false)
    (h : Half) : Register.ofOffset? offset ≠ some (.mtime h) := by
  intro hregister
  obtain rfl := Register.eq_address hregister
  cases h <;> cases hop

theorem wideRegister_ne_mtime {offset : Word} {v : DoubleWord}
    (hop : (Operation.writeDouble offset v).setsTime = false) :
    WideRegister.ofOffset? offset ≠ some .mtime := by
  intro hregister
  obtain rfl := WideRegister.eq_address hregister
  cases hop

/-- Accesses never move the clock. -/
theorem clock_after (c : Clint) (op : Operation) : (c.after op).clock = op.clock c.clock := by
  cases op with
  | setClock t => rfl
  | advanceClock ticks => rfl
  | writeWord offset v =>
      simp only [after, writeWord, Operation.clock]
      cases Register.ofOffset? offset with
      | none => rfl
      | some register => cases register <;> rfl
  | writeDouble offset v =>
      simp only [after, writeDouble, Operation.clock]
      cases WideRegister.ofOffset? offset with
      | none => rfl
      | some register => cases register <;> rfl

/-- Only a write of the time changes how far it is from the clock. -/
theorem offset_after {op : Operation} (hop : op.setsTime = false) (c : Clint) :
    (c.after op).offset = c.offset := by
  cases op with
  | setClock t => rfl
  | advanceClock ticks => rfl
  | writeWord offset v =>
      have hother := register_ne_mtime hop
      simp only [after, writeWord]
      cases hregister : Register.ofOffset? offset with
      | none => rfl
      | some register =>
          cases register with
          | msip => rfl
          | mtimecmp h => rfl
          | mtime h => exact absurd hregister (hother h)
  | writeDouble offset v =>
      have hother := wideRegister_ne_mtime hop
      simp only [after, writeDouble]
      cases hregister : WideRegister.ofOffset? offset with
      | none => rfl
      | some register =>
          cases register with
          | mtimecmp => rfl
          | mtime => exact absurd hregister hother

theorem clock_play (c : Clint) (ops : List Operation) :
    (c.play ops).clock = ops.foldl Operation.clock c.clock := by
  induction ops generalizing c with
  | nil => rfl
  | cons op rest ih => rw [play, ih, clock_after, List.foldl_cons]

theorem offset_play {ops : List Operation} (h : ∀ op ∈ ops, op.setsTime = false) (c : Clint) :
    (c.play ops).offset = c.offset := by
  induction ops generalizing c with
  | nil => rfl
  | cons op rest ih =>
      rw [play, ih fun later hlater => h later (List.mem_cons_of_mem op hlater)]
      exact offset_after (h op List.mem_cons_self) c

/-- Between two writes of the time it moves as far as the clock does. -/
theorem mtime_play {ops : List Operation} (h : ∀ op ∈ ops, op.setsTime = false) (c : Clint) :
    (c.play ops).mtime = c.mtime + ((c.play ops).clock - c.clock) := by
  unfold mtime
  rw [offset_play h]
  bv_omega

theorem clock_of_ticks {op : Operation} (hop : op.setsClock = false) (t : DoubleWord) :
    op.clock t = t + BitVec.ofNat 64 op.ticks := by
  cases op with
  | setClock next => cases hop
  | advanceClock ticks => rw [Operation.clock, Operation.ticks, BitVec.ofNat_toNat,
      BitVec.setWidth_eq]
  | writeWord offset v => exact (BitVec.add_zero t).symm
  | writeDouble offset v => exact (BitVec.add_zero t).symm

/-- A clock that is not set goes on by the ticks of the run. -/
theorem clock_play_of_ticks {ops : List Operation} (h : ∀ op ∈ ops, op.setsClock = false)
    (c : Clint) : (c.play ops).clock = c.clock + BitVec.ofNat 64 (ticks ops) := by
  induction ops generalizing c with
  | nil => exact (BitVec.add_zero c.clock).symm
  | cons op rest ih =>
      have hsum : ticks (op :: rest) = op.ticks + ticks rest := by
        simp only [ticks, List.map_cons, List.sum_cons]
      rw [play, ih fun later hlater => h later (List.mem_cons_of_mem op hlater), clock_after,
        clock_of_ticks (h op List.mem_cons_self), hsum, BitVec.ofNat_add, BitVec.add_assoc]

theorem timerLine_iff (c : Clint) : c.timerLine = true ↔ c.mtimecmp.toNat ≤ c.mtime.toNat := by
  unfold timerLine
  rw [decide_eq_true_iff, BitVec.le_def]

/-- From a write of the time on, it counts the ticks of the clock, modulo 2^64. -/
theorem toNat_mtime_of_ticks {ops : List Operation} (htime : ∀ op ∈ ops, op.setsTime = false)
    (hclock : ∀ op ∈ ops, op.setsClock = false) (c : Clint) :
    (c.play ops).mtime.toNat = (c.mtime.toNat + ticks ops) % 2 ^ 64 := by
  rw [mtime_play htime, clock_play_of_ticks hclock, BitVec.add_comm c.clock, BitVec.add_sub_cancel,
    BitVec.toNat_add, BitVec.toNat_ofNat, Nat.add_mod_mod]

/-- Two halves written in either order are one write of the whole. -/
theorem play_writeWord_writeWord (c : Clint) (r : WideRegister) (h : Half) (v : DoubleWord) :
    c.play [.writeWord (r.halfAddress h) (v.half h),
        .writeWord (r.halfAddress h.other) (v.half h.other)] =
      c.after (.writeDouble r.address v) := by
  simp only [play]
  rw [after_writeWord, after_writeWord, after_writeDouble, (c.written_put r _).value, put_put,
    DoubleWord.withHalf_withHalf]

/--
Whatever is done to the clock and the registers, and in whatever order, the time is the clock plus
an offset modulo 2^64 that nothing but a write of the time changes. From a write of the whole time
on, the time goes on from the written value as the clock does, so it counts the ticks of the clock.
A write of one half of a register replaces this half of what it shows and changes neither the other
half nor anything else. Two halves that are written one after the other, in either order, are one
write of the whole. A read of a half returns this half of what the register shows, and a read of the
whole both halves together. The line of the timer is high exactly if the time is not below the time
set for the interrupt, as unsigned numbers.
-/
theorem time_runs_with_clock (c : Clint) :
    (∀ ops,
        (c.play ops).clock = ops.foldl Operation.clock c.clock ∧
        (c.play ops).mtime.toNat =
          ((c.play ops).clock.toNat + (c.play ops).offset.toNat) % 2 ^ 64 ∧
        ((∀ op ∈ ops, op.setsTime = false) → (c.play ops).offset = c.offset)) ∧
      (∀ v ops, (∀ op ∈ ops, op.setsTime = false) →
        let next := c.play (.writeDouble 0xBFF8 v :: ops)
        next.mtime = v + (next.clock - c.clock) ∧
          ((∀ op ∈ ops, op.setsClock = false) →
            next.mtime.toNat = (v.toNat + ticks ops) % 2 ^ 64)) ∧
      (∀ (r : WideRegister) h w, ∃ v : DoubleWord,
        c.Written r v (c.after (.writeWord (r.halfAddress h) w)) ∧
          v.half h = w ∧ v.half h.other = (c.value r).half h.other) ∧
      (∀ (r : WideRegister) h v,
        c.Written r v (c.after (.writeDouble r.address v)) ∧
          c.play [.writeWord (r.halfAddress h) (v.half h),
              .writeWord (r.halfAddress h.other) (v.half h.other)] =
            c.after (.writeDouble r.address v)) ∧
      (∀ r : WideRegister,
        (∀ h, c.readWord (r.halfAddress h) = .ok ((c.value r).half h)) ∧
          c.readDouble r.address = .ok (c.value r) ∧
          (c.value r).half .high ++ (c.value r).half .low = c.value r) ∧
      (c.timerLine = true ↔ c.mtimecmp.toNat ≤ c.mtime.toNat) := by
  refine ⟨?_, ?_, ?_, ?_, ?_, c.timerLine_iff⟩
  · intro ops
    exact ⟨c.clock_play ops, BitVec.toNat_add _ _, fun h => offset_play h c⟩
  · intro v ops htime
    have hwritten : c.Written .mtime v (c.after (.writeDouble 0xBFF8 v)) := by
      rw [show (0xBFF8 : Word) = WideRegister.mtime.address from rfl, after_writeDouble]
      exact c.written_put .mtime v
    have hvalue : (c.after (.writeDouble 0xBFF8 v)).mtime = v := hwritten.value
    refine ⟨?_, fun hclock => ?_⟩
    · rw [play, mtime_play htime, hvalue, hwritten.clock]
    · rw [play, toNat_mtime_of_ticks htime hclock, hvalue]
  · intro r h w
    refine ⟨DoubleWord.withHalf (c.value r) h w, ?_, ?_, ?_⟩
    · rw [after_writeWord]
      exact c.written_put r _
    · rw [DoubleWord.half_withHalf, if_pos rfl]
    · rw [DoubleWord.half_withHalf, if_neg (by cases h <;> decide)]
  · intro r h v
    refine ⟨?_, c.play_writeWord_writeWord r h v⟩
    rw [after_writeDouble]
    exact c.written_put r v
  · intro r
    exact ⟨c.readWord_halfAddress r, c.readDouble_address r, (c.value r).high_append_low⟩

/-- A deadline is written while the clock and the time go past the end of their range. -/
def wrappingRun : List Operation :=
  [.advanceClock 5, .writeWord 0x4000 7, .advanceClock 20]

theorem time_runs_with_clock_wrapping :
    (∀ op ∈ wrappingRun, op.setsTime = false) ∧ (∀ op ∈ wrappingRun, op.setsClock = false) ∧
      (((reset 0xFFFFFFFFFFFFFFF0).play
        (.writeDouble 0xBFF8 0xFFFFFFFFFFFFFFFF :: wrappingRun)).mtime.toNat = 24) := by
  have htime : ∀ op ∈ wrappingRun, op.setsTime = false := by decide
  have hclock : ∀ op ∈ wrappingRun, op.setsClock = false := by decide
  obtain ⟨-, hcounts, -⟩ := time_runs_with_clock (reset 0xFFFFFFFFFFFFFFF0)
  exact ⟨htime, hclock, ((hcounts 0xFFFFFFFFFFFFFFFF wrappingRun htime).2 hclock).trans (by decide)⟩

end Clint

end Rv32
