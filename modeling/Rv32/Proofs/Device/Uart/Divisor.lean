import Rv32.Proofs.Device.Uart

/-! # The divisor latch of the UART

The three bytes of the latch share their offsets with other registers, and a bit
of the line control register says which of the two is accessed. The latch is a
memory of its own all the same: its bytes are what was last written to them
while it was selected, and accesses to it leave everything else alone.
-/

namespace Rv32

namespace Uart

def latchOffset (k : Fin 3) : Word :=
  BitVec.ofNat 32 k.val

/-- An access to one of the offsets that the latch shares with other registers. -/
def Event.isShared : Event → Bool
  | read offset => offset.toNat < 3
  | write offset _ => offset.toNat < 3
  | _ => false

def latched (k : Fin 3) (u : Uart) : Event → List Byte
  | .write offset v => if offset = latchOffset k ∧ u.divisorSelected = true then [v] else []
  | _ => []

theorem toNat_latchOffset (k : Fin 3) : (latchOffset k).toNat = k.val := by
  have hk := k.isLt
  rw [latchOffset, BitVec.toNat_ofNat]
  omega

theorem latchOffset_injective {j k : Fin 3} (h : latchOffset j = latchOffset k) : j = k := by
  have hnat := congrArg BitVec.toNat h
  rw [toNat_latchOffset, toNat_latchOffset] at hnat
  exact Fin.eq_of_val_eq hnat

/-! ## Single accesses -/

theorem readRegister_latch {u : Uart} (h : u.divisorSelected = true) (k : Fin 3) :
    u.readRegister (latchOffset k) = .ok (u.divisor[k], u) := by
  match k with
  | 0 => simp [readRegister, latchOffset, h]
  | 1 => simp [readRegister, latchOffset, h]
  | 2 => simp [readRegister, latchOffset, h]

theorem writeRegister_latch {u : Uart} (h : u.divisorSelected = true) (k : Fin 3) (v : Byte) :
    u.writeRegister (latchOffset k) v = .ok { u with divisor := u.divisor.set k v } := by
  match k with
  | 0 => simp [writeRegister, latchOffset, h]
  | 1 => simp [writeRegister, latchOffset, h]
  | 2 => simp [writeRegister, latchOffset, h]

theorem exists_latchOffset {offset : Word} (h : offset.toNat < 3) :
    ∃ k, offset = latchOffset k := by
  refine ⟨⟨offset.toNat, h⟩, ?_⟩
  rw [latchOffset, BitVec.ofNat_toNat, BitVec.setWidth_eq]

theorem divisor_poll (u : Uart) : u.poll.divisor = u.divisor := by
  rw [u.poll_eq]

theorem divisor_acknowledge (u : Uart) : u.acknowledge.divisor = u.divisor := by
  rw [u.acknowledge_eq]

theorem divisor_read {u next : Uart} {offset : Word} {v : Byte}
    (h : u.readRegister offset = .ok (v, next)) : next.divisor = u.divisor := by
  cases reads_of_readRegister h with
  | receiver => rfl
  | identification => exact u.divisor_acknowledge
  | lineStatus => exact u.divisor_poll
  | plain => rfl

/-- A write that does not go to the selected latch leaves the latch as it is. -/
theorem divisor_write {u next : Uart} {offset : Word} {v : Byte}
    (h : u.writeRegister offset v = .ok next)
    (hother : offset.toNat < 3 → u.divisorSelected = false) : next.divisor = u.divisor := by
  unfold writeRegister at h
  split at h
  case h_1 hoffset hselected => simp [hoffset, hselected] at hother
  case h_2 hoffset hselected => simp [hoffset, hselected] at hother
  case h_3 hoffset hselected => simp [hoffset, hselected] at hother
  all_goals
    cases h
  all_goals
    rfl

theorem divisor_after {u : Uart} {e : Event} (h : e.isShared = true → u.divisorSelected = false) :
    (u.after e).divisor = u.divisor := by
  cases e with
  | read offset =>
      simp only [after]
      cases hread : u.readRegister offset with
      | error refusal => rfl
      | ok result => exact divisor_read hread
  | write offset v =>
      simp only [after]
      cases hwrite : u.writeRegister offset v with
      | error refusal => rfl
      | ok next => exact divisor_write hwrite fun hoffset => h (decide_eq_true hoffset)
  | poll => exact u.divisor_poll
  | arrival bytes => rfl

/-- An access to the selected latch changes at most the latch. -/
theorem after_of_shared {u : Uart} {e : Event} (h : u.divisorSelected = true)
    (hshared : e.isShared = true) : u.after e = { u with divisor := (u.after e).divisor } := by
  cases e with
  | read offset =>
      obtain ⟨k, rfl⟩ := exists_latchOffset (of_decide_eq_true hshared)
      simp only [after, readRegister_latch h]
  | write offset v =>
      obtain ⟨k, rfl⟩ := exists_latchOffset (of_decide_eq_true hshared)
      simp only [after, writeRegister_latch h]
  | poll => cases hshared
  | arrival bytes => cases hshared

/-- A byte of the latch is the one that has just been written to it, or stays. -/
theorem getElem_divisor_after (u : Uart) (e : Event) (k : Fin 3) :
    (u.after e).divisor[k] = (u.latched k e).getLast?.getD u.divisor[k] := by
  by_cases hlatch : e.isShared = true ∧ u.divisorSelected = true
  · obtain ⟨hshared, hselected⟩ := hlatch
    cases e with
    | read offset =>
        obtain ⟨j, rfl⟩ := exists_latchOffset (of_decide_eq_true hshared)
        simp [after, readRegister_latch hselected, latched]
    | write offset v =>
        obtain ⟨j, rfl⟩ := exists_latchOffset (of_decide_eq_true hshared)
        simp only [after, writeRegister_latch hselected, latched, hselected, and_true]
        by_cases hjk : j = k
        · subst hjk
          simp
        · have hoffset : latchOffset j ≠ latchOffset k := fun h => hjk (latchOffset_injective h)
          have hval : j.val ≠ k.val := fun h => hjk (Fin.eq_of_val_eq h)
          rw [if_neg hoffset]
          simp [hval]
    | poll => cases hshared
    | arrival bytes => cases hshared
  · have hother : e.isShared = true → u.divisorSelected = false := by
      intro hshared
      rw [← Bool.not_eq_true]
      exact fun hselected => hlatch ⟨hshared, hselected⟩
    have hnone : u.latched k e = [] := by
      cases e with
      | write offset v =>
          refine if_neg ?_
          rintro ⟨rfl, hselected⟩
          refine hlatch ⟨?_, hselected⟩
          simp only [Event.isShared, toNat_latchOffset, k.isLt, decide_true]
      | _ => rfl
    rw [divisor_after hother, hnone]
    rfl

/-! ## Runs -/

theorem play_of_shared {u : Uart} {es : List Event} (h : u.divisorSelected = true)
    (hshared : ∀ e ∈ es, e.isShared = true) :
    u.play es = { u with divisor := (u.play es).divisor } := by
  induction es generalizing u with
  | nil => rfl
  | cons e rest ih =>
      have hfirst := after_of_shared h (hshared e List.mem_cons_self)
      have hselected : (u.after e).divisorSelected = true := by
        rw [hfirst]
        exact h
      have hrest := ih hselected fun later hlater => hshared later (List.mem_cons_of_mem e hlater)
      rw [play]
      rw [hfirst] at hrest ⊢
      exact hrest

/-- A run changes a byte of the latch to the one that it has written there last. -/
theorem getElem_divisor_play (u : Uart) (es : List Event) (k : Fin 3) :
    (u.play es).divisor[k] = (u.collect (latched k) es).getLast?.getD u.divisor[k] := by
  induction es generalizing u with
  | nil => rfl
  | cons e rest ih =>
      rw [play, ih, getElem_divisor_after, collect, List.getLast?_append]
      cases ((u.after e).collect (latched k) rest).getLast? <;> rfl

theorem divisor_reset (console : Console) (k : Fin 3) : (reset console).divisor[k] = 0 := by
  simp [reset]

/-! ## A memory of its own -/

/--
While the latch is selected, a read at one of its offsets returns that byte of it and changes
nothing, a write replaces that byte and nothing else, and a run of such accesses changes nothing but
the latch: not the enables, the receiver, the interrupts or the console. No other event changes the
latch, neither an access to the other registers at these offsets nor one at another offset. So a
byte of the selected latch reads as what was written to it last while the latch was selected, or as
what it was before the run, which is zero after reset, however often the selection has changed.
-/
theorem divisor_isolated (u : Uart) :
    (u.divisorSelected = true →
      (∀ k : Fin 3, u.readRegister (latchOffset k) = .ok (u.divisor[k], u) ∧
        ∀ v, u.writeRegister (latchOffset k) v =
          .ok { u with divisor := u.divisor.set k v }) ∧
      ∀ es, (∀ e ∈ es, e.isShared = true) →
        u.play es = { u with divisor := (u.play es).divisor }) ∧
    (∀ e, (e.isShared = true → u.divisorSelected = false) → (u.after e).divisor = u.divisor) ∧
    (∀ es (k : Fin 3), (u.play es).divisorSelected = true →
      (u.play es).readRegister (latchOffset k) =
        .ok ((u.collect (latched k) es).getLast?.getD u.divisor[k], u.play es)) ∧
    ∀ console es (k : Fin 3), ((reset console).play es).divisorSelected = true →
      ((reset console).play es).readRegister (latchOffset k) =
        .ok (((reset console).collect (latched k) es).getLast?.getD 0,
          (reset console).play es) := by
  have hlast : ∀ (start : Uart) es (k : Fin 3), (start.play es).divisorSelected = true →
      (start.play es).readRegister (latchOffset k) =
        .ok ((start.collect (latched k) es).getLast?.getD start.divisor[k], start.play es) := by
    intro start es k hselected
    rw [readRegister_latch hselected, getElem_divisor_play]
  refine ⟨fun hselected => ⟨fun k => ⟨readRegister_latch hselected k, ?_⟩, ?_⟩, ?_, hlast u, ?_⟩
  · exact writeRegister_latch hselected k
  · exact fun es hshared => play_of_shared hselected hshared
  · exact fun e hother => divisor_after hother
  · intro console es k hselected
    rw [hlast (reset console) es k hselected, divisor_reset]

/-- Every register at a shared offset is written, some of them again under the other selection. -/
def togglingRun : List Event :=
  [.write 3 0x80, .write 0 7, .write 1 8, .write 3 0x03, .write 0 9, .write 1 0x0F, .write 2 1,
    .write 3 0x83, .write 1 4, .read 0, .write 3 0x00, .read 0, .write 3 0x80]

def toggled : Uart :=
  (reset (.withInput [5])).play togglingRun

theorem divisor_isolated_toggling :
    toggled.divisorSelected = true ∧
      toggled.readRegister (latchOffset 0) = .ok (7, toggled) ∧
      toggled.readRegister (latchOffset 1) = .ok (4, toggled) ∧
      toggled.readRegister (latchOffset 2) = .ok (0, toggled) ∧
      (∀ e ∈ [Event.write 0 1, .write 1 0, .read 2], e.isShared = true) ∧
      (toggled.play [.write 0 1, .write 1 0, .read 2]).ier = toggled.ier ∧
      (toggled.after (.write 3 0)).divisor = toggled.divisor := by
  have hselected : toggled.divisorSelected = true := by decide
  have hshared : ∀ e ∈ [Event.write 0 1, .write 1 0, .read 2], e.isShared = true := by decide
  have hlow : ((reset (.withInput [5])).collect (latched 0) togglingRun).getLast?.getD 0 = 7 := by
    decide
  have hhigh : ((reset (.withInput [5])).collect (latched 1) togglingRun).getLast?.getD 0 = 4 := by
    decide
  have hnever : ((reset (.withInput [5])).collect (latched 2) togglingRun).getLast?.getD 0 = 0 := by
    decide
  obtain ⟨halone, hothers, -, hlast⟩ := divisor_isolated toggled
  have hlast := hlast (.withInput [5]) togglingRun
  have hier := congrArg Uart.ier ((halone hselected).2 _ hshared)
  refine ⟨hselected, (hlast 0 hselected).trans ?_, (hlast 1 hselected).trans ?_,
    (hlast 2 hselected).trans ?_, hshared, hier, hothers (.write 3 0) ?_⟩
  · rw [hlow]
    rfl
  · rw [hhigh]
    rfl
  · rw [hnever]
    rfl
  · intro hshared
    cases hshared

end Uart

end Rv32
