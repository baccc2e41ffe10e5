import Rv32.Proofs.Device.Uart

/-! # Interrupts of the UART

Two sources share one line: a byte that has been received, which goes first, and
the empty transmitter, whose interrupt is acknowledged by the read that reports
it. What the identification register reports can be relied on. A reported byte
holds the line until it is fetched or the enables are written, and meanwhile no
interrupt of the transmitter gets lost. After a reported empty transmitter the
line is low until there is something new.
-/

namespace Rv32

namespace Uart

/-! ## What ends a state of the line -/

/-- Some event of a run is one that `f` picks out, in the state that it meets. -/
def meets (f : Uart → Event → Bool) (u : Uart) : List Event → Bool
  | [] => false
  | e :: rest => f u e || meets f (u.after e) rest

def empties (u : Uart) : Event → Bool
  | .read offset => offset == 0 && !u.divisorSelected
  | _ => false

def setsEnables (u : Uart) : Event → Bool
  | .write offset _ => offset == 1 && !u.divisorSelected
  | _ => false

def transmits (u : Uart) : Event → Bool
  | .write offset _ => offset == 0 && !u.divisorSelected
  | _ => false

/-- The interrupt of the transmitter is enabled, which it was not before. -/
def enablesTransmitter (u : Uart) (e : Event) : Bool :=
  !u.transmitEnabled && (u.after e).transmitEnabled

def receivedDue (u : Uart) : Bool :=
  u.receiveEnabled && u.dataReady

/-- What may lower a line that is high for a received byte. -/
def releases (u : Uart) (e : Event) : Bool :=
  u.empties e || u.setsEnables e

/-- What may raise a line that is low. -/
def raises (u : Uart) (e : Event) : Bool :=
  u.transmits e || u.enablesTransmitter e || (u.after e).receivedDue

/-! ## What an event does to the interrupts -/

/-- What an event can make of what the line depends on. -/
inductive Signals (u : Uart) : Event → Uart → Prop where
  | emptied (hselected : u.divisorSelected = false) :
      Signals u (.read 0) { u with dataReady := false }
  | identified (hselected : u.divisorSelected = false) : Signals u (.read 2) u.acknowledge
  | polled (e : Event) : Signals u e u.poll
  | transmitted (v : Byte) (hselected : u.divisorSelected = false) :
      Signals u (.write 0 v) (u.transmit v)
  | enabled (v : Byte) (hselected : u.divisorSelected = false) :
      Signals u (.write 1 v) (u.writeEnable v)
  | other {e : Event} {next : Uart} (hier : next.ier = u.ier)
      (hready : next.dataReady = u.dataReady) (hdue : next.transmitDue = u.transmitDue) :
      Signals u e next

theorem signals_of_reads {u next : Uart} {offset : Word} {v : Byte}
    (h : u.Reads offset v next) : u.Signals (.read offset) next := by
  cases h with
  | receiver hoffset hselected =>
      obtain rfl : offset = 0 := BitVec.eq_of_toNat_eq hoffset
      exact .emptied hselected
  | identification hoffset hselected =>
      obtain rfl : offset = 2 := BitVec.eq_of_toNat_eq hoffset
      exact .identified hselected
  | lineStatus => exact .polled _
  | plain => exact .other rfl rfl rfl

theorem signals_of_writeRegister {u next : Uart} {offset : Word} {v : Byte}
    (h : u.writeRegister offset v = .ok next) : u.Signals (.write offset v) next := by
  unfold writeRegister at h
  split at h
  case h_4 hoffset hselected =>
    cases h
    obtain rfl : offset = 0 := BitVec.eq_of_toNat_eq hoffset
    exact .transmitted v hselected
  case h_5 hoffset hselected =>
    cases h
    obtain rfl : offset = 1 := BitVec.eq_of_toNat_eq hoffset
    exact .enabled v hselected
  all_goals
    cases h
  all_goals
    exact .other rfl rfl rfl

theorem signals_after (u : Uart) (e : Event) : u.Signals e (u.after e) := by
  cases e with
  | read offset =>
      simp only [after]
      cases hread : u.readRegister offset with
      | error refusal => exact .other rfl rfl rfl
      | ok result => exact signals_of_reads (reads_of_readRegister hread)
  | write offset v =>
      simp only [after]
      cases hwrite : u.writeRegister offset v with
      | error refusal => exact .other rfl rfl rfl
      | ok next => exact signals_of_writeRegister hwrite
  | poll => exact .polled _
  | arrival bytes => exact .other rfl rfl rfl

theorem transmitDue_poll (u : Uart) : u.poll.transmitDue = u.transmitDue := by
  rw [u.poll_eq]

theorem receiveEnabled_congr {u next : Uart} (h : next.ier = u.ier) :
    next.receiveEnabled = u.receiveEnabled := by
  unfold receiveEnabled
  rw [h]

theorem transmitEnabled_writeEnable (u : Uart) (v : Byte) :
    (u.writeEnable v).transmitEnabled = v.getLsbD 1 := by
  simp [transmitEnabled, writeEnable]

/-! ## The line -/

theorem interruptId_eq_receivedData_iff (u : Uart) :
    u.interruptId = .receivedData ↔ u.receivedDue = true := by
  unfold interruptId receivedDue
  cases u.receiveEnabled && u.dataReady <;> cases u.transmitEnabled && u.transmitDue <;> decide

theorem interruptId_eq_transmitterEmpty_iff (u : Uart) :
    u.interruptId = .transmitterEmpty ↔
      u.receivedDue = false ∧ u.transmitEnabled = true ∧ u.transmitDue = true := by
  unfold interruptId receivedDue
  cases u.receiveEnabled && u.dataReady <;> cases u.transmitEnabled <;> cases u.transmitDue <;>
    decide

theorem interruptLine_iff (u : Uart) :
    u.interruptLine = true ↔
      u.receivedDue = true ∨ u.transmitEnabled = true ∧ u.transmitDue = true := by
  unfold interruptLine interruptId receivedDue
  cases u.receiveEnabled && u.dataReady <;> cases u.transmitEnabled <;> cases u.transmitDue <;>
    decide

theorem interruptLine_eq_false_iff (u : Uart) :
    u.interruptLine = false ↔ u.interruptId = .none := by
  unfold interruptLine
  rw [decide_eq_false_iff_not, Decidable.not_not]

/-- The low half of the register is the code of what is reported. -/
theorem identification_and (u : Uart) : u.identification &&& 0x0F = u.interruptId.code := by
  unfold identification
  cases u.fifoEnabled <;> cases u.interruptId <;> decide

theorem InterruptId.code_injective {a b : InterruptId} (h : a.code = b.code) : a = b := by
  revert h
  cases a <;> cases b <;> decide

/-- What a read of the register reports is what the line is high or low for. -/
theorem reports_iff (u : Uart) (id : InterruptId) :
    u.identification &&& 0x0F = id.code ↔ u.interruptId = id := by
  rw [identification_and]
  exact ⟨InterruptId.code_injective, congrArg InterruptId.code⟩

/-! ## A line that is high for a received byte -/

theorem acknowledge_of_receivedData {u : Uart} (h : u.interruptId = .receivedData) :
    u.acknowledge = u := by
  unfold acknowledge
  rw [h]
  rfl

/-- A received byte keeps the line high, and no interrupt of the transmitter has got lost. -/
structure KeptHigh (u next : Uart) : Prop where
  received : next.receivedDue = true
  enables : next.ier = u.ier
  due : u.transmitDue = true → next.transmitDue = true

theorem KeptHigh.trans {u v w : Uart} (h : u.KeptHigh v) (hnext : v.KeptHigh w) : u.KeptHigh w :=
  { received := hnext.received
    enables := hnext.enables.trans h.enables
    due := fun hdue => hnext.due (h.due hdue) }

theorem KeptHigh.line {u next : Uart} (h : u.KeptHigh next) : next.interruptLine = true :=
  next.interruptLine_iff.mpr (.inl h.received)

/-- Reports of the byte acknowledge nothing, and polls have no room to take another one. -/
theorem keptHigh_after {u : Uart} {e : Event} (h : u.receivedDue = true)
    (hno : u.releases e = false) : u.KeptHigh (u.after e) := by
  have hsame : u.KeptHigh u := { received := h, enables := rfl, due := id }
  have hsignals := u.signals_after e
  generalize u.after e = next at hsignals
  unfold releases at hno
  cases hsignals with
  | emptied hselected => simp [empties, hselected] at hno
  | identified =>
      rw [acknowledge_of_receivedData (u.interruptId_eq_receivedData_iff.mpr h)]
      exact hsame
  | polled =>
      have hready : u.dataReady = true := (Bool.and_eq_true_iff.mp h).2
      have hunchanged : u.poll = u := by
        unfold poll
        rw [if_pos hready]
      rw [hunchanged]
      exact hsame
  | transmitted v => exact { received := h, enables := rfl, due := fun _ => rfl }
  | enabled v hselected => simp [setsEnables, hselected] at hno
  | other hier hready hdue =>
      refine { received := ?_, enables := hier, due := fun hu => hdue.trans hu }
      unfold receivedDue
      rw [receiveEnabled_congr hier, hready]
      exact h

theorem keptHigh_play {u : Uart} {es : List Event} (h : u.receivedDue = true)
    (hno : u.meets releases es = false) : u.KeptHigh (u.play es) := by
  induction es generalizing u with
  | nil => exact { received := h, enables := rfl, due := id }
  | cons e rest ih =>
      simp only [meets, Bool.or_eq_false_iff] at hno
      have hfirst := keptHigh_after h hno.1
      exact hfirst.trans (ih hfirst.received hno.2)

/-! ## A line that is low -/

structure Quiet (u : Uart) : Prop where
  received : u.receivedDue = false
  acknowledged : u.transmitDue = false

theorem Quiet.line {u : Uart} (h : u.Quiet) : u.interruptLine = false := by
  rw [← Bool.not_eq_true, interruptLine_iff, h.received, h.acknowledged]
  simp

/-- Only a transmission and an enable that is new make an interrupt of the transmitter due. -/
theorem quiet_after {u : Uart} {e : Event} (h : u.Quiet) (hno : u.raises e = false) :
    (u.after e).Quiet := by
  unfold raises at hno
  simp only [Bool.or_eq_false_iff] at hno
  obtain ⟨⟨htransmits, henables⟩, hreceived⟩ := hno
  -- the received byte is excluded of the state after the event, so the transmitter is left
  refine { received := hreceived, acknowledged := ?_ }
  unfold enablesTransmitter at henables
  have hsignals := u.signals_after e
  generalize u.after e = next at hsignals henables
  cases hsignals with
  | emptied => exact h.acknowledged
  | identified =>
      unfold acknowledge
      split
      · rfl
      · exact h.acknowledged
  | polled => rw [transmitDue_poll, h.acknowledged]
  | transmitted v hselected => simp [transmits, hselected] at htransmits
  | enabled v =>
      rw [transmitEnabled_writeEnable] at henables
      change (u.transmitDue || (!u.transmitEnabled && v.getLsbD 1)) = false
      rw [h.acknowledged, henables, Bool.or_self]
  | other hier hready hdue => rw [hdue, h.acknowledged]

theorem quiet_play {u : Uart} {es : List Event} (h : u.Quiet) (hno : u.meets raises es = false) :
    (u.play es).Quiet := by
  induction es generalizing u with
  | nil => exact h
  | cons e rest ih =>
      simp only [meets, Bool.or_eq_false_iff] at hno
      exact ih (quiet_after h hno.1) hno.2

theorem quiet_acknowledge {u : Uart} (h : u.interruptId = .transmitterEmpty) :
    u.acknowledge.Quiet := by
  have hreceived := (u.interruptId_eq_transmitterEmpty_iff.mp h).1
  unfold acknowledge
  rw [if_pos h]
  exact { received := hreceived, acknowledged := rfl }

/-! ## What the identification register promises -/

theorem readRegister_identification {u : Uart} (h : u.divisorSelected = false) :
    u.readRegister 2 = .ok (u.identification, u.acknowledge) := by
  simp [readRegister, h]

theorem writeRegister_transmitter {u : Uart} (h : u.divisorSelected = false) (b : Byte) :
    u.writeRegister 0 b = .ok (u.transmit b) := by
  simp [writeRegister, h]

/--
While the divisor latch is not selected, the identification register reports nothing exactly if the
line was low. If it reports a received byte, the line is high after every run in which the receiver
is not read and the enables are not written, the enables are the same, and an interrupt of the
transmitter that was due is due. If it reports the empty transmitter, the line is low after every
run in which nothing is transmitted, the interrupt of the transmitter is not newly enabled, and a
received byte with its interrupt enabled is never there. A transmission with the interrupt of the
transmitter enabled leaves the line high.
-/
theorem identification_matches_line (u : Uart) (hselected : u.divisorSelected = false) :
    (∃ v next, u.readRegister 2 = .ok (v, next) ∧
      (v &&& 0x0F = InterruptId.none.code ↔ u.interruptLine = false) ∧
      (v &&& 0x0F = InterruptId.receivedData.code →
        ∀ es, next.meets releases es = false →
          (next.play es).interruptLine = true ∧ (next.play es).ier = u.ier ∧
            (u.transmitDue = true → (next.play es).transmitDue = true)) ∧
      (v &&& 0x0F = InterruptId.transmitterEmpty.code →
        ∀ es, next.meets raises es = false → (next.play es).interruptLine = false)) ∧
    ∀ b, ∃ next, u.writeRegister 0 b = .ok next ∧
      (u.transmitEnabled = true → next.interruptLine = true) := by
  refine ⟨⟨u.identification, u.acknowledge, readRegister_identification hselected, ?_, ?_, ?_⟩,
    fun b => ⟨u.transmit b, writeRegister_transmitter hselected b, ?_⟩⟩
  · rw [reports_iff, interruptLine_eq_false_iff]
  · intro hreports es hno
    have hid := (u.reports_iff _).mp hreports
    rw [acknowledge_of_receivedData hid] at hno ⊢
    have hkept := keptHigh_play (u.interruptId_eq_receivedData_iff.mp hid) hno
    exact ⟨hkept.line, hkept.enables, hkept.due⟩
  · intro hreports es hno
    have hid := (u.reports_iff _).mp hreports
    exact (quiet_play (quiet_acknowledge hid) hno).line
  · intro henabled
    exact (u.transmit b).interruptLine_iff.mpr (.inr ⟨henabled, rfl⟩)

def doublyDue : Uart :=
  (reset (.withInput [7, 8])).play [.write 1 3, .poll]

def transmitterLeft : Uart :=
  doublyDue.after (.read 0)

/-- Accesses to the divisor latch are none to the receiver and to the enables. -/
def latchDetour : List Event :=
  [.write 3 0x80, .read 0, .write 1 0, .write 3 0x03, .read 2, .poll, .write 0 5]

/-- The second byte is taken while its interrupt is disabled. -/
def quietDetour : List Event :=
  [.write 3 0x80, .write 0 5, .write 3 0x03, .write 1 2, .read 5, .read 2]

theorem identification_matches_line_both_due :
    doublyDue.divisorSelected = false ∧ doublyDue.transmitDue = true ∧
      doublyDue.acknowledge.meets releases latchDetour = false ∧
      (doublyDue.acknowledge.play latchDetour).interruptLine = true ∧
      (doublyDue.acknowledge.play latchDetour).transmitDue = true ∧
      transmitterLeft.divisorSelected = false ∧
      transmitterLeft.acknowledge.meets raises quietDetour = false ∧
      (transmitterLeft.acknowledge.play quietDetour).interruptLine = false ∧
      ∃ next, doublyDue.writeRegister 0 9 = .ok next ∧ next.interruptLine = true := by
  have hfirst : doublyDue.divisorSelected = false := by decide
  have hdue : doublyDue.transmitDue = true := by decide
  have hheld : doublyDue.acknowledge.meets releases latchDetour = false := by decide
  have hlater : transmitterLeft.divisorSelected = false := by decide
  have hquiet : transmitterLeft.acknowledge.meets raises quietDetour = false := by decide
  obtain ⟨⟨v, next, hread, -, hreceived, -⟩, hsends⟩ := identification_matches_line doublyDue hfirst
  rw [readRegister_identification hfirst] at hread
  cases hread
  obtain ⟨hline, -, hkept⟩ := hreceived (by decide) latchDetour hheld
  obtain ⟨⟨w, after, hread, -, -, hempty⟩, -⟩ := identification_matches_line transmitterLeft hlater
  rw [readRegister_identification hlater] at hread
  cases hread
  obtain ⟨sent, hsent, hhigh⟩ := hsends 9
  exact ⟨hfirst, hdue, hheld, hline, hkept hdue, hlater, hquiet,
    hempty (by decide) quietDetour hquiet, sent, hsent, hhigh (by decide)⟩

end Uart

end Rv32
