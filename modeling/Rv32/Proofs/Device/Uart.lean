import Rv32.Device.Uart

/-! # The byte streams of the UART

Console input reaches software through a receiver that holds one byte, into
which it is taken by reads of the line status and by polls. What software has
been given, what the receiver holds and what waits at the console make up the
input, in order and after any run. In the other direction the console gets the
bytes that software has transmitted.
-/

namespace Rv32

namespace Uart

/-! ## Runs -/

inductive Event where
  | read (offset : Word)
  | write (offset : Word) (v : Byte)
  | poll
  | arrival (bytes : List Byte)
  deriving DecidableEq

def after (u : Uart) : Event → Uart
  | .read offset =>
      match u.readRegister offset with
      | .ok (_, next) => next
      | .error _ => u
  | .write offset v =>
      match u.writeRegister offset v with
      | .ok next => next
      | .error _ => u
  | .poll => u.poll
  | .arrival bytes => u.arrive bytes

def play (u : Uart) : List Event → Uart
  | [] => u
  | e :: rest => (u.after e).play rest

/-- What `f` sees of the events of a run, each in the state that it meets. -/
def collect (f : Uart → Event → List Byte) (u : Uart) : List Event → List Byte
  | [] => []
  | e :: rest => f u e ++ collect f (u.after e) rest

/-- The byte that a read of the receiver gives to software while one is ready. -/
def delivered (u : Uart) : Event → List Byte
  | .read offset =>
      if offset = 0 ∧ u.divisorSelected = false ∧ u.dataReady = true then
        match u.readRegister offset with
        | .ok (v, _) => [v]
        | .error _ => []
      else []
  | _ => []

def sent (u : Uart) : Event → List Byte
  | .write offset v => if offset = 0 ∧ u.divisorSelected = false then [v] else []
  | _ => []

def Event.supplied : Event → List Byte
  | arrival bytes => bytes
  | _ => []

def held (u : Uart) : List Byte :=
  if u.dataReady then [u.received] else []

def undelivered (u : Uart) : List Byte :=
  u.held ++ u.console.input

/-! ## What an access changes -/

/-- What a read can get and make of the UART. Three registers have effects. -/
inductive Reads (u : Uart) (offset : Word) : Byte → Uart → Prop where
  | receiver (hoffset : offset.toNat = 0) (hselected : u.divisorSelected = false) :
      Reads u offset u.received { u with dataReady := false }
  | identification (hoffset : offset.toNat = 2) (hselected : u.divisorSelected = false) :
      Reads u offset u.identification u.acknowledge
  | lineStatus (hoffset : offset.toNat = 5) : Reads u offset u.poll.lineStatus u.poll
  | plain (v : Byte) (hoffset : offset.toNat = 0 → u.divisorSelected = true) : Reads u offset v u

theorem reads_of_readRegister {u next : Uart} {offset : Word} {v : Byte}
    (h : u.readRegister offset = .ok (v, next)) : u.Reads offset v next := by
  unfold readRegister at h
  split at h
  case h_4 hoffset hselected =>
    cases h
    exact .receiver hoffset hselected
  case h_6 hoffset hselected =>
    cases h
    exact .identification hoffset hselected
  case h_9 hoffset =>
    cases h
    exact .lineStatus hoffset
  case h_12 => cases h
  all_goals
    cases h
    exact .plain _ (by simp_all)

/-- What a write can make of the UART, as far as its streams are concerned. -/
inductive Writes (u : Uart) (offset : Word) (v : Byte) : Uart → Prop where
  | transmitter (hoffset : offset.toNat = 0) (hselected : u.divisorSelected = false) :
      Writes u offset v (u.transmit v)
  | plain {next : Uart} (hoffset : offset.toNat = 0 → u.divisorSelected = true)
      (hconsole : next.console = u.console) (hheld : next.held = u.held) : Writes u offset v next

theorem writes_of_writeRegister {u next : Uart} {offset : Word} {v : Byte}
    (h : u.writeRegister offset v = .ok next) : u.Writes offset v next := by
  unfold writeRegister at h
  split at h
  case h_4 hoffset hselected =>
    cases h
    exact .transmitter hoffset hselected
  all_goals
    cases h
  all_goals
    exact .plain (by simp_all) rfl rfl

/-- An acknowledgement changes at most the interrupt of the transmitter. -/
theorem acknowledge_eq (u : Uart) :
    u.acknowledge = { u with transmitDue := u.acknowledge.transmitDue } := by
  unfold acknowledge
  split
  · rfl
  · rfl

/-- A poll changes at most the receiver and the input that waits at the console. -/
theorem poll_eq (u : Uart) :
    u.poll = { u with
      console := { u.console with input := u.poll.console.input }
      received := u.poll.received
      dataReady := u.poll.dataReady } := by
  unfold poll
  split
  · rfl
  · split
    · rfl
    · rfl

theorem console_acknowledge (u : Uart) : u.acknowledge.console = u.console := by
  rw [u.acknowledge_eq]

theorem held_acknowledge (u : Uart) : u.acknowledge.held = u.held := by
  rw [u.acknowledge_eq]
  rfl

/-! ## Input -/

theorem undelivered_congr {u next : Uart} (hheld : next.held = u.held)
    (hconsole : next.console = u.console) : next.undelivered = u.undelivered := by
  unfold undelivered
  rw [hheld, hconsole]

theorem undelivered_poll (u : Uart) : u.poll.undelivered = u.undelivered := by
  unfold poll
  split
  · rfl
  · rename_i hready
    split
    · rfl
    · rename_i b rest hinput
      simp [undelivered, held, hready, hinput]

theorem dataReady_poll_iff (u : Uart) : u.poll.dataReady = true ↔ u.undelivered ≠ [] := by
  have hready : u.poll.dataReady = true ↔ u.dataReady = true ∨ u.console.input ≠ [] := by
    unfold poll
    split
    · rename_i hready
      simp [hready]
    · rename_i hready
      split
      · rename_i hinput
        simp [hready, hinput]
      · rename_i b rest hinput
        simp [hinput]
  rw [hready]
  unfold undelivered held
  cases u.dataReady <;> simp

theorem undelivered_arrive (u : Uart) (bytes : List Byte) :
    (u.arrive bytes).undelivered = u.undelivered ++ bytes := by
  change u.held ++ (u.console.input ++ bytes) = _
  rw [undelivered, List.append_assoc]

theorem delivered_eq_nil {u : Uart} {offset : Word}
    (h : offset.toNat = 0 → u.divisorSelected = true) : u.delivered (.read offset) = [] := by
  have hno : ¬ (offset = 0 ∧ u.divisorSelected = false ∧ u.dataReady = true) := by
    rintro ⟨rfl, hselected, -⟩
    rw [h rfl] at hselected
    cases hselected
  simp only [delivered]
  rw [if_neg hno]

theorem delivered_receiver {u next : Uart} (hselected : u.divisorSelected = false)
    (h : u.readRegister 0 = .ok (u.received, next)) : u.delivered (.read 0) = u.held := by
  unfold held
  simp only [delivered, h]
  cases u.dataReady with
  | false => rw [if_neg (by simp), if_neg (by simp)]
  | true => rw [if_pos ⟨trivial, hselected, rfl⟩, if_pos rfl]

theorem delivered_append_of_reads {u next : Uart} {offset : Word} {v : Byte}
    (h : u.readRegister offset = .ok (v, next)) :
    u.delivered (.read offset) ++ next.undelivered = u.undelivered := by
  cases reads_of_readRegister h with
  | receiver hoffset hselected =>
      have hzero : offset = 0 := BitVec.eq_of_toNat_eq hoffset
      subst hzero
      rw [delivered_receiver hselected h]
      rfl
  | identification hoffset =>
      rw [delivered_eq_nil (by omega), List.nil_append]
      exact undelivered_congr u.held_acknowledge u.console_acknowledge
  | lineStatus hoffset =>
      rw [delivered_eq_nil (by omega), List.nil_append]
      exact u.undelivered_poll
  | plain _ hoffset => rw [delivered_eq_nil hoffset, List.nil_append]

theorem undelivered_of_writes {u next : Uart} {offset : Word} {v : Byte}
    (h : u.writeRegister offset v = .ok next) : next.undelivered = u.undelivered := by
  cases writes_of_writeRegister h with
  | transmitter => rfl
  | plain _ hconsole hheld => exact undelivered_congr hheld hconsole

/-- An event gives software the next bytes of the input, and lengthens it by what it brings. -/
theorem delivered_append_undelivered (u : Uart) (e : Event) :
    u.delivered e ++ (u.after e).undelivered = u.undelivered ++ e.supplied := by
  cases e with
  | read offset =>
      simp only [Event.supplied, List.append_nil, after]
      cases hread : u.readRegister offset with
      | error refusal => simp [delivered, hread]
      | ok result => exact delivered_append_of_reads hread
  | write offset v =>
      simp only [delivered, List.nil_append, Event.supplied, List.append_nil, after]
      cases hwrite : u.writeRegister offset v with
      | error refusal => rfl
      | ok next => exact undelivered_of_writes hwrite
  | poll => simpa only [delivered, List.nil_append, Event.supplied, List.append_nil, after]
      using u.undelivered_poll
  | arrival bytes => exact u.undelivered_arrive bytes

theorem collect_delivered_append (u : Uart) (es : List Event) :
    u.collect delivered es ++ (u.play es).undelivered =
      u.undelivered ++ es.flatMap Event.supplied := by
  induction es generalizing u with
  | nil => simp [collect, play]
  | cons e rest ih =>
      have hfirst := u.delivered_append_undelivered e
      calc u.collect delivered (e :: rest) ++ (u.play (e :: rest)).undelivered
          = u.delivered e ++
              ((u.after e).collect delivered rest ++ ((u.after e).play rest).undelivered) := by
            rw [collect, play, List.append_assoc]
        _ = u.delivered e ++ ((u.after e).undelivered ++ rest.flatMap Event.supplied) := by
            rw [ih]
        _ = u.undelivered ++ e.supplied ++ rest.flatMap Event.supplied := by
            rw [← List.append_assoc, hfirst]
        _ = u.undelivered ++ (e :: rest).flatMap Event.supplied := by
            rw [List.flatMap_cons, List.append_assoc]

/-! ## Output -/

theorem output_poll (u : Uart) : u.poll.console.output = u.console.output := by
  rw [u.poll_eq]

theorem output_read {u next : Uart} {offset : Word} {v : Byte}
    (h : u.readRegister offset = .ok (v, next)) : next.console.output = u.console.output := by
  cases reads_of_readRegister h with
  | receiver => rfl
  | identification => rw [u.console_acknowledge]
  | lineStatus => exact u.output_poll
  | plain => rfl

theorem sent_eq_nil {u : Uart} {offset : Word} {v : Byte}
    (h : offset.toNat = 0 → u.divisorSelected = true) : u.sent (.write offset v) = [] := by
  have hno : ¬ (offset = 0 ∧ u.divisorSelected = false) := by
    rintro ⟨rfl, hselected⟩
    rw [h rfl] at hselected
    cases hselected
  simp only [sent]
  rw [if_neg hno]

theorem divisorSelected_of_refused {u : Uart} {offset : Word} {v : Byte} {refusal : AccessError}
    (h : u.writeRegister offset v = .error refusal) (hoffset : offset.toNat = 0) :
    u.divisorSelected = true := by
  cases hselected : u.divisorSelected with
  | true => rfl
  | false => simp [writeRegister, hoffset, hselected] at h

theorem output_write {u next : Uart} {offset : Word} {v : Byte}
    (h : u.writeRegister offset v = .ok next) :
    next.console.output.toList = u.console.output.toList ++ u.sent (.write offset v) := by
  cases writes_of_writeRegister h with
  | transmitter hoffset hselected =>
      have hzero : offset = 0 := BitVec.eq_of_toNat_eq hoffset
      simp [sent, hzero, hselected, transmit, Console.emit]
  | plain hoffset hconsole => rw [sent_eq_nil hoffset, List.append_nil, hconsole]

theorem output_after (u : Uart) (e : Event) :
    (u.after e).console.output.toList = u.console.output.toList ++ u.sent e := by
  cases e with
  | read offset =>
      simp only [after, sent, List.append_nil]
      cases hread : u.readRegister offset with
      | error refusal => rfl
      | ok result => exact congrArg Array.toList (output_read hread)
  | write offset v =>
      simp only [after]
      cases hwrite : u.writeRegister offset v with
      | error refusal => rw [sent_eq_nil (divisorSelected_of_refused hwrite), List.append_nil]
      | ok next => exact output_write hwrite
  | poll =>
      simp only [after, sent, List.append_nil]
      rw [u.output_poll]
  | arrival bytes => simp only [after, sent, List.append_nil, arrive, Console.arrive]

theorem output_bus_read (u : Uart) (address : Word) (size : Nat) :
    (Bus.read u address size).2.console.output = u.console.output := by
  cases size with
  | zero => rfl
  | succ rest =>
      simp only [Bus.read]
      cases hread : u.readRegister (registerOffset address) with
      | error refusal => rfl
      | ok result => exact output_read hread

theorem output_play (u : Uart) (es : List Event) :
    (u.play es).console.output.toList = u.console.output.toList ++ u.collect sent es := by
  induction es generalizing u with
  | nil => simp [collect, play]
  | cons e rest ih =>
      have hfirst := u.output_after e
      rw [play, ih, hfirst, collect, List.append_assoc]

/-! ## The line status -/

theorem lineStatus_poll (u : Uart) :
    (u.poll.lineStatus.getLsbD 0 = true ↔ u.undelivered ≠ []) ∧
      u.poll.lineStatus.getLsbD 5 = true ∧ u.poll.lineStatus.getLsbD 6 = true := by
  rw [← u.dataReady_poll_iff]
  unfold lineStatus
  cases u.poll.dataReady with
  | false => decide
  | true => decide

/-! ## Bytes in order -/

/--
From reset on, what software has been given, what the receiver holds and what waits at the console
are the input in order. The line status says that data is ready when some of the input has not been
given, and always that the transmitter is empty. The output is what software has sent.
-/
theorem bytes_kept_in_order (console : Console) (es : List Event) :
    let start := reset console
    let u := start.play es
    let given := start.collect delivered es
    let input := console.input ++ es.flatMap Event.supplied
    given ++ u.held ++ u.console.input = input ∧
      (∃ status next, u.readRegister 5 = .ok (status, next) ∧
        (status.getLsbD 0 = true ↔ given.length < input.length) ∧
        status.getLsbD 5 = true ∧ status.getLsbD 6 = true) ∧
      u.console.output.toList = console.output.toList ++ start.collect sent es := by
  intro start u given input
  have hinput : given ++ u.undelivered = input := start.collect_delivered_append es
  have hmissing : u.undelivered ≠ [] ↔ given.length < input.length := by
    rw [← hinput, List.length_append, ← List.length_pos_iff]
    omega
  obtain ⟨hready, hempty⟩ := u.lineStatus_poll
  refine ⟨?_, ⟨u.poll.lineStatus, u.poll, rfl, hready.trans hmissing, hempty⟩, ?_⟩
  · rw [List.append_assoc]
    exact hinput
  · exact start.output_play es

/-- A byte arrives while another one is in the receiver, and the latch hides the receiver twice. -/
example :
    let es : List Event := [.arrival [1, 2], .poll, .write 3 0x80, .read 0, .write 0 9, .write 3 0,
      .read 0, .read 0, .write 0 7, .read 5]
    let start := reset (.withInput [])
    start.collect delivered es = [1] ∧ (start.play es).held = [2] ∧
      (start.play es).console.output = #[7] := by
  decide

end Uart

end Rv32
