import Rv32.Proofs.Hart.Accesses
import Rv32.Proofs.Hart.Run
import Rv32.Proofs.Trap.Entry

/-! # Load-reserved and store-conditional

The reservation of a hart is a memory of its past: of the load-reserved and
store-conditional instructions since the last reset, the latest one decides
whether the next store-conditional is made. No other instruction and no trap
has a part in it.
-/

namespace Rv32

inductive ReservationUse where
  | loadReserved (address : Word)
  | storeConditional
  deriving DecidableEq, Repr

def ReservationUse.reserved? : ReservationUse → Option Word
  | loadReserved address => some address
  | storeConditional => none

namespace Hart

def reservationUse? (h : Hart) : Instruction → Option ReservationUse
  | .r x =>
      match x.operation? with
      | some .loadReserved => some (.loadReserved (h.x x.rs1))
      | some .storeConditional => some .storeConditional
      | _ => none
  | _ => none

inductive Fresh : Hart → Prop where
  | initial (resetVector : Word) (ecallMode : EcallMode) (clock : DoubleWord) :
      Fresh (.initial resetVector ecallMode clock)
  | reset (h : Hart) : Fresh h.reset

theorem Fresh.reservation {h : Hart} (hfresh : h.Fresh) : h.reservation = none := by
  cases hfresh with
  | initial resetVector ecallMode clock => rfl
  | reset h => rfl

theorem Effect.reservation_eq {h after : Hart} {i : Instruction} {outcome : Outcome}
    (he : Effect h i outcome after) (hnone : h.reservationUse? i = none) :
    after.reservation = h.reservation := by
  cases he with
  | reserved x hi hop v =>
      subst hi
      simp [reservationUse?, hop] at hnone
  | released x hi hop v =>
      subst hi
      simp [reservationUse?, hop] at hnone
  | _ => rfl

theorem reservation_takeInterrupt (h : Hart) : h.takeInterrupt.2.reservation = h.reservation :=
  takeInterrupt_of_trap (P := fun k => k.reservation = h.reservation) rfl h.reservation_trap

theorem reservation_deliver (h : Hart) (outcome : Outcome) :
    (h.deliver outcome).2.reservation = h.reservation :=
  deliver_of_trap (P := fun k => k.reservation = h.reservation) rfl h.reservation_trap outcome

/-! ## What a hart remembers -/

def lastUse? (past : List (Hart × Instruction)) : Option ReservationUse :=
  past.findSome? fun e => e.1.reservationUse? e.2

/-- The reservation is what the latest instruction has left that touched it. -/
def Remembers (h : Hart) (past : List (Hart × Instruction)) : Prop :=
  h.reservation = (lastUse? past).bind ReservationUse.reserved?

theorem Remembers.cons {h after : Hart} {i : Instruction} {past : List (Hart × Instruction)}
    (hm : Remembers h past)
    (hafter : after.reservation =
      match h.reservationUse? i with
      | some u => u.reserved?
      | none => h.reservation) :
    Remembers after ((h, i) :: past) := by
  unfold Remembers lastUse? at *
  rw [hafter, List.findSome?_cons]
  cases h.reservationUse? i with
  | some u => rfl
  | none => exact hm

theorem Remembers.reservation_iff {h : Hart} {past : List (Hart × Instruction)}
    (hm : Remembers h past) (address : Word) :
    h.reservation = some address ↔ lastUse? past = some (.loadReserved address) := by
  unfold Remembers at hm
  rw [hm]
  cases lastUse? past with
  | none => simp
  | some u => cases u <;> simp [ReservationUse.reserved?]

end Hart

/-- What can be done with a machine. Instructions and traps also come outside of steps. -/
inductive Deed (β : Type) where
  | execute (i : Instruction)
  | trap (c : Cause)
  | event (e : Event β)

namespace Machine

variable {β : Type} [Bus β]

/-! ## The two instructions -/

theorem execute_loadReserved (m : Machine β) {x : RType}
    (hop : x.operation? = some .loadReserved) :
    m.execute (.r x) = .ok (m.loadReserved x.rd (m.hart.x x.rs1)) :=
  m.execute_reg hop

theorem execute_storeConditional (m : Machine β) {x : RType}
    (hop : x.operation? = some .storeConditional) :
    m.execute (.r x) = .ok (m.storeConditional x.rd (m.hart.x x.rs1) (m.hart.x x.rs2)) :=
  m.execute_reg hop

theorem executeAccesses_storeConditional (m : Machine β) {x : RType}
    (hop : x.operation? = some .storeConditional) :
    m.executeAccesses (.r x) =
      (m.journaled.storeConditional x.rd (m.hart.x x.rs1) (m.hart.x x.rs2)).2.bus.accesses := by
  unfold executeAccesses
  rw [m.journaled.execute_storeConditional hop]
  rfl

theorem storeConditional_of_reserved {m : Machine β} {address : Word}
    (h : m.hart.reservation = some address) (rd : Register) (v : Word) :
    m.storeConditional rd address v =
      (.completed,
        { hart := { m.hart with reservation := none }.writeBack rd 0
          bus := Bus.write m.bus address (leBytes 4 v) }) := by
  simp only [storeConditional, h, if_true]

theorem storeConditional_of_not_reserved {m : Machine β} {address : Word}
    (h : m.hart.reservation ≠ some address) (rd : Register) (v : Word) :
    m.storeConditional rd address v =
      (.completed, { m with hart := { m.hart with reservation := none }.writeBack rd 1 }) := by
  simp only [storeConditional, h, if_false]

theorem reservation_storeConditional (m : Machine β) (rd : Register) (address v : Word) :
    (m.storeConditional rd address v).2.hart.reservation = none := by
  unfold storeConditional
  split
  · rfl
  · rfl

theorem reservation_executed (m : Machine β) (i : Instruction) :
    (m.executed i).hart.reservation =
      match m.hart.reservationUse? i with
      | some u => u.reserved?
      | none => m.hart.reservation := by
  cases huse : m.hart.reservationUse? i with
  | none =>
      rcases m.executed_cases i with hsame | ⟨outcome, heffect⟩
      · rw [hsame]
      · exact heffect.reservation_eq huse
  | some u =>
      cases i with
      | r x =>
          simp only [Hart.reservationUse?] at huse
          split at huse
          · rename_i hop
            cases huse
            simp only [executed, m.execute_loadReserved hop]
            rfl
          · rename_i hop
            cases huse
            simp only [executed, m.execute_storeConditional hop]
            exact m.reservation_storeConditional _ _ _
          · cases huse
      | _ => cases huse

/-! ## Histories -/

def perform (m : Machine β) : Deed β → Machine β
  | .execute i => m.executed i
  | .trap c => { m with hart := m.hart.trap c }
  | .event e => m.after e

/--
The instructions executed since the last reset after a deed, if they were `past`
before: the latest first, each with the hart that has executed it.
-/
def record (m : Machine β) (past : List (Hart × Instruction)) :
    Deed β → List (Hart × Instruction)
  | .execute i => (m.hart, i) :: past
  | .event .step =>
      match m.attempt? with
      | some (i, _, _) => (m.hart, i) :: past
      | none => past
  | .event .reset => []
  | _ => past

def performAll (m : Machine β) : List (Deed β) → Machine β
  | [] => m
  | d :: rest => (m.perform d).performAll rest

def recordAll (m : Machine β) (past : List (Hart × Instruction)) :
    List (Deed β) → List (Hart × Instruction)
  | [] => past
  | d :: rest => (m.perform d).recordAll (m.record past d) rest

theorem reservation_step_of_attempt {m after : Machine β} {i : Instruction} {outcome : Outcome}
    (hattempt : m.attempt? = some (i, outcome, after)) :
    m.step.2.hart.reservation =
      match m.hart.reservationUse? i with
      | some u => u.reserved?
      | none => m.hart.reservation := by
  have hexec := (attempt?_eq_some.mp hattempt).2
  have hafter : m.fetch.2.executed i = after := by
    simp only [executed, hexec]
  have hreservation := m.fetch.2.reservation_executed i
  rw [hafter, hart_fetch] at hreservation
  rw [step_of_attempt hattempt]
  exact (Hart.reservation_deliver after.hart.retire outcome).trans hreservation

theorem remembers_perform {m : Machine β} {past : List (Hart × Instruction)}
    (hm : m.hart.Remembers past) (d : Deed β) :
    (m.perform d).hart.Remembers (m.record past d) := by
  cases d with
  | execute i => exact hm.cons (m.reservation_executed i)
  | trap c => exact hm
  | event e =>
      cases e with
      | step =>
          cases hattempt : m.attempt? with
          | none =>
              simp only [perform, after, record, hattempt]
              rw [hart_step_of_fatal hattempt]
              exact hm
          | some found =>
              obtain ⟨i, outcome, after⟩ := found
              simp only [perform, Machine.after, record, hattempt]
              exact hm.cons (reservation_step_of_attempt hattempt)
      | interrupt => exact (m.hart.reservation_takeInterrupt).trans hm
      | outside bus interrupts clock => exact hm
      | reset => rfl

theorem remembers_performAll {m : Machine β} {past : List (Hart × Instruction)}
    (hm : m.hart.Remembers past) (ds : List (Deed β)) :
    (m.performAll ds).hart.Remembers (m.recordAll past ds) := by
  induction ds generalizing m past with
  | nil => exact hm
  | cons d rest ih => exact ih (remembers_perform hm d)

/-! ## Store-conditional in a run -/

/--
A store-conditional after any run from a reset. If the latest instruction since
the reset that touched the reservation is a load-reserved of the same address,
the store is made and the destination gets zero; if not, no access is made and
the destination gets one. Address and value are those of the registers before
the destination is written.
-/
theorem store_conditional_of_run {γ : Type} [Bus γ] {m : Machine β} (hfresh : m.hart.Fresh)
    (ds : List (Deed β)) {x : RType} (hop : x.operation? = some .storeConditional)
    {n : Machine γ} (hn : n.hart = (m.performAll ds).hart) :
    (Hart.lastUse? (m.recordAll [] ds) = some (.loadReserved (n.hart.x x.rs1)) →
      n.execute (.r x) =
          .ok (.completed,
            { hart := { n.hart with reservation := none }.writeBack x.rd 0
              bus := Bus.write n.bus (n.hart.x x.rs1) (leBytes 4 (n.hart.x x.rs2)) }) ∧
        n.executeAccesses (.r x) =
          [.write (n.hart.x x.rs1) (leBytes 4 (n.hart.x x.rs2))]) ∧
      (Hart.lastUse? (m.recordAll [] ds) ≠ some (.loadReserved (n.hart.x x.rs1)) →
        n.execute (.r x) =
            .ok (.completed,
              { n with hart := { n.hart with reservation := none }.writeBack x.rd 1 }) ∧
          n.executeAccesses (.r x) = []) := by
  have hstart : m.hart.Remembers [] := hfresh.reservation
  have hremembers : n.hart.Remembers (m.recordAll [] ds) := by
    rw [hn]
    exact remembers_performAll hstart ds
  have hexec := n.execute_storeConditional hop
  have haccesses := n.executeAccesses_storeConditional hop
  rw [ne_eq, ← hremembers.reservation_iff]
  constructor
  · intro hreserved
    have hjournaled : n.journaled.hart.reservation = some (n.hart.x x.rs1) := hreserved
    refine ⟨by rw [hexec, storeConditional_of_reserved hreserved], ?_⟩
    rw [haccesses, storeConditional_of_reserved hjournaled]
    rfl
  · intro hreserved
    have hjournaled : n.journaled.hart.reservation ≠ some (n.hart.x x.rs1) := hreserved
    refine ⟨by rw [hexec, storeConditional_of_not_reserved hreserved], ?_⟩
    rw [haccesses, storeConditional_of_not_reserved hjournaled]
    rfl

/-- A load-reserved of the address in `x1`, and a trap right after it. -/
def interruptedUpdate : List (Deed Ram) :=
  [.execute (.u { opcode := Opcode.lui, rd := 1, imm := 0x80001000 }),
    .execute (.r { opcode := Opcode.amo, rd := 0, funct3 := 2, rs1 := 1, rs2 := 0, funct7 := 0x08 }),
    .trap (.exception .breakpoint)]

def storeOverAddress : RType :=
  { opcode := Opcode.amo, rd := 1, funct3 := 2, rs1 := 1, rs2 := 1, funct7 := 0x0C }

/-- The address is stored at itself after the trap. A second attempt makes no access. -/
theorem store_conditional_of_run_interrupted :
    idle.hart.Fresh ∧ storeOverAddress.operation? = some .storeConditional ∧
      (idle.performAll interruptedUpdate).executeAccesses (.r storeOverAddress) =
        [.write 0x80001000 [0x00, 0x10, 0x00, 0x80]] ∧
      (idle.performAll (interruptedUpdate ++ [.execute (.r storeOverAddress)])).executeAccesses
        (.r storeOverAddress) = [] := by
  have hfresh : idle.hart.Fresh := .initial defaultResetVector .trap 0
  have hop : storeOverAddress.operation? = some .storeConditional := by decide
  have haddress : (idle.performAll interruptedUpdate).hart.x 1 = 0x80001000 := by decide
  obtain ⟨hmade, -⟩ := store_conditional_of_run (m := idle)
    (n := idle.performAll interruptedUpdate) hfresh interruptedUpdate hop rfl
  obtain ⟨-, hfailed⟩ := store_conditional_of_run (m := idle)
    (n := idle.performAll (interruptedUpdate ++ [.execute (.r storeOverAddress)])) hfresh _ hop rfl
  have hwritten := (hmade (by decide)).2
  change _ = [Access.write ((idle.performAll interruptedUpdate).hart.x 1)
    (leBytes 4 ((idle.performAll interruptedUpdate).hart.x 1))] at hwritten
  rw [haddress] at hwritten
  exact ⟨hfresh, hop, hwritten, (hfailed (by decide)).2⟩

end Machine

end Rv32
