import Rv32.Hart.Execution
import Rv32.Hart.Trap
import Rv32.Instruction.Encoding

/-!
# Steps of a machine

One step fetches the instruction at the program counter, executes it, counts
the step and takes the trap that the instruction raised. Interrupts are not
looked at here. A word that is zero or no instruction stops the machine for
good, and leaves the hart as it was.
-/

namespace Rv32

/-- Why a machine cannot go on: the word fetched is zero, which means that execution has most likely
left the program, or it is no instruction of this machine. -/
inductive Fatal where
  | emptyInstruction (pc : Word)
  | decode (pc : Word) (source : DecodeError)
  deriving DecidableEq, Repr

namespace Fatal

def message : Fatal → String
  | emptyInstruction pc =>
      let pc := Numeral.address pc.toNat
      s!"empty instruction at pc {pc}"
  | decode pc _ =>
      let pc := Numeral.address pc.toNat
      s!"cannot decode instruction at pc {pc}"

def source? : Fatal → Option DecodeError
  | emptyInstruction _ => none
  | decode _ source => some source

def explanation (f : Fatal) : String :=
  match f.source? with
  | some source => s!"{f.message}: {source.message}"
  | none => f.message

end Fatal

inductive StepOutcome where
  | running
  | exited (v : Verdict)
  | fatal (f : Fatal)
  deriving DecidableEq, Repr

namespace Hart

def retire (h : Hart) : Hart :=
  { h with csrs := h.csrs.retire }

def deliver (h : Hart) : Outcome → StepOutcome × Hart
  | .completed => (.running, h)
  | .raised e => (.running, h.trap (.exception e))
  | .exited v => (.exited v, h)

end Hart

namespace Machine

variable {β : Type}

def fetch [Bus β] (m : Machine β) : Word × Machine β :=
  let (bytes, bus) := Bus.read m.bus m.hart.pc 4
  (ofLeBytes 32 bytes, { m with bus := bus })

/-- The instruction that a fetched word encodes. -/
def instructionAt (pc raw : Word) : Except Fatal Instruction :=
  if raw = 0 then .error (.emptyInstruction pc)
  else
    match Instruction.decode raw with
    | .ok i => .ok i
    | .error source => .error (.decode pc source)

def dispatch [Bus β] (m : Machine β) (raw : Word) : StepOutcome × Machine β :=
  match instructionAt m.hart.pc raw with
  | .error f => (.fatal f, m)
  | .ok i =>
      match m.execute i with
      | .error source => (.fatal (.decode m.hart.pc source), m)
      | .ok (outcome, after) =>
          let (result, hart) := after.hart.retire.deliver outcome
          (result, { after with hart := hart })

def step [Bus β] (m : Machine β) : StepOutcome × Machine β :=
  let (raw, fetched) := m.fetch
  fetched.dispatch raw

/-! ## Messages -/

def instructionNotices (pc raw : Word) (op : Operation) : List Message :=
  let pc := Numeral.address pc.toNat
  let raw := Numeral.bareHex 8 raw.toNat
  [⟨.trace, s!"{pc}: {raw} {op.mnemonic}"⟩]

def deliveryNotices (h : Hart) : Outcome → List Message
  | .raised e => h.trapNotices (.exception e)
  | _ => []

def dispatchNotices [AudibleBus β] (m : Machine β) (raw : Word) : List Message :=
  match instructionAt m.hart.pc raw with
  | .error _ => []
  | .ok i =>
      match i.operation?, m.execute i with
      | some op, .ok (outcome, after) =>
          instructionNotices m.hart.pc raw op ++ m.executeNotices i
            ++ deliveryNotices after.hart outcome
      | _, _ => []

def stepNotices [AudibleBus β] (m : Machine β) : List Message :=
  let (raw, fetched) := m.fetch
  AudibleBus.readNotices m.bus m.hart.pc 4 ++ fetched.dispatchNotices raw

end Machine

end Rv32
