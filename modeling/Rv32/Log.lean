/-!
# Log messages

What the machine and the programs around it have to say about their work. A
message never changes what happens: the functions that produce messages look
at a state and return text, and the functions that change the state are silent.
-/

namespace Rv32

inductive Severity where
  | error
  | warn
  | info
  | debug
  | trace
  deriving DecidableEq, Repr

namespace Severity

def rank : Severity → Nat
  | error => 0
  | warn => 1
  | info => 2
  | debug => 3
  | trace => 4

def name : Severity → String
  | error => "ERROR"
  | warn => "WARN"
  | info => "INFO"
  | debug => "DEBUG"
  | trace => "TRACE"

/-- The least important severity that is heard at verbosity `n`. -/
def ofVerbosity (n : Nat) : Severity :=
  match n with
  | 0 => error
  | 1 => warn
  | 2 => info
  | 3 => debug
  | _ => trace

end Severity

structure Message where
  severity : Severity
  text : String
  deriving DecidableEq, Repr

namespace Message

def line (m : Message) : String :=
  s!"{m.severity.name} {m.text}"

def isHeard (least : Severity) (m : Message) : Bool :=
  m.severity.rank ≤ least.rank

end Message

end Rv32
