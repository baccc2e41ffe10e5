/-!
# Command lines

How the words of a command line are told apart. A word is an option, the value
of an option, or an operand. Long options may have their value attached with an
equals sign; short options may be joined in one word, of which the last one may
have its value attached. The word `--` ends the options. A single hyphen is an
ordinary word.
-/

namespace Rv32.CommandLine

/-- How often an option may be given, and whether it takes a value. A counter may be given any
number of times and takes none. -/
inductive OptionKind where
  | flag
  | counter
  | setting
  deriving DecidableEq, Repr

structure OptionSpec (ι : Type) where
  id : ι
  kind : OptionKind
  long : String
  short : Option Char

inductive Item (ι : Type) where
  | option (id : ι)
  | setting (id : ι) (value : String)
  | operand (value : String)
  deriving DecidableEq, Repr

inductive UsageError where
  | unknownOption (word : String)
  | missingValue (option : String)
  | unexpectedValue (option : String)
  | repeatedOption (option : String)
  | invalidValue (option value : String)
  | missingOperand (operand : String)
  | unexpectedOperand (value : String)
  deriving DecidableEq, Repr

def UsageError.message : UsageError → String
  | unknownOption word => s!"unexpected argument {word} found"
  | missingValue option => s!"a value is required for --{option} but none was supplied"
  | unexpectedValue option => s!"unexpected value for --{option} found; no more were expected"
  | repeatedOption option => s!"the argument --{option} cannot be used multiple times"
  | invalidValue option value => s!"invalid value {value} for {option}"
  | missingOperand operand => s!"the required argument {operand} was not provided"
  | unexpectedOperand value => s!"unexpected argument {value} found"

/-! ## Words -/

/-- The form of a word, before it is known which options there are. Short options share a word
with each other, and perhaps with a value. -/
inductive Token where
  | endOfOptions
  | long (name : String) (attached : Option String)
  | short (letters : List Char)
  | plain (text : String)
  deriving DecidableEq, Repr

namespace Token

/-- The name and the value of a long option, which are separated by the first equals sign. -/
def splitLong (cs : List Char) : Token :=
  let name := String.ofList (cs.takeWhile (· ≠ '='))
  match cs.dropWhile (· ≠ '=') with
  | [] => long name none
  | _ :: value => long name (some (String.ofList value))

def ofString (s : String) : Token :=
  match s.toList with
  | ['-', '-'] => endOfOptions
  | '-' :: '-' :: cs => splitLong cs
  | '-' :: c :: cs => short (c :: cs)
  | _ => plain s

end Token

/-! ## Short options -/

/-- The options in a word of short options, and the last one if its value is in the next word. -/
structure Cluster (ι : Type) where
  items : List (Item ι)
  open? : Option (OptionSpec ι)

namespace Cluster

variable {ι : Type}

def cons (item : Item ι) (rest : Cluster ι) : Cluster ι :=
  { rest with items := item :: rest.items }

/-- The cluster of an option with the value that the rest of its word makes. -/
def attach (spec : OptionSpec ι) : List Char → Cluster ι
  | [] => { items := [], open? := some spec }
  | '=' :: value => { items := [.setting spec.id (String.ofList value)], open? := none }
  | value => { items := [.setting spec.id (String.ofList value)], open? := none }

def ofLetters (specs : List (OptionSpec ι)) : List Char → Except UsageError (Cluster ι)
  | [] => .ok { items := [], open? := none }
  | c :: rest =>
      match specs.find? fun spec => spec.short == some c with
      | none => .error (.unknownOption (String.ofList ['-', c]))
      | some spec =>
          match spec.kind with
          | .setting => .ok (attach spec rest)
          | _ => (ofLetters specs rest).map (cons (.option spec.id))

end Cluster

/-! ## Command lines -/

section

variable {ι : Type}

def longItem (spec : OptionSpec ι) (attached : Option String) :
    Except UsageError (Cluster ι) :=
  match spec.kind, attached with
  | .setting, some value => .ok { items := [.setting spec.id value], open? := none }
  | .setting, none => .ok { items := [], open? := some spec }
  | _, some _ => .error (.unexpectedValue spec.long)
  | _, none => .ok { items := [.option spec.id], open? := none }

/-- The options that a word gives. Refused if there is no such option. -/
def tokenCluster (specs : List (OptionSpec ι)) : Token → Except UsageError (Cluster ι)
  | .long name attached =>
      match specs.find? fun spec => spec.long == name with
      | some spec => longItem spec attached
      | none => .error (.unknownOption ("--" ++ name))
  | .short letters => Cluster.ofLetters specs letters
  | .plain text => .ok { items := [.operand text], open? := none }
  | .endOfOptions => .ok { items := [], open? := none }

/-- The items of a command line that goes on after an option whose value is in the next word. -/
def items (specs : List (OptionSpec ι)) (pending : Option (OptionSpec ι)) :
    List String → Except UsageError (List (Item ι))
  | [] =>
      match pending with
      | some spec => .error (.missingValue spec.long)
      | none => .ok []
  | s :: rest =>
      match Token.ofString s, pending with
      | .plain text, some spec =>
          (items specs none rest).map (.setting spec.id text :: ·)
      | _, some spec => .error (.missingValue spec.long)
      | .endOfOptions, none => .ok (rest.map .operand)
      | token, none => do
          let cluster ← tokenCluster specs token
          let after ← items specs cluster.open? rest
          return cluster.items ++ after

def count [DecidableEq ι] (given : List (Item ι)) (id : ι) : Nat :=
  given.countP fun
    | .option i => i = id
    | .setting i _ => i = id
    | .operand _ => false

def setting? [DecidableEq ι] (given : List (Item ι)) (id : ι) : Option String :=
  given.findSome? fun
    | .setting i value => if i = id then some value else none
    | _ => none

def operands (given : List (Item ι)) : List String :=
  given.filterMap fun
    | .operand value => some value
    | _ => none

/-- The items of a command line on which no option is given more often than it may be. -/
def parse [DecidableEq ι] (specs : List (OptionSpec ι)) (args : List String) :
    Except UsageError (List (Item ι)) := do
  let given ← items specs none args
  match specs.find? fun spec => decide (spec.kind ≠ .counter ∧ 1 < count given spec.id) with
  | some spec => throw (.repeatedOption spec.long)
  | none => return given

/-- The only operand, which must not be empty. -/
def onlyOperand (name : String) (given : List (Item ι)) : Except UsageError String :=
  match operands given with
  | [] => .error (.missingOperand name)
  | [value] => if value = "" then .error (.invalidValue name value) else .ok value
  | _ :: extra :: _ => .error (.unexpectedOperand extra)

/-- The value given to an option, read by `read?`; nothing if the option is not given. -/
def readSetting [DecidableEq ι] {α : Type} (given : List (Item ι)) (spec : OptionSpec ι)
    (read? : String → Option α) : Except UsageError (Option α) :=
  match setting? given spec.id with
  | none => .ok none
  | some value =>
      match read? value with
      | some v => .ok (some v)
      | none => .error (.invalidValue ("--" ++ spec.long) value)

end

/-! ## Values -/

/-- A path, which is any text that is not empty. -/
def path? (s : String) : Option String :=
  if s = "" then none else some s

/-- What numbers on a command line are below: they have 64 bits. -/
def numberBound : Nat := 0x10000000000000000

/-- The number written by decimal digits, if it is not too large. -/
def digits? (cs : List Char) : Option Nat :=
  if cs ≠ [] ∧ cs.all Char.isDigit = true then
    let n := cs.foldl (fun n c => 10 * n + (c.toNat - '0'.toNat)) 0
    if n < numberBound then some n else none
  else none

/-- A number in decimal, with a plus sign in front or without one. -/
def number? (s : String) : Option Nat :=
  match s.toList with
  | '+' :: cs => digits? cs
  | cs => digits? cs

end Rv32.CommandLine
