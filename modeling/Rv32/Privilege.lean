/-!
# Privilege levels

The three levels a hart can execute in, and the four values that a two-bit
privilege field can hold. The extra value, level two, is reserved: it is
ordered between supervisor and machine, and no hart ever runs in it.
-/

namespace Rv32

inductive Level where
  | user
  | supervisor
  | machine
  deriving DecidableEq, Repr

/-- The value of a two-bit privilege field. -/
inductive LevelField where
  | user
  | supervisor
  | reserved
  | machine
  deriving DecidableEq, Repr

/-- Refusal to read a privilege field that holds the reserved level. -/
inductive ReservedLevel where
  | reserved (field : LevelField)
  deriving DecidableEq, Repr

namespace LevelField

def bits : LevelField → BitVec 2
  | user => 0
  | supervisor => 1
  | reserved => 2
  | machine => 3

def ofBits (b : BitVec 2) : LevelField :=
  match b with
  | 0 => user
  | 1 => supervisor
  | 2 => reserved
  | _ => machine

@[simp] theorem ofBits_bits (f : LevelField) : ofBits f.bits = f := by
  cases f <;> rfl

theorem bits_ofBits (b : BitVec 2) : (ofBits b).bits = b := by
  revert b
  decide

def rank (f : LevelField) : Nat :=
  f.bits.toNat

def isReserved : LevelField → Bool
  | reserved => true
  | _ => false

def name : LevelField → String
  | user => "U"
  | supervisor => "S"
  | reserved => "2"
  | machine => "M"

def level? : LevelField → Except ReservedLevel Level
  | user => .ok .user
  | supervisor => .ok .supervisor
  | reserved => .error (.reserved .reserved)
  | machine => .ok .machine

end LevelField

def ReservedLevel.message : ReservedLevel → String
  | .reserved field => s!"privilege level {field.name} is reserved"

namespace Level

def field : Level → LevelField
  | user => .user
  | supervisor => .supervisor
  | machine => .machine

def rank (l : Level) : Nat :=
  l.field.rank

def name (l : Level) : String :=
  l.field.name

@[simp] theorem level?_field (l : Level) : l.field.level? = .ok l := by
  cases l <;> rfl

theorem rank_injective {a b : Level} (h : a.rank = b.rank) : a = b := by
  revert h
  cases a <;> cases b <;> decide

/-- Levels are ordered by how much they may do. -/
instance : LT Level where
  lt a b := a.rank < b.rank

/-- Levels are ordered by how much they may do. -/
instance : LE Level where
  le a b := a.rank ≤ b.rank

instance (a b : Level) : Decidable (a < b) :=
  inferInstanceAs (Decidable (a.rank < b.rank))

instance (a b : Level) : Decidable (a ≤ b) :=
  inferInstanceAs (Decidable (a.rank ≤ b.rank))

def atReset : Level :=
  machine

end Level

end Rv32
