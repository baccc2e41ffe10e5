import Rv32.Word

/-!
# Trap vectors

The register that holds where a trap handler starts: a base address that is a
multiple of four, and a mode in its two low bits. The two modes with names are
legal; a write that would leave one of the other two changes nothing.
-/

namespace Rv32

/-- How interrupts are meant to find their handler: at the base address with all other traps, or by
a table there. -/
inductive VectorMode where
  | direct
  | vectored
  deriving DecidableEq, Repr

namespace VectorMode

def bits : VectorMode → BitVec 2
  | direct => 0
  | vectored => 1

def ofBits? (b : BitVec 2) : Option VectorMode :=
  match b with
  | 0 => some direct
  | 1 => some vectored
  | _ => none

def name : VectorMode → String
  | direct => "Direct"
  | vectored => "Vectored"

end VectorMode

/-- A trap vector: the thirty high bits of the base address, and the mode. -/
structure TrapVector where
  baseBits : BitVec 30
  mode : VectorMode
  deriving DecidableEq, Repr

namespace TrapVector

def reset : TrapVector :=
  { baseBits := 0, mode := .direct }

def ofBase (base : Word) (mode : VectorMode) : TrapVector :=
  { baseBits := base.extractLsb' 2 30, mode := mode }

def base (v : TrapVector) : Word :=
  v.baseBits ++ 0#2

def value (v : TrapVector) : Word :=
  v.baseBits ++ v.mode.bits

/-- The vector after a write of the bits selected by `mask`. An illegal mode cancels the write. -/
def write (v : TrapVector) (value mask : Word) : TrapVector :=
  let updated := Word.merge v.value value mask
  match VectorMode.ofBits? (updated.extractLsb' 0 2) with
  | some mode => ofBase updated mode
  | none => v

end TrapVector

end Rv32
