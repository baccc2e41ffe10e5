import Rv32.Log
import Rv32.Word

/-!
# Buses

The interface between a hart and everything that it loads from and stores to.
A read may change what is behind the bus, since reading a device register can
have effects. Beside the accesses themselves stand the messages that a bus has
about them, and a wrapper that keeps a journal of the accesses made.
-/

namespace Rv32

/-- A byte-addressed bus over the physical address space. A read gives the bytes from an address
on, and the bus after it. -/
class Bus (β : Type) where
  read : β → Word → Nat → List Byte × β
  write : β → Word → List Byte → β

/-- A bus that has messages about some of the accesses made to it, sent before these are made. -/
class AudibleBus (β : Type) extends Bus β where
  readNotices : β → Word → Nat → List Message
  writeNotices : β → Word → List Byte → List Message

/-! ## Journals -/

inductive Access where
  | read (address : Word) (size : Nat)
  | write (address : Word) (bytes : List Byte)
  deriving DecidableEq, Repr

namespace Access

variable {β : Type}

def apply [Bus β] (bus : β) : Access → β
  | read address size => (Bus.read bus address size).2
  | write address bytes => Bus.write bus address bytes

def notices [AudibleBus β] (bus : β) : Access → List Message
  | read address size => AudibleBus.readNotices bus address size
  | write address bytes => AudibleBus.writeNotices bus address bytes

/-- What the bus says about accesses made one after the other. -/
def noticesOfAll [AudibleBus β] (bus : β) : List Access → List Message
  | [] => []
  | a :: rest => a.notices bus ++ noticesOfAll (a.apply bus) rest

def written? : Access → Option (Word × List Byte)
  | read _ _ => none
  | write address bytes => some (address, bytes)

end Access

/-- A bus together with the accesses made to it so far, in order. -/
structure Journaled (β : Type) where
  bus : β
  accesses : List Access

namespace Journaled

variable {β : Type}

def start (bus : β) : Journaled β :=
  { bus := bus, accesses := [] }

instance [Bus β] : Bus (Journaled β) where
  read j address size :=
    let (bytes, bus) := Bus.read j.bus address size
    (bytes, { bus := bus, accesses := j.accesses ++ [.read address size] })
  write j address bytes :=
    { bus := Bus.write j.bus address bytes
      accesses := j.accesses ++ [.write address bytes] }

def writes (j : Journaled β) : List (Word × List Byte) :=
  j.accesses.filterMap Access.written?

end Journaled

end Rv32
