import Rv32.Device.Clint
import Rv32.Device.Frame
import Rv32.Device.Plic
import Rv32.Device.Uart
import Rv32.Memory.Ram
import Rv32.MemoryMap

/-!
# The system bus

The bus of the board. Each device has a window of the address space, and main
memory takes every address outside the windows. An access is forwarded if all
its bytes lie in one region, a window or a gap between windows; a device sees
offsets into its window, main memory sees addresses. Other accesses go
nowhere, and a read among them gets zeros.
-/

namespace Rv32

/-- The devices that have a window. -/
inductive Resource where
  | clint
  | plic
  | uart
  | framebuffer
  deriving DecidableEq, Repr

def Resource.name : Resource → String
  | clint => "Clint"
  | plic => "Plic"
  | uart => "Uart0"
  | framebuffer => "Framebuffer"

/-- What is behind the system bus, and where. -/
structure SystemBus where
  map : MemoryMap Resource
  ram : Ram
  clint : Clint
  plic : Plic
  uart : Uart
  frame : Frame

namespace SystemBus

/-- Where a forwarded access goes, and the address that its target sees. -/
inductive Route where
  | device (r : Resource) (offset : Word)
  | ram (address : Word)
  deriving DecidableEq, Repr

/-- The way of an access of `size` bytes at `address`, if it is forwarded. -/
def route? (b : SystemBus) (address : Word) (size : Nat) : Option Route :=
  let (region, resource) := b.map.lookup address
  match size with
  | 0 => none
  | delta + 1 =>
      if (region.last - address).toNat < delta then none
      else
        match resource with
        | some r => some (.device r (address - region.first))
        | none => some (.ram address)

def readFrom (b : SystemBus) (size : Nat) : Route → List Byte × SystemBus
  | .device .clint offset =>
      let (bytes, clint) := Bus.read b.clint offset size
      (bytes, { b with clint := clint })
  | .device .plic offset =>
      let (bytes, plic) := Bus.read b.plic offset size
      (bytes, { b with plic := plic })
  | .device .uart offset =>
      let (bytes, uart) := Bus.read b.uart offset size
      (bytes, { b with uart := uart })
  | .device .framebuffer offset =>
      let (bytes, frame) := Bus.read b.frame offset size
      (bytes, { b with frame := frame })
  | .ram address => (b.ram.read address size, b)

def writeTo (b : SystemBus) (bytes : List Byte) : Route → SystemBus
  | .device .clint offset => { b with clint := Bus.write b.clint offset bytes }
  | .device .plic offset => { b with plic := Bus.write b.plic offset bytes }
  | .device .uart offset => { b with uart := Bus.write b.uart offset bytes }
  | .device .framebuffer offset => { b with frame := Bus.write b.frame offset bytes }
  | .ram address => { b with ram := b.ram.write address bytes }

def readNoticesFrom (b : SystemBus) (size : Nat) : Route → List Message
  | .device .clint offset => AudibleBus.readNotices b.clint offset size
  | .device .plic offset => AudibleBus.readNotices b.plic offset size
  | .device .uart offset => AudibleBus.readNotices b.uart offset size
  | .device .framebuffer offset => AudibleBus.readNotices b.frame offset size
  | .ram _ => []

def writeNoticesTo (b : SystemBus) (bytes : List Byte) : Route → List Message
  | .device .clint offset => AudibleBus.writeNotices b.clint offset bytes
  | .device .plic offset => AudibleBus.writeNotices b.plic offset bytes
  | .device .uart offset => AudibleBus.writeNotices b.uart offset bytes
  | .device .framebuffer offset => AudibleBus.writeNotices b.frame offset bytes
  | .ram _ => []

def rejectionNotices (direction : String) (size : Nat) (address : Word) : List Message :=
  let place := Numeral.address address.toNat
  [⟨.warn, s!"bus: {direction} of {size} bytes at {place} crosses a region boundary"⟩]

instance : AudibleBus SystemBus where
  read b address size :=
    match b.route? address size with
    | some route => b.readFrom size route
    | none => (zeroBytes size, b)
  write b address bytes :=
    match b.route? address bytes.length with
    | some route => b.writeTo bytes route
    | none => b
  readNotices b address size :=
    match b.route? address size with
    | some route => b.readNoticesFrom size route
    | none => rejectionNotices "read" size address
  writeNotices b address bytes :=
    match b.route? address bytes.length with
    | some route => b.writeNoticesTo bytes route
    | none => rejectionNotices "write" bytes.length address

/-! ## Interrupt wiring -/

/-- The interrupt source to which the line of the UART is wired. -/
def uartSource : Nat := 10

def sampleLines (b : SystemBus) : SystemBus :=
  { b with plic := b.plic.setLevel uartSource b.uart.interruptLine }

def arrive (b : SystemBus) (bytes : List Byte) : SystemBus :=
  { b with uart := b.uart.arrive bytes }

def withClock (b : SystemBus) (clock : DoubleWord) : SystemBus :=
  { b with clint := { b.clint with clock := clock } }

end SystemBus

end Rv32
