import Rv32.Bus
import Rv32.Numeral

/-!
# The UART

A serial interface with the registers of a 16550, connected to a console. There
are no queues: a transmitted byte goes straight to the console, and the receiver
holds one byte. Three of the eight registers share their offsets with the
divisor latch, which a bit of the line control register selects.
-/

namespace Rv32

/-- The host's end of the serial line: the input with its next byte first, and the output with its
oldest one first. -/
structure Console where
  input : List Byte
  output : Array Byte
  deriving DecidableEq

namespace Console

/-- A console on which nothing has been transmitted, with `input` waiting. -/
def withInput (input : List Byte) : Console :=
  { input := input, output := #[] }

def emit (c : Console) (b : Byte) : Console :=
  { c with output := c.output.push b }

def arrive (c : Console) (bytes : List Byte) : Console :=
  { c with input := c.input ++ bytes }

end Console

/-- The serial interface. Of its queues there is only the switch. The divisor latch has a low byte,
a high byte and a prescaler. -/
structure Uart where
  console : Console
  received : Byte
  dataReady : Bool
  ier : Byte
  lcr : Byte
  mcr : Byte
  scratch : Byte
  fifoEnabled : Bool
  divisor : Vector Byte 3
  transmitDue : Bool
  deriving DecidableEq

namespace Uart

inductive AccessError where
  | readOnly (register : String)
  | unmapped (offset : Word)
  deriving DecidableEq, Repr

def AccessError.message : AccessError → String
  | readOnly register => s!"cannot write to read-only register {register}"
  | unmapped offset =>
      let offset := Numeral.hex offset.toNat
      s!"no register mapped to offset {offset}"

/-- The UART after reset: eight data bits, nothing enabled. -/
def reset (console : Console) : Uart :=
  { console := console
    received := 0
    dataReady := false
    ier := 0
    lcr := 0x03
    mcr := 0
    scratch := 0
    fifoEnabled := false
    divisor := Vector.replicate 3 0
    transmitDue := false }

/-- Whether the divisor latch takes the place of the registers at the first three offsets. -/
def divisorSelected (u : Uart) : Bool :=
  u.lcr.getLsbD 7

def receiveEnabled (u : Uart) : Bool :=
  u.ier.getLsbD 0

def transmitEnabled (u : Uart) : Bool :=
  u.ier.getLsbD 1

/-! ## Interrupts -/

/-- What an interrupt of the UART is for. -/
inductive InterruptId where
  | none
  | transmitterEmpty
  | receivedData
  deriving DecidableEq, Repr

/-- The code of the interrupt in the identification register. -/
def InterruptId.code : InterruptId → Byte
  | .none => 0x01
  | .transmitterEmpty => 0x02
  | .receivedData => 0x04

/-- The most important interrupt that is due, received data first. -/
def interruptId (u : Uart) : InterruptId :=
  if u.receiveEnabled && u.dataReady then .receivedData
  else if u.transmitEnabled && u.transmitDue then .transmitterEmpty
  else .none

def interruptLine (u : Uart) : Bool :=
  u.interruptId ≠ .none

/-! ## Registers with effects -/

/-- The line status register. The transmitter is always empty. -/
def lineStatus (u : Uart) : Byte :=
  if u.dataReady then 0x61 else 0x60

/-- The modem status register: no modem is attached, and its inputs count as asserted. -/
def modemStatus : Byte := 0xB0

/-- The UART after it has taken a byte from the console, if there is one and room for it. -/
def poll (u : Uart) : Uart :=
  if u.dataReady then u
  else
    match u.console.input with
    | [] => u
    | b :: rest =>
        { u with
          console := { u.console with input := rest }
          received := b
          dataReady := true }

def arrive (u : Uart) (bytes : List Byte) : Uart :=
  { u with console := u.console.arrive bytes }

/-- The value of the interrupt identification register. -/
def identification (u : Uart) : Byte :=
  if u.fifoEnabled then u.interruptId.code ||| 0xC0 else u.interruptId.code

/-- The UART after a read of the identification register, which acknowledges what it reports. -/
def acknowledge (u : Uart) : Uart :=
  if u.interruptId = .transmitterEmpty then { u with transmitDue := false } else u

def transmit (u : Uart) (b : Byte) : Uart :=
  { u with console := u.console.emit b, transmitDue := true }

/-- The UART after a write of the enable register. Enabling the transmitter interrupt raises it. -/
def writeEnable (u : Uart) (v : Byte) : Uart :=
  { u with
    ier := v &&& 0x0F
    transmitDue := u.transmitDue || (!u.transmitEnabled && v.getLsbD 1) }

/-! ## Register accesses -/

def readRegister (u : Uart) (offset : Word) : Except AccessError (Byte × Uart) :=
  match offset.toNat, u.divisorSelected with
  | 0, true => .ok (u.divisor[0], u)
  | 1, true => .ok (u.divisor[1], u)
  | 2, true => .ok (u.divisor[2], u)
  | 0, false => .ok (u.received, { u with dataReady := false })
  | 1, false => .ok (u.ier, u)
  | 2, false => .ok (u.identification, u.acknowledge)
  | 3, _ => .ok (u.lcr, u)
  | 4, _ => .ok (u.mcr, u)
  | 5, _ => .ok (u.poll.lineStatus, u.poll)
  | 6, _ => .ok (modemStatus, u)
  | 7, _ => .ok (u.scratch, u)
  | _, _ => .error (.unmapped offset)

def writeRegister (u : Uart) (offset : Word) (v : Byte) : Except AccessError Uart :=
  match offset.toNat, u.divisorSelected with
  | 0, true => .ok { u with divisor := u.divisor.set 0 v }
  | 1, true => .ok { u with divisor := u.divisor.set 1 v }
  | 2, true => .ok { u with divisor := u.divisor.set 2 v }
  | 0, false => .ok (u.transmit v)
  | 1, false => .ok (u.writeEnable v)
  | 2, false => .ok { u with fifoEnabled := v.getLsbD 0 }
  | 3, _ => .ok { u with lcr := v }
  | 4, _ => .ok { u with mcr := v }
  | 5, _ => .error (.readOnly "Line Status Register")
  | 6, _ => .error (.readOnly "Modem Status Register")
  | 7, _ => .ok { u with scratch := v }
  | _, _ => .error (.unmapped offset)

/-! ## Bus accesses -/

/-- The offset of the register that a bus address names: the registers repeat every 256 bytes. -/
def registerOffset (address : Word) : Word :=
  (address.setWidth 8).setWidth 32

/-- What is said about a refused access. -/
def refusalNotices (direction : String) (address : Word) (e : AccessError) : List Message :=
  let place := Numeral.hex address.toNat
  [⟨.warn, s!"uart: {direction} at {place}: {e.message}"⟩]

instance : AudibleBus Uart where
  read u address size :=
    match size with
    | 0 => ([], u)
    | rest + 1 =>
        match u.readRegister (registerOffset address) with
        | .ok (b, u) => (b :: zeroBytes rest, u)
        | .error _ => (zeroBytes (rest + 1), u)
  write u address bytes :=
    match bytes with
    | [] => u
    | b :: _ =>
        match u.writeRegister (registerOffset address) b with
        | .ok u => u
        | .error _ => u
  readNotices u address size :=
    match size with
    | 0 => []
    | _ + 1 =>
        match u.readRegister (registerOffset address) with
        | .ok _ => []
        | .error e => refusalNotices "read" address e
  writeNotices u address bytes :=
    match bytes with
    | [] => []
    | b :: _ =>
        match u.writeRegister (registerOffset address) b with
        | .ok _ => []
        | .error e => refusalNotices "write" address e

end Uart

end Rv32
