import Rv32.Board.SystemBus
import Rv32.Hart.Step

/-!
# Boards

A board is a hart wired to the system bus, and a count of its steps. It is
built from a configuration, which is refused if the framebuffer cannot be
given a window of its own.
-/

namespace Rv32

/-- The choices that a board is built from. The program is loaded and started at `ramBase`. -/
structure BoardConfig where
  ramBase : Word
  ecallMode : EcallMode
  frameWidth : Nat
  frameHeight : Nat
  deriving DecidableEq

/-- The configuration used unless other choices are made. -/
def BoardConfig.standard : BoardConfig :=
  { ramBase := defaultResetVector
    ecallMode := .selfTest
    frameWidth := 320
    frameHeight := 200 }

inductive ConfigError where
  | framebufferTooLarge (width height : Nat)
  | deviceWindow (source : BadBounds)
  | memoryMap (source : Overlap)
  deriving DecidableEq

def ConfigError.message : ConfigError → String
  | framebufferTooLarge width height =>
      s!"a {width}x{height} framebuffer does not fit in the address space"
  | deviceWindow _ => "invalid device window"
  | memoryMap _ => "invalid memory map"

/-- A hart on the system bus, and how many steps it has made since it was built. -/
structure Board where
  machine : Machine SystemBus
  steps : Nat

namespace Board

def clintBase : Word := 0x02000000

def plicBase : Word := 0x0C000000

def uartBase : Word := 0x10000000

def frameBase : Word := 0x30000000

def frameSize (width height : Nat) : Except ConfigError Word :=
  if 4 * (width * height) < addressCount then .ok (BitVec.ofNat 32 (4 * (width * height)))
  else .error (.framebufferTooLarge width height)

def window (first last : Word) : Except ConfigError Interval :=
  (Interval.ofBounds first last).mapError .deviceWindow

/-- The windows of the devices, with a framebuffer of `size` bytes. -/
def windows (size : Word) : Except ConfigError (List (Interval × Resource)) := do
  let clint ← window clintBase (clintBase + 0xBFFF)
  let plic ← window plicBase (plicBase + 0x03FFFFFF)
  let uart ← window uartBase (uartBase + 0xFF)
  let frame ← (Interval.ofSize frameBase size).mapError .deviceWindow
  return [(clint, .clint), (plic, .plic), (uart, .uart), (frame, .framebuffer)]

def memoryMap (width height : Nat) : Except ConfigError (MemoryMap Resource) := do
  let size ← frameSize width height
  let list ← windows size
  (MemoryMap.ofList list).mapError .memoryMap

/-- The board with the given memory map, before its first step. -/
def assemble (config : BoardConfig) (map : MemoryMap Resource) (console : Console)
    (clock : DoubleWord) : Board :=
  { machine :=
      { hart := .initial config.ramBase config.ecallMode clock
        bus :=
          { map := map
            ram := .empty
            clint := .reset clock
            plic := .reset
            uart := .reset console
            frame := .black config.frameWidth config.frameHeight } }
    steps := 0 }

/-- The board that a configuration describes, connected to `console`. -/
def build (config : BoardConfig) (console : Console) (clock : DoubleWord) :
    Except ConfigError Board :=
  match memoryMap config.frameWidth config.frameHeight with
  | .ok map => .ok (assemble config map console clock)
  | .error e => .error e

/-! ## Views and outside changes -/

def hart (b : Board) : Hart :=
  b.machine.hart

def bus (b : Board) : SystemBus :=
  b.machine.bus

def withHart (b : Board) (hart : Hart) : Board :=
  { b with machine := { b.machine with hart := hart } }

def withBus (b : Board) (bus : SystemBus) : Board :=
  { b with machine := { b.machine with bus := bus } }

def clock (b : Board) : DoubleWord :=
  b.bus.clint.clock

def withClock (b : Board) (clock : DoubleWord) : Board :=
  { b with
    machine := { hart := b.hart.withClock clock, bus := b.bus.withClock clock } }

def output (b : Board) : Array Byte :=
  b.bus.uart.console.output

def frame (b : Board) : Frame :=
  b.bus.frame

end Board

end Rv32
