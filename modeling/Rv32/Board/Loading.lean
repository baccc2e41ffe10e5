import Rv32.Board.Construction

/-!
# Loading of images

An image is a string of bytes for consecutive addresses, which go on at zero
after the last address. Bytes that fall into device windows are left out.
-/

namespace Rv32

namespace SystemBus

/-- Whether `a` lies outside all device windows, so that main memory takes it. -/
def isMemory (b : SystemBus) (a : Word) : Bool :=
  (b.map.lookup a).2.isNone

def loadByte (b : SystemBus) (a : Word) (v : Byte) : SystemBus :=
  if b.isMemory a then { b with ram := b.ram.set a v } else b

def load (b : SystemBus) (a : Word) : List Byte → SystemBus
  | [] => b
  | v :: rest => (b.loadByte a v).load (a + 1) rest

def chunkNotices (resource : Option Resource) (a : Word) (size : Nat) : List Message :=
  match resource with
  | none => []
  | some r =>
      let place := Numeral.address a.toNat
      [⟨.warn, s!"load: skipping {size} bytes at {place} in {r.name} window"⟩]

def loadNotices (b : SystemBus) (a : Word) (size : Nat) : List Message :=
  if size = 0 then []
  else
    let (region, resource) := b.map.lookup a
    let chunk := min ((region.last - a).toNat + 1) size
    chunkNotices resource a chunk ++ b.loadNotices (a + BitVec.ofNat 32 chunk) (size - chunk)
termination_by size

end SystemBus

namespace Board

def load (b : Board) (a : Word) (bytes : List Byte) : Board :=
  b.withBus (b.bus.load a bytes)

def loadNotices (b : Board) (a : Word) (bytes : List Byte) : List Message :=
  b.bus.loadNotices a bytes.length

end Board

end Rv32
