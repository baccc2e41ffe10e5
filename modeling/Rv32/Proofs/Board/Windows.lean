import Rv32.Board.Construction
import Rv32.Proofs.Interval
import Rv32.Proofs.MemoryMap
import Rv32.Proofs.MemoryMap.Region

/-! # The windows of a board

An accepted configuration gives each device one window. Three of them are always
the same; that of the framebuffer is as large as its picture.
-/

namespace Rv32

namespace Resource

def base : Resource → Word
  | clint => Board.clintBase
  | plic => Board.plicBase
  | uart => Board.uartBase
  | framebuffer => Board.frameBase

def windowSize (width height : Nat) : Resource → Nat
  | clint => 0xC000
  | plic => 0x4000000
  | uart => 0x100
  | framebuffer => 4 * (width * height)

structure HasWindow (width height : Nat) (r : Resource) (w : Interval) : Prop where
  first : w.first = r.base
  last : w.last.toNat + 1 = r.base.toNat + r.windowSize width height

theorem HasWindow.eq {width height : Nat} {r : Resource} {v w : Interval}
    (hv : r.HasWindow width height v) (hw : r.HasWindow width height w) : v = w := by
  have hfirst : v.first = w.first := hv.first.trans hw.first.symm
  have hlast : v.last = w.last := by
    apply BitVec.eq_of_toNat_eq
    have hsame := hv.last.trans hw.last.symm
    omega
  cases v
  cases w
  simp_all only

end Resource

namespace Board

theorem windows_eq_ok {size : Word} {list : List (Interval × Resource)}
    (h : windows size = .ok list) :
    ∃ frame, Interval.ofSize frameBase size = .ok frame ∧
      list =
        [(⟨clintBase, clintBase + 0xBFFF, by decide⟩, .clint),
          (⟨plicBase, plicBase + 0x03FFFFFF, by decide⟩, .plic),
          (⟨uartBase, uartBase + 0xFF, by decide⟩, .uart), (frame, .framebuffer)] := by
  change (Interval.ofSize frameBase size).mapError ConfigError.deviceWindow >>= _ = _ at h
  cases hframe : Interval.ofSize frameBase size with
  | error e =>
      rw [hframe] at h
      cases h
  | ok frame =>
      rw [hframe] at h
      cases h
      exact ⟨frame, rfl, rfl⟩

theorem hasWindow_clint (width height : Nat) :
    Resource.clint.HasWindow width height ⟨clintBase, clintBase + 0xBFFF, by decide⟩ := by
  refine ⟨rfl, ?_⟩
  change (clintBase + 0xBFFF).toNat + 1 = clintBase.toNat + 0xC000
  decide

theorem hasWindow_plic (width height : Nat) :
    Resource.plic.HasWindow width height ⟨plicBase, plicBase + 0x03FFFFFF, by decide⟩ := by
  refine ⟨rfl, ?_⟩
  change (plicBase + 0x03FFFFFF).toNat + 1 = plicBase.toNat + 0x4000000
  decide

theorem hasWindow_uart (width height : Nat) :
    Resource.uart.HasWindow width height ⟨uartBase, uartBase + 0xFF, by decide⟩ := by
  refine ⟨rfl, ?_⟩
  change (uartBase + 0xFF).toNat + 1 = uartBase.toNat + 0x100
  decide

theorem mem_windows_iff {width height : Nat} {size : Word} {list : List (Interval × Resource)}
    (hsize : size.toNat = 4 * (width * height)) (h : windows size = .ok list) {w : Interval}
    {r : Resource} : (w, r) ∈ list ↔ r.HasWindow width height w := by
  obtain ⟨frame, hframe, rfl⟩ := windows_eq_ok h
  obtain ⟨hfirst, hlast⟩ := Interval.ofSize_eq_ok hframe
  rw [hsize] at hlast
  constructor
  · intro hmem
    simp only [List.mem_cons, List.not_mem_nil, or_false, Prod.mk.injEq] at hmem
    rcases hmem with ⟨rfl, rfl⟩ | ⟨rfl, rfl⟩ | ⟨rfl, rfl⟩ | ⟨rfl, rfl⟩
    · exact hasWindow_clint width height
    · exact hasWindow_plic width height
    · exact hasWindow_uart width height
    · exact ⟨hfirst, hlast⟩
  · -- The window of a device is determined, so it is the one that is listed for it.
    intro hw
    cases r with
    | clint =>
        rw [hw.eq (hasWindow_clint width height)]
        exact .head _
    | plic =>
        rw [hw.eq (hasWindow_plic width height)]
        exact .tail _ (.head _)
    | uart =>
        rw [hw.eq (hasWindow_uart width height)]
        exact .tail _ (.tail _ (.head _))
    | framebuffer =>
        rw [hw.eq ⟨hfirst, hlast⟩]
        exact .tail _ (.tail _ (.tail _ (.head _)))

/-- The entries of an accepted memory map are the windows of the devices. -/
theorem mem_entries_iff {width height : Nat} {map : MemoryMap Resource}
    (h : memoryMap width height = .ok map) {w : Interval} {r : Resource} :
    (w, r) ∈ map.entries ↔ r.HasWindow width height w := by
  unfold memoryMap frameSize at h
  split at h
  · rename_i hfits
    change windows (BitVec.ofNat 32 (4 * (width * height))) >>= _ = _ at h
    cases hlist : windows (BitVec.ofNat 32 (4 * (width * height))) with
    | error e =>
        rw [hlist] at h
        cases h
    | ok list =>
        have hsize : (BitVec.ofNat 32 (4 * (width * height))).toNat = 4 * (width * height) := by
          rw [BitVec.toNat_ofNat]
          exact Nat.mod_eq_of_lt hfits
        rw [hlist] at h
        change (MemoryMap.ofList list).mapError ConfigError.memoryMap = _ at h
        cases hmap : MemoryMap.ofList list with
        | error e =>
            rw [hmap] at h
            cases h
        | ok m =>
            rw [hmap] at h
            cases h
            rw [MemoryMap.entries_of_ofList hmap, MemoryMap.arrange, List.mem_mergeSort]
            exact mem_windows_iff hsize hlist
  · cases h

end Board

end Rv32
