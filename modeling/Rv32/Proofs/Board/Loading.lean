import Mathlib.Logic.Function.Iterate
import Rv32.Board.Loading
import Rv32.Proofs.Board.Reachable
import Rv32.Proofs.Board.Standard
import Rv32.Proofs.Memory.Paging
import Rv32.Proofs.MemoryMap.Region

/-! # What the loading of an image does

An image is a write to main memory of which the device windows hide a part. It
can be loaded piece by piece as well: a piece goes from one place of the image
to the end of the region around its address, and is written or left out as a
whole. The pieces follow each other without a gap, however windows and gaps are
arranged, so after no more rounds than there are bytes the same is in memory.
-/

namespace Rv32

namespace Ram

/-- What a write leaves at an address depends on no other address of memory. -/
theorem get_write_congr {r s : Ram} {x : Word} (h : r.get x = s.get x) (a : Word)
    (bytes : List Byte) : (r.write a bytes).get x = (s.write a bytes).get x := by
  induction bytes generalizing r s a with
  | nil => exact h
  | cons b rest ih =>
      refine ih ?_ (a + 1)
      rw [get_set, get_set, h]

end Ram

namespace SystemBus

/-! ## Byte by byte -/

theorem isMemory_iff (b : SystemBus) (a : Word) : b.isMemory a = true ↔ b.map.Vacant a := by
  unfold isMemory
  rw [Option.isNone_iff_eq_none, MemoryMap.lookup_eq_none_iff]

theorem map_loadByte (b : SystemBus) (a : Word) (v : Byte) : (b.loadByte a v).map = b.map := by
  unfold loadByte
  split
  · rfl
  · rfl

theorem loadByte_of_vacant {b : SystemBus} {a : Word} (h : b.map.Vacant a) (v : Byte) :
    b.loadByte a v = { b with ram := b.ram.set a v } := by
  unfold loadByte
  rw [if_pos ((b.isMemory_iff a).mpr h)]

theorem loadByte_of_window {b : SystemBus} {a : Word} (h : ¬ b.map.Vacant a) (v : Byte) :
    b.loadByte a v = b := by
  unfold loadByte
  rw [if_neg (mt (b.isMemory_iff a).mp h)]

/-- Outside the windows an image is loaded as it would be written, and inside it does nothing. -/
theorem get_ram_load (b : SystemBus) (a : Word) (bytes : List Byte) (x : Word) :
    (b.load a bytes).ram.get x =
      if b.map.Vacant x then (b.ram.write a bytes).get x else b.ram.get x := by
  induction bytes generalizing b a with
  | nil =>
      rw [load, Ram.write]
      split
      · rfl
      · rfl
  | cons v rest ih =>
      rw [load, ih, map_loadByte, Ram.write]
      by_cases ha : b.map.Vacant a
      · rw [loadByte_of_vacant ha]
        split
        · rfl
        · rename_i hx
          have hne : a ≠ x := fun h => hx (h ▸ ha)
          change (b.ram.set a v).get x = b.ram.get x
          rw [Ram.get_set, if_neg hne]
      · rw [loadByte_of_window ha]
        split
        · rename_i hx
          have hne : a ≠ x := fun h => ha (h ▸ hx)
          refine Ram.get_write_congr ?_ (a + 1) rest
          rw [Ram.get_set, if_neg hne]
        · rfl

theorem load_append (b : SystemBus) (a : Word) (bytes more : List Byte) :
    b.load a (bytes ++ more) = (b.load a bytes).load (a + BitVec.ofNat 32 bytes.length) more := by
  induction bytes generalizing b a with
  | nil => simp [load]
  | cons v rest ih =>
      rw [List.cons_append, load, load, ih, Ram.add_one_ofNat, List.length_cons]

/-- Bytes of which all addresses lie outside the windows are written. -/
theorem load_of_vacant {b : SystemBus} {a : Word} {bytes : List Byte}
    (h : ∀ k < bytes.length, b.map.Vacant (a + BitVec.ofNat 32 k)) :
    b.load a bytes = { b with ram := b.ram.write a bytes } := by
  induction bytes generalizing b a with
  | nil => rfl
  | cons v rest ih =>
      have hfirst := h 0 (Nat.succ_pos rest.length)
      rw [BitVec.add_zero] at hfirst
      rw [load, loadByte_of_vacant hfirst, ih, Ram.write]
      intro k hk
      rw [Ram.add_one_ofNat]
      exact h (k + 1) (Nat.succ_lt_succ hk)

/-- Bytes of which all addresses lie in windows are left out. -/
theorem load_of_windows {b : SystemBus} {a : Word} {bytes : List Byte}
    (h : ∀ k < bytes.length, ¬ b.map.Vacant (a + BitVec.ofNat 32 k)) : b.load a bytes = b := by
  induction bytes generalizing b a with
  | nil => rfl
  | cons v rest ih =>
      have hfirst := h 0 (Nat.succ_pos rest.length)
      rw [BitVec.add_zero] at hfirst
      rw [load, loadByte_of_window hfirst, ih]
      intro k hk
      rw [Ram.add_one_ofNat]
      exact h (k + 1) (Nat.succ_lt_succ hk)

/-! ## Piece by piece -/

/-- How many of the `left` bytes from `a` on come before the end of the region around `a`. -/
def pieceLength (map : MemoryMap Resource) (a : Word) (left : Nat) : Nat :=
  min (((map.lookup a).1.last - a).toNat + 1) left

/-- How much of an image has been dealt with, and what memory holds by then. -/
structure Progress where
  offset : Nat
  ram : Ram

namespace Progress

variable (map : MemoryMap Resource) (base : Word) (image : List Byte) (s : Progress)

def address : Word :=
  base + BitVec.ofNat 32 s.offset

def step : Nat :=
  pieceLength map (s.address base) (image.length - s.offset)

def piece : List Byte :=
  (image.drop s.offset).take (s.step map base image)

/-- One round of the loading: the next piece goes to memory, or it falls into a window. -/
def round : Progress :=
  { offset := s.offset + s.step map base image
    ram :=
      match (map.lookup (s.address base)).2 with
      | none => s.ram.write (s.address base) (s.piece map base image)
      | some _ => s.ram }

/-- Memory holds what the part of the image that has been dealt with leaves there. -/
structure Reached (b : SystemBus) (base : Word) (image : List Byte) (s : Progress) : Prop where
  offset_le : s.offset ≤ image.length
  ram : s.ram = (b.load base (image.take s.offset)).ram

end Progress

section

variable {map : MemoryMap Resource} {a : Word} {k left : Nat}

/-- A piece stays in the region around its first address. -/
theorem contains_of_lt_pieceLength (hk : k < pieceLength map a left) :
    (map.lookup a).1.contains (a + BitVec.ofNat 32 k) = true := by
  have hlast : k ≤ ((map.lookup a).1.last - a).toNat := by
    unfold pieceLength at hk
    omega
  have hone := (map.inOneRegion_succ_iff a k).mpr hlast
  exact (map.sameRegion_iff a _).mp (hone k (Nat.lt_succ_self k)).2

/-- If the first address of a piece lies outside the windows, so do all of them. -/
theorem vacant_iff_of_lt_pieceLength (hk : k < pieceLength map a left) :
    map.Vacant (a + BitVec.ofNat 32 k) ↔ (map.lookup a).2 = none := by
  have hin := contains_of_lt_pieceLength hk
  constructor
  · intro hvacant
    cases hvalue : (map.lookup a).2 with
    | none => rfl
    | some r =>
        have hclear := hvacant _ ((map.located_lookup a).mapped r hvalue)
        rw [hin] at hclear
        cases hclear
  · intro hnone
    exact MemoryMap.vacant_of_lookup hnone hin

end

theorem map_load (b : SystemBus) (a : Word) (bytes : List Byte) : (b.load a bytes).map = b.map := by
  rw [load_eq]

namespace Progress

variable {map : MemoryMap Resource} {b : SystemBus} {base : Word} {image : List Byte}
  {s : Progress}

theorem step_le : s.step map base image ≤ image.length - s.offset :=
  Nat.min_le_right _ _

theorem step_pos (h : s.offset < image.length) : 0 < s.step map base image := by
  unfold step pieceLength
  omega

theorem length_piece : (s.piece map base image).length = s.step map base image := by
  unfold piece
  rw [List.length_take_of_le]
  rw [List.length_drop]
  exact step_le

theorem ram_round_of_vacant (h : (map.lookup (s.address base)).2 = none) :
    (s.round map base image).ram = s.ram.write (s.address base) (s.piece map base image) := by
  simp only [round, h]

theorem ram_round_of_window {r : Resource} (h : (map.lookup (s.address base)).2 = some r) :
    (s.round map base image).ram = s.ram := by
  simp only [round, h]

/-- After a round, memory holds what the image leaves there up to the end of the next piece. -/
theorem Reached.round (hs : s.Reached b base image) :
    (s.round b.map base image).Reached b base image := by
  have hle : s.step b.map base image ≤ image.length - s.offset := step_le
  have hoffset := hs.offset_le
  have hlength : (image.take s.offset).length = s.offset := List.length_take_of_le hoffset
  -- The piece comes right after what has been dealt with before.
  have hload : b.load base (image.take (s.offset + s.step b.map base image)) =
      (b.load base (image.take s.offset)).load (s.address base) (s.piece b.map base image) := by
    rw [List.take_add, load_append, hlength]
    rfl
  refine { offset_le := ?_, ram := ?_ }
  · change s.offset + s.step b.map base image ≤ image.length
    omega
  · change _ = (b.load base (image.take (s.offset + s.step b.map base image))).ram
    rw [hload]
    cases hvalue : (b.map.lookup (s.address base)).2 with
    | none =>
        have hvacant : ∀ k < (s.piece b.map base image).length,
            (b.load base (image.take s.offset)).map.Vacant
              (s.address base + BitVec.ofNat 32 k) := by
          intro k hk
          rw [length_piece] at hk
          rw [map_load]
          exact (vacant_iff_of_lt_pieceLength hk).mpr hvalue
        rw [ram_round_of_vacant hvalue, hs.ram, load_of_vacant hvacant]
    | some r =>
        have hwindow : ∀ k < (s.piece b.map base image).length,
            ¬ (b.load base (image.take s.offset)).map.Vacant
              (s.address base + BitVec.ofNat 32 k) := by
          intro k hk
          rw [length_piece] at hk
          rw [map_load, vacant_iff_of_lt_pieceLength hk, hvalue]
          exact Option.some_ne_none r
        rw [ram_round_of_window hvalue, hs.ram, load_of_windows hwindow]

/-- Each round deals with at least one byte, so the rounds come to the end of the image. -/
theorem Reached.exists_rounds (hs : s.Reached b base image) :
    ∃ n ≤ image.length - s.offset,
      (∀ k < n, ((Progress.round b.map base image)^[k] s).offset < image.length) ∧
      (Progress.round b.map base image)^[n] s = ⟨image.length, (b.load base image).ram⟩ := by
  generalize hleft : image.length - s.offset = left
  induction left using Nat.strongRecOn generalizing s with
  | ind left ih =>
      have hoffset := hs.offset_le
      by_cases hdone : s.offset = image.length
      · refine ⟨0, Nat.zero_le left, fun k hk => absurd hk (Nat.not_lt_zero k), ?_⟩
        have hram := hs.ram
        rw [hdone, List.take_length] at hram
        rw [Function.iterate_zero_apply, ← hdone, ← hram]
      · have hlt : s.offset < image.length := by omega
        have hpositive : 0 < s.step b.map base image := step_pos hlt
        have hnext : (s.round b.map base image).offset =
            s.offset + s.step b.map base image := rfl
        obtain ⟨n, hn, hrunning, hend⟩ :=
          ih (image.length - (s.round b.map base image).offset) (by omega) hs.round rfl
        refine ⟨n + 1, by omega, ?_, hend⟩
        intro k hk
        cases k with
        | zero => exact hlt
        | succ k => exact hrunning k (by omega)

end Progress

end SystemBus

namespace Board

/--
After an image of fewer bytes than there are addresses has been loaded, memory holds each of its
bytes whose address lies outside all device windows. Every other byte of memory is as before, and so
are the devices, the hart and the number of steps. It makes no difference whether the image starts
or ends in a window, goes across several of them or on at address zero. Loaded piece by piece, the
image is at its end after no more rounds than it has bytes, and leaves the same memory.
-/
theorem load_fills_memory (b : Board) (base : Word) {image : List Byte}
    (hsize : image.length < addressCount) :
    (∀ i v, image[i]? = some v → b.bus.map.Vacant (base + BitVec.ofNat 32 i) →
        (b.load base image).bus.ram.get (base + BitVec.ofNat 32 i) = v) ∧
      (∀ x, (∀ i < image.length, base + BitVec.ofNat 32 i = x → ¬ b.bus.map.Vacant x) →
        (b.load base image).bus.ram.get x = b.bus.ram.get x) ∧
      b.load base image = b.withBus { b.bus with ram := (b.load base image).bus.ram } ∧
      ∃ n ≤ image.length,
        (∀ k < n, ((SystemBus.Progress.round b.bus.map base image)^[k]
          ⟨0, b.bus.ram⟩).offset < image.length) ∧
        (SystemBus.Progress.round b.bus.map base image)^[n] ⟨0, b.bus.ram⟩ =
          ⟨image.length, (b.load base image).bus.ram⟩ := by
  have hbus : (b.load base image).bus = b.bus.load base image := rfl
  refine ⟨?_, ?_, ?_, ?_⟩
  · intro i v hv hvacant
    have hi : i < image.length := (List.getElem?_eq_some_iff.mp hv).1
    rw [hbus, SystemBus.get_ram_load, if_pos hvacant, Ram.get_write _ _ _ _ (Nat.le_of_lt hsize),
      Ram.toNat_distance base (Nat.lt_trans hi hsize), hv]
    rfl
  · intro x hx
    rw [hbus, SystemBus.get_ram_load]
    split
    · rename_i hvacant
      exact Ram.get_write_of_ne fun i hi heq => hx i hi heq hvacant
    · rfl
  · rw [hbus, ← SystemBus.load_eq]
    rfl
  · have hstart : SystemBus.Progress.Reached b.bus base image ⟨0, b.bus.ram⟩ :=
      { offset_le := Nat.zero_le _, ram := rfl }
    exact hstart.exists_rounds

def blankBoard : Board :=
  assemble .standard standardMap (.withInput []) 0

/-- An image that starts in the last two bytes of one window and covers the whole next one. -/
def longImage : List Byte :=
  List.replicate 0x104 7

/-- Two bytes of it come behind the windows. Another image goes on at address zero. -/
theorem load_fills_memory_across_windows :
    longImage.length < addressCount ∧
      (blankBoard.load 0x0FFFFFFE longImage).bus.ram.get 0x10000101 = 7 ∧
      (blankBoard.load 0x0FFFFFFE longImage).bus.ram.get 0x10000080 = 0 ∧
      (blankBoard.load 0xFFFFFFFE [1, 2, 3, 4]).bus.ram.get 1 = 4 := by
  have hsize : longImage.length < addressCount := by
    rw [longImage, List.length_replicate]
    decide
  have hbehind : longImage[0x103]? = some 7 := by
    rw [longImage, List.getElem?_replicate]
    rfl
  obtain ⟨hstored, hkept, -⟩ := load_fills_memory blankBoard 0x0FFFFFFE hsize
  have hshort : ([1, 2, 3, 4] : List Byte).length < addressCount := by decide
  obtain ⟨hwrapped, -⟩ := load_fills_memory blankBoard 0xFFFFFFFE hshort
  refine ⟨hsize, hstored 0x103 7 hbehind (by decide), ?_, hwrapped 3 4 rfl (by decide)⟩
  refine (hkept 0x10000080 fun i _ _ => by decide).trans ?_
  exact Ram.get_empty _

end Board

end Rv32
