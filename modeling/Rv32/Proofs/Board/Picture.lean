import Rv32.Proofs.Board.Bounds
import Rv32.Proofs.Board.Reachable

/-! # The size of the framebuffer

A configuration is accepted if the bytes of the picture exist and fit between
the first address of the framebuffer and the end of the address space. Then the
window is as large as the picture and stays so, and the system bus forwards no
access that leaves the picture.
-/

namespace Rv32

def BoardConfig.pictureSize (config : BoardConfig) : Nat :=
  4 * (config.frameWidth * config.frameHeight)

namespace Board

/-! ## Accepted and refused configurations -/

variable {width height : Nat}

theorem memoryMap_of_tooLarge (h : addressCount ≤ 4 * (width * height)) :
    memoryMap width height = .error (.framebufferTooLarge width height) := by
  have hnot : ¬ 4 * (width * height) < addressCount := Nat.not_lt.mpr h
  unfold memoryMap frameSize
  rw [if_neg hnot]
  rfl

theorem memoryMap_of_lt (h : 4 * (width * height) < addressCount) :
    memoryMap width height =
      windows (BitVec.ofNat 32 (4 * (width * height))) >>= fun list =>
        (MemoryMap.ofList list).mapError .memoryMap := by
  unfold memoryMap frameSize
  rw [if_pos h]
  rfl

theorem toNat_frameSize (h : 4 * (width * height) < addressCount) :
    (BitVec.ofNat 32 (4 * (width * height))).toNat = 4 * (width * height) := by
  rw [BitVec.toNat_ofNat]
  exact Nat.mod_eq_of_lt h

theorem toNat_frameBase : frameBase.toNat = 0x30000000 := rfl

theorem memoryMap_of_misfit (h : 4 * (width * height) < addressCount)
    (hmisfit : 4 * (width * height) = 0 ∨ 0xD0000000 < 4 * (width * height)) :
    memoryMap width height = .error (.deviceWindow
      ⟨frameBase, frameBase + BitVec.ofNat 32 (4 * (width * height))⟩) := by
  have hwindow : Interval.ofSize frameBase (BitVec.ofNat 32 (4 * (width * height))) =
      .error ⟨frameBase, frameBase + BitVec.ofNat 32 (4 * (width * height))⟩ := by
    apply Interval.ofSize_of_misfit
    rw [toNat_frameSize h, toNat_frameBase]
    unfold addressCount
    omega
  have hlist : windows (BitVec.ofNat 32 (4 * (width * height))) =
      .error (.deviceWindow ⟨frameBase, frameBase + BitVec.ofNat 32 (4 * (width * height))⟩) := by
    change (Interval.ofSize frameBase _).mapError ConfigError.deviceWindow >>= _ = _
    rw [hwindow]
    rfl
  rw [memoryMap_of_lt h, hlist]
  rfl

/-- The windows of the devices are listed in ascending order. -/
theorem exists_map_of_windows {size : Word} {list : List (Interval × Resource)}
    (h : windows size = .ok list) : ∃ map : MemoryMap Resource, map.entries = list := by
  obtain ⟨frame, hframe, rfl⟩ := windows_eq_ok h
  have hbase := (Interval.ofSize_eq_ok hframe).1
  refine ⟨⟨_, ?_⟩, rfl⟩
  simp only [List.pairwise_cons, List.mem_cons, List.not_mem_nil, or_false, forall_eq_or_imp,
    forall_eq, hbase, false_imp_iff, implies_true, List.Pairwise.nil, and_true]
  decide

theorem memoryMap_of_fits (hpositive : 1 ≤ 4 * (width * height))
    (hfits : 4 * (width * height) ≤ 0xD0000000) : ∃ map, memoryMap width height = .ok map := by
  have hlt : 4 * (width * height) < addressCount := by
    unfold addressCount
    omega
  obtain ⟨frame, hframe⟩ : ∃ frame,
      Interval.ofSize frameBase (BitVec.ofNat 32 (4 * (width * height))) = .ok frame := by
    apply Interval.ofSize_of_fits
    · rw [toNat_frameSize hlt]
      exact hpositive
    · rw [toNat_frameSize hlt, toNat_frameBase]
      unfold addressCount
      omega
  obtain ⟨list, hlist⟩ : ∃ list, windows (BitVec.ofNat 32 (4 * (width * height))) = .ok list := by
    change ∃ list, (Interval.ofSize frameBase _).mapError ConfigError.deviceWindow >>= _ = _
    rw [hframe]
    exact ⟨_, rfl⟩
  obtain ⟨map, rfl⟩ := exists_map_of_windows hlist
  refine ⟨map, ?_⟩
  rw [memoryMap_of_lt hlt, hlist]
  change (MemoryMap.ofList map.entries).mapError ConfigError.memoryMap = _
  rw [MemoryMap.ofList_entries]
  rfl

/-! ## Building -/

variable {config : BoardConfig} {console : Console} {clock : DoubleWord}

theorem build_of_error {e : ConfigError}
    (h : memoryMap config.frameWidth config.frameHeight = .error e) :
    build config console clock = .error e := by
  rw [build, h]

/-- The size of its picture says which configuration is accepted, and why others are refused. -/
theorem build_cases (config : BoardConfig) (console : Console) (clock : DoubleWord) :
    ((1 ≤ config.pictureSize ∧ config.pictureSize ≤ 0xD0000000) ∧
        ∃ b, build config console clock = .ok b) ∨
      ((config.pictureSize = 0 ∨
          0xD0000000 < config.pictureSize ∧ config.pictureSize < addressCount) ∧
        ∃ e, build config console clock = .error (.deviceWindow e)) ∨
      addressCount ≤ config.pictureSize ∧
        build config console clock =
          .error (.framebufferTooLarge config.frameWidth config.frameHeight) := by
  unfold BoardConfig.pictureSize
  rcases Nat.lt_or_ge (4 * (config.frameWidth * config.frameHeight)) addressCount with hlt | hge
  · by_cases hfits : 1 ≤ 4 * (config.frameWidth * config.frameHeight) ∧
        4 * (config.frameWidth * config.frameHeight) ≤ 0xD0000000
    · obtain ⟨map, hmap⟩ := memoryMap_of_fits hfits.1 hfits.2
      refine .inl ⟨hfits, assemble config map console clock, ?_⟩
      rw [build, hmap]
    · have hmisfit : 4 * (config.frameWidth * config.frameHeight) = 0 ∨
          0xD0000000 < 4 * (config.frameWidth * config.frameHeight) := by
        omega
      exact .inr (.inl ⟨hmisfit.imp_right fun h => ⟨h, hlt⟩, _,
        build_of_error (memoryMap_of_misfit hlt hmisfit)⟩)
  · exact .inr (.inr ⟨hge, build_of_error (memoryMap_of_tooLarge hge)⟩)

end Board

/-! ## The window of the framebuffer -/

namespace SystemBus

/-- The window of the framebuffer has one address for each byte of the picture. -/
def Framed (b : SystemBus) : Prop :=
  ∀ w, (w, Resource.framebuffer) ∈ b.map.entries →
    w.last.toNat + 1 = w.first.toNat + b.frame.byteCount

theorem byteCount_write (f : Frame) (offset : Word) (bytes : List Byte) :
    (Bus.write f offset bytes).byteCount = f.byteCount := by
  simp only [Bus.write, Frame.write]
  split
  · rename_i next hnext
    split at hnext
    · cases hnext
      exact f.byteCount_writeFrom offset.toNat bytes
    · cases hnext
  · rfl

theorem Framed.write {b : SystemBus} (hb : b.Framed) (address : Word) (bytes : List Byte) :
    (Bus.write b address bytes).Framed := by
  simp only [Bus.write]
  split
  · rename_i route _
    cases route with
    | ram a => exact hb
    | device r offset =>
        cases r with
        | framebuffer =>
            intro w hw
            rw [hb w hw]
            exact congrArg (w.first.toNat + ·) (byteCount_write b.frame offset bytes).symm
        | clint => exact hb
        | plic => exact hb
        | uart => exact hb
  · exact hb

theorem stable_framed : Stable Framed :=
  { read := by
      intro b address size hb
      rw [read_eq]
      exact hb
    write := fun _ address bytes hb => hb.write address bytes
    sampled := fun _ hb => hb
    polled := fun _ hb => hb
    loaded := by
      intro b a bytes hb
      rw [load_eq]
      exact hb
    arrived := fun _ _ hb => hb
    ticked := fun _ _ hb => hb }

/-- What is forwarded to a device does not leave the window of the device. -/
theorem route?_eq_device {b : SystemBus} {address offset : Word} {size : Nat} {r : Resource}
    (h : b.route? address size = some (.device r offset)) :
    ∃ w, (w, r) ∈ b.map.entries ∧ offset.toNat + w.first.toNat = address.toNat ∧
      address.toNat + size ≤ w.last.toNat + 1 := by
  have haround := b.map.contains_lookup address
  have hfirst := ((Interval.contains_iff_toNat _ address).mp haround).1
  have htarget := route?_eq_some h
  cases howner : (b.map.lookup address).2 with
  | none =>
      rw [howner] at htarget
      cases htarget
  | some v =>
      rw [howner] at htarget
      cases htarget
      refine ⟨_, (b.map.located_lookup address).mapped _ howner, ?_, ?_⟩
      · rw [BitVec.toNat_sub_of_le hfirst]
        omega
      · have hroute : (b.route? address size).isSome = true := by rw [h]; rfl
        rw [isSome_route?_iff_containsAccess, Interval.containsAccess_iff] at hroute
        exact hroute.2.2

theorem Framed.inside {b : SystemBus} (hb : b.Framed) {address offset : Word} {size : Nat}
    (h : b.route? address size = some (.device .framebuffer offset)) :
    offset.toNat + size ≤ b.frame.byteCount := by
  obtain ⟨w, hw, hoffset, hend⟩ := route?_eq_device h
  have hpicture := hb w hw
  omega

end SystemBus

namespace Board

open Bus (Accessed)

variable {config : BoardConfig} {console : Console} {clock : DoubleWord}

theorem framed_build {b : Board} (hbuild : build config console clock = .ok b) : b.bus.Framed := by
  unfold build at hbuild
  split at hbuild
  · rename_i map hmap
    cases hbuild
    intro w hw
    have hwindow := (mem_entries_iff hmap).mp hw
    rw [hwindow.first]
    exact hwindow.last
  · cases hbuild

theorem Reachable.framed {b : Board} (h : b.Reachable) : b.bus.Framed :=
  h.stable SystemBus.stable_framed framed_build

/--
The size of its picture decides what becomes of a configuration. It is accepted if
the picture has a byte and ends within the address space. It is refused as too
large if the size is no word, and for lack of a window in all other cases, but
never because windows overlap. Whatever happens to an accepted board, an access
that the system bus forwards to the framebuffer stays inside the picture, so the
framebuffer carries it out.
-/
theorem framebuffer_accesses_inside :
    (∀ config console clock,
      ((∃ b, build config console clock = .ok b) ↔
        1 ≤ config.pictureSize ∧ config.pictureSize ≤ 0xD0000000) ∧
      (build config console clock =
          .error (.framebufferTooLarge config.frameWidth config.frameHeight) ↔
        addressCount ≤ config.pictureSize) ∧
      ((∃ e, build config console clock = .error (.deviceWindow e)) ↔
        config.pictureSize = 0 ∨
          0xD0000000 < config.pictureSize ∧ config.pictureSize < addressCount) ∧
      ∀ e, build config console clock ≠ .error (.memoryMap e)) ∧
    ∀ (b : Board) (bus : SystemBus), b.Reachable → Accessed b.bus.sampleLines bus →
      ∀ address size offset, bus.route? address size = some (.device .framebuffer offset) →
        offset.toNat + size ≤ bus.frame.byteCount ∧
        (∃ bytes, bus.frame.read offset size = .ok bytes) ∧
        ∀ bytes, bytes.length = size → ∃ next, bus.frame.write offset bytes = .ok next := by
  constructor
  · intro config console clock
    have hcount : addressCount = 0x100000000 := rfl
    rcases build_cases config console clock with
      ⟨hsize, b, hok⟩ | ⟨hsize, e, herror⟩ | ⟨hsize, herror⟩
    · simp only [hok, Except.ok.injEq, exists_eq', reduceCtorEq, exists_false, true_iff, false_iff,
        ne_eq, not_false_eq_true, implies_true, and_true]
      omega
    · simp only [herror, Except.error.injEq, ConfigError.deviceWindow.injEq, exists_eq',
        reduceCtorEq, exists_false, true_iff, false_iff, ne_eq, not_false_eq_true, implies_true,
        and_true]
      omega
    · simp only [herror, Except.error.injEq, reduceCtorEq, exists_false, true_iff, false_iff,
        ne_eq, not_false_eq_true, implies_true, and_true]
      omega
  · intro b bus hb haccessed address size offset hroute
    have hframed : bus.Framed :=
      haccessed.preserves SystemBus.stable_framed.read SystemBus.stable_framed.write
        (SystemBus.stable_framed.sampled b.bus hb.framed)
    have hinside := hframed.inside hroute
    refine ⟨hinside, ?_, ?_⟩
    · rw [Frame.read, if_pos hinside]
      exact ⟨_, rfl⟩
    · rintro bytes rfl
      rw [Frame.write, if_pos hinside]
      exact ⟨_, rfl⟩

def columnConfig (height : Nat) : BoardConfig :=
  { BoardConfig.standard with frameWidth := 1, frameHeight := height }

/--
The largest column is accepted, the next one and the empty one are refused. The last pixel of the
standard picture can be written over the bus.
-/
theorem framebuffer_accesses_inside_largest :
    (∃ b, build (columnConfig 0x34000000) (.withInput []) 0 = .ok b) ∧
      (∃ e, build (columnConfig 0x34000001) (.withInput []) 0 = .error (.deviceWindow e)) ∧
      (∃ e, build (columnConfig 0) (.withInput []) 0 = .error (.deviceWindow e)) ∧
      build (columnConfig 0x40000000) (.withInput []) 0 =
        .error (.framebufferTooLarge 1 0x40000000) ∧
      SystemBus.standardBus.sampleLines.route? 0x3003E7FC 4 =
        some (.device .framebuffer 0x3E7FC) ∧
      ∃ next, SystemBus.standardBus.sampleLines.frame.write 0x3E7FC [1, 2, 3, 4] = .ok next := by
  obtain ⟨hsizes, hforwarded⟩ := framebuffer_accesses_inside
  obtain ⟨haccepted, -, -, -⟩ := hsizes (columnConfig 0x34000000) (.withInput []) 0
  obtain ⟨-, -, hrefused, -⟩ := hsizes (columnConfig 0x34000001) (.withInput []) 0
  obtain ⟨-, -, hempty, -⟩ := hsizes (columnConfig 0) (.withInput []) 0
  obtain ⟨-, hlarge, -, -⟩ := hsizes (columnConfig 0x40000000) (.withInput []) 0
  have hroute : SystemBus.standardBus.sampleLines.route? 0x3003E7FC 4 =
      some (.device .framebuffer 0x3E7FC) := by decide
  have hwritten := hforwarded _ _ (.built (build_standard (.withInput []) 0)) .refl _ _ _ hroute
  refine ⟨haccepted.mpr ?_, hrefused.mpr ?_, hempty.mpr ?_, hlarge.mpr ?_, hroute, ?_⟩
  · decide
  · decide
  · decide
  · decide
  · exact hwritten.2.2 [1, 2, 3, 4] rfl

end Board

end Rv32
