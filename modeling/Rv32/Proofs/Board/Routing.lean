import Rv32.Proofs.Board.Standard
import Rv32.Proofs.Board.Windows
import Rv32.Proofs.Bus.Access

/-! # Where the system bus takes an access

An access whose bytes lie in one region reaches the component that owns the
region, and that component alone. Any other access reaches none.
-/

namespace Rv32

namespace SystemBus

/--
The answer of the component that owns a region, a device or main memory, and the
bus on which that component has changed.
-/
def serve (b : SystemBus) : Option Resource → Access → List Byte × SystemBus
  | some .clint, a => (a.answer b.clint, { b with clint := a.apply b.clint })
  | some .plic, a => (a.answer b.plic, { b with plic := a.apply b.plic })
  | some .uart, a => (a.answer b.uart, { b with uart := a.apply b.uart })
  | some .framebuffer, a => (a.answer b.frame, { b with frame := a.apply b.frame })
  | none, a => (a.answer b.ram, { b with ram := a.apply b.ram })

variable {b : SystemBus}

/-! ## Routes -/

theorem isSome_route?_iff (b : SystemBus) (address : Word) {size : Nat} (hsize : 0 < size) :
    (b.route? address size).isSome = true ↔ b.map.InOneRegion address size := by
  obtain ⟨delta, rfl⟩ := Nat.exists_eq_succ_of_ne_zero (Nat.ne_of_gt hsize)
  rw [Nat.succ_eq_add_one, MemoryMap.inOneRegion_succ_iff]
  simp only [route?]
  split
  · rename_i hshort
    simpa using hshort
  · rename_i hfits
    have hroute : delta ≤ ((b.map.lookup address).1.last - address).toNat := Nat.not_lt.mp hfits
    cases (b.map.lookup address).2 with
    | none => simpa using hroute
    | some r => simpa using hroute

/-- An access that is forwarded goes to the owner of the region of its first byte. -/
theorem route?_eq_some {address : Word} {size : Nat} {route : Route}
    (h : b.route? address size = some route) :
    route =
      match (b.map.lookup address).2 with
      | some r => .device r (address - (b.map.lookup address).1.first)
      | none => .ram address := by
  unfold route? at h
  cases size with
  | zero => cases h
  | succ delta =>
      simp only at h
      split at h
      · cases h
      · cases howner : (b.map.lookup address).2 with
        | none =>
            rw [howner] at h
            exact (Option.some.inj h).symm
        | some r =>
            rw [howner] at h
            exact (Option.some.inj h).symm

theorem serve_of_device {a : Access} {r : Resource} {offset : Word}
    (h : b.route? a.address a.size = some (.device r offset)) :
    (a.answer b, a.apply b) = b.serve (some r) (a.movedTo offset) := by
  cases a with
  | read address size =>
      have hroute : b.route? address size = some (.device r offset) := h
      simp only [Access.answer, Access.apply, Bus.read, hroute]
      cases r <;> rfl
  | write address bytes =>
      have hroute : b.route? address bytes.length = some (.device r offset) := h
      simp only [Access.answer, Access.apply, Bus.write, hroute]
      cases r <;> rfl

theorem serve_of_ram {a : Access} (h : b.route? a.address a.size = some (.ram a.address)) :
    (a.answer b, a.apply b) = b.serve none a := by
  cases a with
  | read address size =>
      have hroute : b.route? address size = some (.ram address) := h
      simp only [Access.answer, Access.apply, Bus.read, hroute]
      rfl
  | write address bytes =>
      have hroute : b.route? address bytes.length = some (.ram address) := h
      simp only [Access.answer, Access.apply, Bus.write, hroute]
      rfl

theorem dropped_of_route? {a : Access} (h : b.route? a.address a.size = none) :
    a.answer b = a.zeros ∧ a.apply b = b := by
  cases a with
  | read address size =>
      have hroute : b.route? address size = none := h
      constructor
      · simp only [Access.answer, Bus.read, hroute]
        rfl
      · simp only [Access.apply, Bus.read, hroute]
  | write address bytes =>
      have hroute : b.route? address bytes.length = none := h
      refine ⟨rfl, ?_⟩
      simp only [Access.apply, Bus.write, hroute]

/-! ## Accesses -/

variable {a : Access}

theorem serve_of_window (hone : b.map.InOneRegion a.address a.size) (hsize : 0 < a.size)
    {w : Interval} {r : Resource} (hmem : (w, r) ∈ b.map.entries)
    (hin : w.contains a.address = true) :
    (a.answer b, a.apply b) = b.serve (some r) (a.movedTo (a.address - w.first)) := by
  obtain ⟨route, hroute⟩ := Option.isSome_iff_exists.mp ((b.isSome_route?_iff _ hsize).mpr hone)
  have htarget := route?_eq_some hroute
  rw [MemoryMap.lookup_of_mem hmem hin] at htarget
  subst htarget
  exact serve_of_device hroute

theorem serve_of_vacant (hone : b.map.InOneRegion a.address a.size) (hsize : 0 < a.size)
    (hvacant : b.map.Vacant a.address) : (a.answer b, a.apply b) = b.serve none a := by
  obtain ⟨route, hroute⟩ := Option.isSome_iff_exists.mp ((b.isSome_route?_iff _ hsize).mpr hone)
  have htarget := route?_eq_some hroute
  rw [(b.map.lookup_eq_none_iff a.address).mpr hvacant] at htarget
  subst htarget
  exact serve_of_ram hroute

theorem dropped_of_not_inOneRegion (hsize : 0 < a.size)
    (hcross : ¬ b.map.InOneRegion a.address a.size) : a.answer b = a.zeros ∧ a.apply b = b := by
  rw [← b.isSome_route?_iff a.address hsize, Bool.not_eq_true, Option.isSome_eq_false_iff,
    Option.isNone_iff_eq_none] at hcross
  exact dropped_of_route? hcross

/--
On the bus of a board with an accepted configuration, an access is forwarded if,
and only if, all its bytes exist and lie in one region. The regions are the
windows of the devices and the gaps between them. The device whose window it is
serves the access at the offset into the window, main memory serves it at its
address, and nothing else changes. An access that is not forwarded changes
nothing, and a read among them gets zeros.
-/
theorem access_routed {config : BoardConfig}
    (hmap : Board.memoryMap config.frameWidth config.frameHeight = .ok b.map)
    (hsize : 0 < a.size) :
    (∀ w r, (w, r) ∈ b.map.entries ↔ r.HasWindow config.frameWidth config.frameHeight w) ∧
      ((b.route? a.address a.size).isSome = true ↔ b.map.InOneRegion a.address a.size) ∧
      (b.map.InOneRegion a.address a.size →
        (∀ w r, (w, r) ∈ b.map.entries → w.contains a.address = true →
          (a.answer b, a.apply b) = b.serve (some r) (a.movedTo (a.address - w.first))) ∧
        (b.map.Vacant a.address → (a.answer b, a.apply b) = b.serve none a)) ∧
      (¬ b.map.InOneRegion a.address a.size → a.answer b = a.zeros ∧ a.apply b = b) := by
  refine ⟨fun w r => Board.mem_entries_iff hmap, b.isSome_route?_iff a.address hsize, ?_, ?_⟩
  · intro hone
    refine ⟨?_, serve_of_vacant hone hsize⟩
    intro w r hmem hin
    exact serve_of_window hone hsize hmem hin
  · exact dropped_of_not_inOneRegion hsize

def standardBus : SystemBus :=
  (Board.assemble .standard Board.standardMap (.withInput []) 0).bus

/-- A write to the UART reaches it. A read that starts right below the UART gets zeros. -/
theorem access_routed_straddling :
    (standardBus.map.InOneRegion 0x10000001 1 ∧
        (Access.write 0x10000001 [2]).apply standardBus =
          { standardBus with uart := Bus.write standardBus.uart 1 [2] }) ∧
      ¬ standardBus.map.InOneRegion 0x0FFFFFFE 4 ∧
      (Access.read 0x0FFFFFFE 4).answer standardBus = [0, 0, 0, 0] ∧
      (Access.read 0x0FFFFFFE 4).apply standardBus = standardBus := by
  have hinside : standardBus.map.InOneRegion 0x10000001 1 :=
    (standardBus.isSome_route?_iff _ (by decide)).mp (by decide)
  have hcross : ¬ standardBus.map.InOneRegion 0x0FFFFFFE 4 :=
    mt (standardBus.isSome_route?_iff _ (by decide)).mpr (by decide)
  obtain ⟨-, -, hserve, -⟩ := access_routed (b := standardBus)
    (a := .write 0x10000001 [2]) Board.memoryMap_standard (by decide)
  obtain ⟨-, -, -, hdrop⟩ := access_routed (b := standardBus)
    (a := .read 0x0FFFFFFE 4) Board.memoryMap_standard (by decide)
  have hwindow := (hserve hinside).1 ⟨Board.uartBase, Board.uartBase + 0xFF, by decide⟩ .uart
    (.tail _ (.tail _ (.head _))) (by decide)
  exact ⟨⟨hinside, congrArg Prod.snd hwindow⟩, hcross, hdrop hcross⟩

end SystemBus

end Rv32
