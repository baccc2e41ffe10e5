import Mathlib.Algebra.Group.Nat.Defs
import Rv32.Proofs.Board.Routing
import Rv32.Proofs.Interval

/-! # Bounds of accesses

Whether an access stays within bounds is asked in two places: of an interval,
and of the region in which the system bus finds the first byte. Both answer as
the numbers do, also where the end of the access is no address any more.
-/

namespace Rv32

namespace SystemBus

/-- The bus forwards the accesses that are not empty and lie in the region of their first byte. -/
theorem isSome_route?_iff_containsAccess (b : SystemBus) (address : Word) (size : Nat) :
    (b.route? address size).isSome = true ↔
      0 < size ∧ (b.map.lookup address).1.containsAccess address size = true := by
  have haround := b.map.contains_lookup address
  have hend := ((Interval.contains_iff_toNat _ address).mp haround).2
  cases size with
  | zero =>
      have hdropped : b.route? address 0 = none := rfl
      simp [hdropped]
  | succ delta =>
      rw [b.isSome_route?_iff address (Nat.succ_pos delta), MemoryMap.inOneRegion_succ_iff,
        Interval.toNat_last_sub haround, Interval.containsAccess_iff]
      simp only [Nat.succ_pos, haround, true_and]
      omega

end SystemBus

namespace Interval

/--
The arithmetic of intervals is exact, up to the last address and for lengths of any size. Any
interval can be built from its bounds. It contains an access if it contains the address of the
first byte and the access ends, as a number, no later than the interval; the distance to the end
does not wrap around. Addresses that are given by the first one and their number make an interval
if there are any and they all exist, the interval consists of just these, and its last address is
found without wrapping around. The size of an interval is the number of its addresses, which is
that of all addresses only for the whole address space. The system bus agrees: of the accesses
that are not empty it forwards those that lie in the region of their first byte, and neither the
distance to the end of the region nor the offset from its start wraps around.
-/
theorem bounds_exact (i : Interval) (b : SystemBus) (a first last size : Word) (len : Nat) :
    (ofBounds first last = .ok i ↔ i.first = first ∧ i.last = last) ∧
      (i.containsAccess a len = true ↔
        (i.first.toNat ≤ a.toNat ∧ a.toNat ≤ i.last.toNat) ∧
          a.toNat + len ≤ i.last.toNat + 1) ∧
      (i.contains a = true → i.last.usubOverflow a = false) ∧
      ((∃ j, ofSize first size = .ok j) ↔
        1 ≤ size.toNat ∧ first.toNat + size.toNat ≤ 2 ^ 32) ∧
      (∀ j, ofSize first size = .ok j →
        (∀ c, j.contains c = true ↔
          first.toNat ≤ c.toNat ∧ c.toNat ≤ first.toNat + size.toNat - 1) ∧
        size.usubOverflow 1 = false ∧ first.uaddOverflow (size - 1) = false) ∧
      (i.size = i.last.toNat - i.first.toNat + 1 ∧ i.last.usubOverflow i.first = false ∧
        i.size ≤ 2 ^ 32 ∧ (i.size = 2 ^ 32 ↔ i = full)) ∧
      (∀ region owner, b.map.lookup a = (region, owner) →
        (0 < len → ((b.route? a len).isSome = true ↔ region.containsAccess a len = true)) ∧
        region.last.usubOverflow a = false ∧ a.usubOverflow region.first = false) := by
  refine ⟨ofBounds_eq_ok_iff, ?_, not_overflow_last_sub, exists_ofSize_iff first size, ?_, ?_, ?_⟩
  · rw [containsAccess_iff, contains_iff_toNat]
  · intro j hj
    exact ⟨contains_of_ofSize hj, not_overflow_of_ofSize hj⟩
  · exact ⟨i.size_eq, not_overflow_last_sub i.contains_first, i.size_le, i.size_eq_addressCount_iff⟩
  · intro region owner hregion
    have haround := b.map.contains_lookup a
    have hroute := b.isSome_route?_iff_containsAccess a len
    rw [hregion] at haround hroute
    refine ⟨fun hlen => ?_, not_overflow_last_sub haround, not_overflow_sub_first haround⟩
    rw [hroute, and_iff_right hlen]

/-- The last address can be accessed and makes an interval. Whatever is longer is refused. -/
theorem bounds_exact_at_last :
    full.size = 2 ^ 32 ∧ full.containsAccess 0xFFFFFFFF 1 = true ∧
      ¬ full.containsAccess 0xFFFFFFFF (2 ^ 64 - 1) = true ∧
      (∃ j, ofSize 0xFFFFFFFF 1 = .ok j ∧ j.contains 0xFFFFFFFF = true ∧
        ¬ j.contains 0xFFFFFFFE = true) ∧
      (¬ ∃ j, ofSize 0xFFFFFFFF 2 = .ok j) ∧
      (SystemBus.standardBus.route? 0xFFFFFFFF 1).isSome = true ∧
      ¬ (SystemBus.standardBus.route? 0xFFFFFFFF 2).isSome = true := by
  obtain ⟨-, hone, -, hsize, hmade, ⟨-, -, -, hfull⟩, hbus⟩ :=
    bounds_exact full SystemBus.standardBus 0xFFFFFFFF 0xFFFFFFFF 0xFFFFFFFF 1 1
  obtain ⟨-, hlong, -, -, -, -, -⟩ :=
    bounds_exact full SystemBus.standardBus 0xFFFFFFFF 0 0 0 (2 ^ 64 - 1)
  obtain ⟨-, -, -, hrefused, -, -, hcross⟩ :=
    bounds_exact full SystemBus.standardBus 0xFFFFFFFF 0xFFFFFFFF 0xFFFFFFFF 2 2
  obtain ⟨j, hj⟩ := hsize.mpr (by decide)
  obtain ⟨hcontains, -⟩ := hmade j hj
  obtain ⟨hlast, -⟩ := hbus ⟨0x3003E800, 0xFFFFFFFF, by decide⟩ none (by decide)
  obtain ⟨hbeyond, -⟩ := hcross ⟨0x3003E800, 0xFFFFFFFF, by decide⟩ none (by decide)
  refine ⟨hfull.mpr rfl, hone.mpr (by decide), mt hlong.mp (by decide),
    ⟨j, hj, (hcontains _).mpr (by decide), mt (hcontains _).mp (by decide)⟩,
    mt hrefused.mp (by decide), (hlast (by decide)).mpr (by decide),
    mt (hbeyond (by decide)).mp (by decide)⟩

end Interval

end Rv32
