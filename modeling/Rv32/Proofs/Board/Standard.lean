import Rv32.Board.Construction
import Rv32.Proofs.MemoryMap

/-! # The board of the standard configuration

The windows that the standard configuration leads to, with which concrete runs
of a board are made.
-/

namespace Rv32

namespace Board

def standardMap : MemoryMap Resource :=
  { entries :=
      [(⟨clintBase, clintBase + 0xBFFF, by decide⟩, .clint),
        (⟨plicBase, plicBase + 0x03FFFFFF, by decide⟩, .plic),
        (⟨uartBase, uartBase + 0xFF, by decide⟩, .uart),
        (⟨frameBase, frameBase + 0x3E7FF, by decide⟩, .framebuffer)]
    ascending := by decide }

theorem memoryMap_standard :
    memoryMap BoardConfig.standard.frameWidth BoardConfig.standard.frameHeight =
      .ok standardMap := by
  change (MemoryMap.ofList standardMap.entries).mapError ConfigError.memoryMap = _
  rw [MemoryMap.ofList_entries]
  rfl

/-- The configuration used unless other choices are made leads to the standard windows. -/
theorem build_standard (console : Console) (clock : DoubleWord) :
    build .standard console clock = .ok (assemble .standard standardMap console clock) := by
  unfold build
  rw [memoryMap_standard]

end Board

end Rv32
