import Rv32.Csr.Number
import Rv32.Csr.Status
import Rv32.Trap.Interrupts
import Rv32.Trap.Vector

/-!
# The control and status register bank

All registers of a hart behind one access check: an access names a register by
its number and is refused with an illegal instruction exception when there is
no such register, when the level is too low, when a counter is not opened to
the level, or when a read-only register would be written. Registers with
structure are kept in their own types; the rest are plain cells.
-/

namespace Rv32

namespace PlainCsr

def cell : PlainCsr → Nat
  | scounteren => 0
  | senvcfg => 1
  | sscratch => 2
  | sepc => 3
  | scause => 4
  | stval => 5
  | satp => 6
  | mcounteren => 7
  | mcountinhibit => 8
  | mscratch => 9
  | mepc => 10
  | mcause => 11
  | mtval => 12
  | menvcfg => 13
  | menvcfgh => 14
  | pmpcfg i => 15 + i.val
  | pmpaddr i => 19 + i.val

theorem cell_lt (c : PlainCsr) : c.cell < 35 := by
  cases c <;> simp only [cell] <;> omega

theorem cell_injective {a b : PlainCsr} (h : a.cell = b.cell) : a = b := by
  cases a <;> cases b <;> simp [cell] at h ⊢ <;> omega

end PlainCsr

/-- The registers without structure. -/
structure PlainCsrs where
  cells : Vector Word 35
  deriving DecidableEq

namespace PlainCsrs

def reset : PlainCsrs :=
  ⟨Vector.replicate 35 0⟩

def get (s : PlainCsrs) (c : PlainCsr) : Word :=
  have := c.cell_lt
  s.cells[c.cell]

def set (s : PlainCsrs) (c : PlainCsr) (v : Word) : PlainCsrs :=
  ⟨s.cells.set c.cell v c.cell_lt⟩

theorem get_set (s : PlainCsrs) (c d : PlainCsr) (v : Word) :
    (s.set c v).get d = if c = d then v else s.get d := by
  by_cases h : c = d
  · subst h
    simp [get, set]
  · have hcell : ¬ c.cell = d.cell := fun hc => h (PlainCsr.cell_injective hc)
    simp [get, set, h, hcell]

@[simp] theorem get_set_self (s : PlainCsrs) (c : PlainCsr) (v : Word) :
    (s.set c v).get c = v := by
  simp [get_set]

end PlainCsrs

/-- The register bank of a hart. The cycle and the instruction counters both show `retired`, the
number of steps taken. -/
structure CsrBank where
  status : Status
  delegation : Delegation
  interrupts : Interrupts
  mtvec : TrapVector
  stvec : TrapVector
  plain : PlainCsrs
  clock : DoubleWord
  retired : DoubleWord
  deriving DecidableEq

namespace CsrBank

def initial (clock : DoubleWord) : CsrBank :=
  { status := .reset
    delegation := .reset
    interrupts := .reset
    mtvec := .reset
    stvec := .reset
    plain := .reset
    clock := clock
    retired := 0 }

/-- The bank after a reset. The wall clock goes on. -/
def reset (b : CsrBank) : CsrBank :=
  initial b.clock

/-! ## Access check -/

/-- Whether the counter-enable registers open register `c` to accesses at `level`. -/
def opensCounter (b : CsrBank) (c : Csr) (level : Level) : Bool :=
  match c.guardBit? with
  | none => true
  | some bit =>
      (decide (level = .machine) || (b.plain.get .mcounteren).getLsbD bit)
        && (decide (level ≠ .user) || (b.plain.get .scounteren).getLsbD bit)

/-- The register that an access to number `n` at `level` reaches. -/
def access (b : CsrBank) (n : CsrNumber) (level : Level) : Except Exception Csr :=
  match Csr.ofNumber? n with
  | none => .error .illegalInstruction
  | some c =>
      if n.requiredLevel.rank ≤ level.rank ∧ b.opensCounter c level = true then .ok c
      else .error .illegalInstruction

/-! ## Register values -/

def extensionBit (letter : Char) : Word :=
  1 <<< (letter.toNat - 'A'.toNat)

/-- The list of extensions: 32-bit registers, and the extensions A, I, M, S and U. -/
def extensions : Word :=
  (1 <<< 30) ||| extensionBit 'A' ||| extensionBit 'I' ||| extensionBit 'M' ||| extensionBit 'S'
    ||| extensionBit 'U'

def value (b : CsrBank) : Csr → Word
  | .cycle => DoubleWord.half b.retired .low
  | .instret => DoubleWord.half b.retired .low
  | .mcycle => DoubleWord.half b.retired .low
  | .minstret => DoubleWord.half b.retired .low
  | .cycleh => DoubleWord.half b.retired .high
  | .instreth => DoubleWord.half b.retired .high
  | .mcycleh => DoubleWord.half b.retired .high
  | .minstreth => DoubleWord.half b.retired .high
  | .time => DoubleWord.half b.clock .low
  | .timeh => DoubleWord.half b.clock .high
  | .sstatus => b.status.supervisorView
  | .sie => b.interrupts.sie b.delegation
  | .stvec => b.stvec.value
  | .sip => b.interrupts.sip b.delegation
  | .mvendorid => 0
  | .marchid => 0
  | .mimpid => 0
  | .mhartid => 0
  | .mconfigptr => 0
  | .mstatus => b.status.pack
  | .misa => extensions
  | .medeleg => b.delegation.exceptions
  | .mideleg => b.delegation.interrupts
  | .mie => b.interrupts.mie
  | .mtvec => b.mtvec.value
  | .mstatush => 0
  | .mip => b.interrupts.mip
  | .plain c => b.plain.get c

def setPlain (b : CsrBank) (c : PlainCsr) (v : Word) : CsrBank :=
  { b with plain := b.plain.set c v }

/--
The contents of plain register `c` after a write of `value` under `mask`.
Resume addresses are multiples of four, and a paging mode other than none
leaves the register as it was.
-/
def plainUpdate (c : PlainCsr) (old value mask : Word) : Word :=
  match c with
  | .mepc => Word.merge old value.alignDown mask
  | .sepc => Word.merge old value.alignDown mask
  | .satp =>
      let updated := Word.merge old value mask
      if updated.msb then old else updated
  | _ => Word.merge old value mask

/-- The counter with the bits of its half `h` that `mask` selects written. -/
def mergeHalf (v : DoubleWord) (h : Half) (value mask : Word) : DoubleWord :=
  DoubleWord.withHalf v h (Word.merge (DoubleWord.half v h) value mask)

/--
The bank after the bits of register `c` that `mask` selects have been written,
without an access check. Registers with a fixed value ignore the write.
-/
def update (b : CsrBank) (c : Csr) (value mask : Word) : CsrBank :=
  match c with
  | .mcycle => { b with retired := mergeHalf b.retired .low value mask }
  | .minstret => { b with retired := mergeHalf b.retired .low value mask }
  | .mcycleh => { b with retired := mergeHalf b.retired .high value mask }
  | .minstreth => { b with retired := mergeHalf b.retired .high value mask }
  | .sstatus => { b with status := b.status.writeSupervisor value mask }
  | .sie => { b with interrupts := b.interrupts.writeSie value mask b.delegation }
  | .stvec => { b with stvec := b.stvec.write value mask }
  | .sip => { b with interrupts := b.interrupts.writeSip value mask b.delegation }
  | .mstatus => { b with status := b.status.write value mask }
  | .medeleg => { b with delegation := b.delegation.writeExceptions value mask }
  | .mideleg => { b with delegation := b.delegation.writeInterrupts value mask }
  | .mie => { b with interrupts := b.interrupts.writeMie value mask }
  | .mtvec => { b with mtvec := b.mtvec.write value mask }
  | .mip => { b with interrupts := b.interrupts.writeMip value mask }
  | .plain c => b.setPlain c (plainUpdate c (b.plain.get c) value mask)
  | _ => b

/-! ## Checked accesses -/

def read (b : CsrBank) (n : CsrNumber) (level : Level) : Except Exception Word :=
  match b.access n level with
  | .ok c => .ok (b.value c)
  | .error e => .error e

def writeMasked (b : CsrBank) (n : CsrNumber) (value mask : Word) (level : Level) :
    Except Exception CsrBank :=
  match b.access n level with
  | .ok c => if n.isReadOnly then .error .illegalInstruction else .ok (b.update c value mask)
  | .error e => .error e

def write (b : CsrBank) (n : CsrNumber) (value : Word) (level : Level) :
    Except Exception CsrBank :=
  b.writeMasked n value (BitVec.allOnes 32) level

/-! ## Counting -/

def retire (b : CsrBank) : CsrBank :=
  { b with retired := b.retired + 1 }

/-! ## Trap registers by level -/

def epcOf : Level → PlainCsr
  | .supervisor => .sepc
  | _ => .mepc

def causeOf : Level → PlainCsr
  | .supervisor => .scause
  | _ => .mcause

def tvalOf : Level → PlainCsr
  | .supervisor => .stval
  | _ => .mtval

def trapVector (b : CsrBank) : Level → TrapVector
  | .supervisor => b.stvec
  | _ => b.mtvec

def epc (b : CsrBank) (level : Level) : Word :=
  b.plain.get (epcOf level)

def cause (b : CsrBank) (level : Level) : Word :=
  b.plain.get (causeOf level)

def tval (b : CsrBank) (level : Level) : Word :=
  b.plain.get (tvalOf level)

/-- The bank with the resume address of the handler at `level` set, its two low bits dropped. -/
def setEpc (b : CsrBank) (level : Level) (v : Word) : CsrBank :=
  b.setPlain (epcOf level) v.alignDown

def setCause (b : CsrBank) (level : Level) (v : Word) : CsrBank :=
  b.setPlain (causeOf level) v

def setTval (b : CsrBank) (level : Level) (v : Word) : CsrBank :=
  b.setPlain (tvalOf level) v

end CsrBank

end Rv32
