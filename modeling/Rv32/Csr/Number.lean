import Rv32.Privilege
import Rv32.Word

/-!
# Control and status registers by number

The registers that exist, and their twelve-bit numbers. The number itself says
whether a register is read-only and which level an access needs at least, for
any number, whether or not a register has it.
-/

namespace Rv32

/-- A register number as an access names it. Only the values below 4096 are used. -/
abbrev CsrNumber := BitVec 16

namespace CsrNumber

def isValid (n : CsrNumber) : Bool :=
  n.toNat < 4096

/-- Whether the two bits above the level are those of a read-only register. -/
def isReadOnly (n : CsrNumber) : Bool :=
  n >>> 10 = 0b11

/-- The least level that may access the register, which may be the reserved one. -/
def requiredLevel (n : CsrNumber) : LevelField :=
  .ofBits (n.extractLsb' 8 2)

end CsrNumber

/-- Registers that only hold the value last written to them. -/
inductive PlainCsr where
  | scounteren
  | senvcfg
  | sscratch
  | sepc
  | scause
  | stval
  | satp
  | mcounteren
  | mcountinhibit
  | mscratch
  | mepc
  | mcause
  | mtval
  | menvcfg
  | menvcfgh
  | pmpcfg (i : Fin 4)
  | pmpaddr (i : Fin 16)
  deriving DecidableEq, Repr

inductive Csr where
  -- Unprivileged counters and their high halves.
  | cycle
  | time
  | instret
  | cycleh
  | timeh
  | instreth
  -- The same counters as the machine level writes them.
  | mcycle
  | minstret
  | mcycleh
  | minstreth
  -- Supervisor registers with structure.
  | sstatus
  | sie
  | stvec
  | sip
  -- Machine information.
  | mvendorid
  | marchid
  | mimpid
  | mhartid
  | mconfigptr
  -- Machine registers with structure.
  | mstatus
  | misa
  | medeleg
  | mideleg
  | mie
  | mtvec
  | mstatush
  | mip
  -- Registers without structure.
  | plain (c : PlainCsr)
  deriving DecidableEq, Repr

namespace Csr

def ofNumber? (n : CsrNumber) : Option Csr :=
  match n.toNat with
  | 0xC00 => some cycle
  | 0xC01 => some time
  | 0xC02 => some instret
  | 0xC80 => some cycleh
  | 0xC81 => some timeh
  | 0xC82 => some instreth
  | 0xB00 => some mcycle
  | 0xB02 => some minstret
  | 0xB80 => some mcycleh
  | 0xB82 => some minstreth
  | 0x100 => some sstatus
  | 0x104 => some sie
  | 0x105 => some stvec
  | 0x106 => some (plain .scounteren)
  | 0x10A => some (plain .senvcfg)
  | 0x140 => some (plain .sscratch)
  | 0x141 => some (plain .sepc)
  | 0x142 => some (plain .scause)
  | 0x143 => some (plain .stval)
  | 0x144 => some sip
  | 0x180 => some (plain .satp)
  | 0x300 => some mstatus
  | 0x301 => some misa
  | 0x302 => some medeleg
  | 0x303 => some mideleg
  | 0x304 => some mie
  | 0x305 => some mtvec
  | 0x306 => some (plain .mcounteren)
  | 0x30A => some (plain .menvcfg)
  | 0x310 => some mstatush
  | 0x31A => some (plain .menvcfgh)
  | 0x320 => some (plain .mcountinhibit)
  | 0x340 => some (plain .mscratch)
  | 0x341 => some (plain .mepc)
  | 0x342 => some (plain .mcause)
  | 0x343 => some (plain .mtval)
  | 0x344 => some mip
  | 0xF11 => some mvendorid
  | 0xF12 => some marchid
  | 0xF13 => some mimpid
  | 0xF14 => some mhartid
  | 0xF15 => some mconfigptr
  | m =>
      if h : 0x3A0 ≤ m ∧ m ≤ 0x3A3 then some (plain (.pmpcfg ⟨m - 0x3A0, by omega⟩))
      else if h : 0x3B0 ≤ m ∧ m ≤ 0x3BF then some (plain (.pmpaddr ⟨m - 0x3B0, by omega⟩))
      else none

def number : Csr → CsrNumber
  | cycle => 0xC00
  | time => 0xC01
  | instret => 0xC02
  | cycleh => 0xC80
  | timeh => 0xC81
  | instreth => 0xC82
  | mcycle => 0xB00
  | minstret => 0xB02
  | mcycleh => 0xB80
  | minstreth => 0xB82
  | sstatus => 0x100
  | sie => 0x104
  | stvec => 0x105
  | sip => 0x144
  | mvendorid => 0xF11
  | marchid => 0xF12
  | mimpid => 0xF13
  | mhartid => 0xF14
  | mconfigptr => 0xF15
  | mstatus => 0x300
  | misa => 0x301
  | medeleg => 0x302
  | mideleg => 0x303
  | mie => 0x304
  | mtvec => 0x305
  | mstatush => 0x310
  | mip => 0x344
  | plain .scounteren => 0x106
  | plain .senvcfg => 0x10A
  | plain .sscratch => 0x140
  | plain .sepc => 0x141
  | plain .scause => 0x142
  | plain .stval => 0x143
  | plain .satp => 0x180
  | plain .mcounteren => 0x306
  | plain .mcountinhibit => 0x320
  | plain .mscratch => 0x340
  | plain .mepc => 0x341
  | plain .mcause => 0x342
  | plain .mtval => 0x343
  | plain .menvcfg => 0x30A
  | plain .menvcfgh => 0x31A
  | plain (.pmpcfg i) => 0x3A0 + BitVec.ofNat 16 i.val
  | plain (.pmpaddr i) => 0x3B0 + BitVec.ofNat 16 i.val

/-- The bit of the counter-enable registers that guards the register from lower levels, if any. -/
def guardBit? : Csr → Option Nat
  | cycle => some 0
  | time => some 1
  | instret => some 2
  | cycleh => some 0
  | timeh => some 1
  | instreth => some 2
  | _ => none

end Csr

def CsrNumber.isSupported (n : CsrNumber) : Bool :=
  (Csr.ofNumber? n).isSome

end Rv32
