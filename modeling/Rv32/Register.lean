import Rv32.Word

/-!
# Integer registers

The names of the 32 integer registers and the register file of a hart: the
registers themselves and the program counter. Register zero is not stored, so
it reads as zero in every register file there is.
-/

namespace Rv32

abbrev Register := BitVec 5

namespace Register

def zero : Register := 0

/-- The register in which a self-test program leaves the number of the failing test. -/
def gp : Register := 3

/-- The register in which a self-test program leaves its verdict. -/
def a0 : Register := 10

def ofIndex? (index : Int) : Option Register :=
  if 0 ≤ index ∧ index < 32 then some (BitVec.ofNat 5 index.toNat) else none

def all : List Register :=
  (List.range 32).map (BitVec.ofNat 5)

/-- The architectural name of the register. -/
def name (r : Register) : String :=
  s!"x{r.toNat}"

/-- The name of the register in the standard calling convention. -/
def callingName (r : Register) : String :=
  match r.toNat with
  | 0 => "zero"
  | 1 => "ra"
  | 2 => "sp"
  | 3 => "gp"
  | 4 => "tp"
  | 5 => "t0"
  | 6 => "t1"
  | 7 => "t2"
  | 8 => "s0"
  | 9 => "s1"
  | n =>
      if n < 18 then s!"a{n - 10}"
      else if n < 28 then s!"s{n - 16}"
      else s!"t{n - 25}"

end Register

/-- The integer registers `x1` to `x31` and the program counter. Cell `i` holds register `i + 1`. -/
structure RegisterFile where
  cells : Vector Word 31
  pc : Word
  deriving DecidableEq

namespace RegisterFile

/-- All registers zero, with the program counter at `pc`. -/
def reset (pc : Word) : RegisterFile :=
  { cells := Vector.replicate 31 0, pc := pc }

theorem cell_bound (r : Register) : r.toNat - 1 < 31 := by
  have := r.isLt
  omega

/-- The value of register `r`. Register zero reads as zero. -/
def get (f : RegisterFile) (r : Register) : Word :=
  have := cell_bound r
  if r = Register.zero then 0 else f.cells[r.toNat - 1]

/-- The file after a write of `v` to register `r`. A write to register zero changes nothing. -/
def set (f : RegisterFile) (r : Register) (v : Word) : RegisterFile :=
  if r = Register.zero then f
  else { f with cells := f.cells.set (r.toNat - 1) v (cell_bound r) }

def jump (f : RegisterFile) (pc : Word) : RegisterFile :=
  { f with pc := pc }

def nextPc (f : RegisterFile) : Word :=
  f.pc + 4

def advance (f : RegisterFile) : RegisterFile :=
  f.jump f.nextPc

@[simp] theorem get_zero (f : RegisterFile) : f.get Register.zero = 0 := by
  simp [get]

@[simp] theorem pc_set (f : RegisterFile) (r : Register) (v : Word) : (f.set r v).pc = f.pc := by
  unfold set
  split <;> rfl

@[simp] theorem pc_jump (f : RegisterFile) (pc : Word) : (f.jump pc).pc = pc := rfl

@[simp] theorem pc_advance (f : RegisterFile) : f.advance.pc = f.pc + 4 := rfl

@[simp] theorem get_jump (f : RegisterFile) (pc : Word) (r : Register) :
    (f.jump pc).get r = f.get r := rfl

@[simp] theorem get_advance (f : RegisterFile) (r : Register) :
    f.advance.get r = f.get r := rfl

theorem get_set (f : RegisterFile) (r s : Register) (v : Word) :
    (f.set r v).get s = if s = r ∧ r ≠ Register.zero then v else f.get s := by
  by_cases hr : r = Register.zero
  · simp [set, hr]
  · by_cases hs : s = Register.zero
    · have hne : ¬ s = r := fun h => hr (h ▸ hs)
      simp [get, hr, hs]
      exact fun h => absurd (hs.trans h) hne
    · by_cases hsr : s = r
      · subst hsr
        simp [set, get, hr]
      · have hcell : ¬ r.toNat - 1 = s.toNat - 1 := by
          intro h
          apply hsr
          have hr' : r.toNat ≠ 0 := fun h => hr (BitVec.eq_of_toNat_eq h)
          have hs' : s.toNat ≠ 0 := fun h => hs (BitVec.eq_of_toNat_eq h)
          exact BitVec.eq_of_toNat_eq (by omega)
        simp [set, get, hr, hs, hsr, hcell]

end RegisterFile

end Rv32
