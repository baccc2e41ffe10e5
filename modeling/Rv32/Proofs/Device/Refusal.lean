import Rv32.Proofs.Device.Procedure

/-! # Refused accesses

Which accesses a device refuses depends on what is asked for: on direction,
offset and size, and for the framebuffer on the size of the picture. A refused
access has no effect on the device, though some accesses that it accepts do
have one also when they only read.
-/

namespace Rv32

open Procedure

/-- The bytes that are got and the device that is left. A refused read gets zeros. -/
def Access.served {ε δ : Type} (a : Access) : EStateM.Result ε δ (List Byte) → List Byte × δ
  | .ok bytes next => (bytes, next)
  | .error _ next => (a.zeros, next)

/--
A device whose accesses are made in the given steps. It refuses those that it does not accept, and
it does so before it has changed.
-/
structure RefusesFirst {ε δ : Type} [Bus δ] (steps : Access → Procedure ε δ (List Byte))
    (accepts : δ → Access → Prop) : Prop where
  served : ∀ (d : δ) (a : Access), (a.answer d, a.apply d) = a.served ((steps a).run d)
  accepted : ∀ d a, accepts d a → ∃ bytes next, (steps a).run d = .ok bytes next
  refused : ∀ d a, ¬ accepts d a →
    (∃ e, (steps a).run d = .error e d) ∧ a.answer d = a.zeros ∧ a.apply d = d

/-- It suffices that the steps make accesses which are defined as a whole. -/
theorem RefusesFirst.of {ε δ : Type} [Bus δ] {steps : Access → Procedure ε δ (List Byte)}
    {accepts : δ → Access → Prop} {outcome : δ → Access → Except ε (List Byte × δ)}
    (hperforms : ∀ a, (steps a).Performs fun d => outcome d a)
    (hserved : ∀ (d : δ) (a : Access), (a.answer d, a.apply d) = a.served (settled d (outcome d a)))
    (haccepts : ∀ d a, accepts d a ↔ ∃ r, outcome d a = .ok r) : RefusesFirst steps accepts := by
  refine { served := ?_, accepted := ?_, refused := ?_ }
  · intro d a
    rw [hserved, performs_iff.mp (hperforms a) d]
  · intro d a haccepted
    obtain ⟨⟨bytes, next⟩, hok⟩ := (haccepts d a).mp haccepted
    exact ⟨bytes, next, (hperforms a).made d bytes next hok⟩
  · intro d a hrefused
    cases hd : outcome d a with
    | ok r => exact absurd ((haccepts d a).mpr ⟨r, hd⟩) hrefused
    | error e =>
        have hzeros := hserved d a
        rw [hd] at hzeros
        exact ⟨⟨e, (hperforms a).refused d e hd⟩, congrArg Prod.fst hzeros, congrArg Prod.snd hzeros⟩

theorem exists_map_eq_ok {ε α γ : Type} {x : Except ε α} {f : α → γ} :
    (∃ r, x.map f = .ok r) ↔ ∃ v, x = .ok v := by
  cases x with
  | ok v => exact ⟨fun _ => ⟨v, rfl⟩, fun _ => ⟨f v, rfl⟩⟩
  | error e => exact ⟨fun ⟨_, h⟩ => (by cases h), fun ⟨_, h⟩ => (by cases h)⟩

theorem exists_ite_eq_ok {ε α : Type} {p : Prop} [Decidable p] {x : Except ε α} {e : ε} :
    (∃ r, (if p then x else .error e) = .ok r) ↔ p ∧ ∃ r, x = .ok r := by
  by_cases hp : p <;> simp [hp]

/-! ## The core-local interruptor -/

namespace Clint

def steps : Access → Procedure AccessError Clint (List Byte)
  | .read offset size =>
      if size = 4 ∧ offset.toNat % 4 = 0 then do
        return leBytes 4 (← look fun c => c.readWord offset)
      else if size = 8 ∧ offset.toNat % 8 = 0 then do
        return leBytes 8 (← look fun c => c.readDouble offset)
      else throw (.unsupported offset size)
  | .write offset bytes =>
      if bytes.length = 4 ∧ offset.toNat % 4 = 0 then do
        writeWordSteps offset (ofLeBytes 32 bytes)
        return []
      else if bytes.length = 8 ∧ offset.toNat % 8 = 0 then do
        writeDoubleSteps offset (ofLeBytes 64 bytes)
        return []
      else throw (.unsupported offset bytes.length)

def wordOffsets : List Nat := [0x0000, 0x4000, 0x4004, 0xBFF8, 0xBFFC]

def doubleOffsets : List Nat := [0x4000, 0xBFF8]

/-- A word of a register, or a whole register of 64 bits. -/
def Accepts (_ : Clint) (a : Access) : Prop :=
  a.size = 4 ∧ a.address.toNat ∈ wordOffsets ∨
    a.size = 8 ∧ a.address.toNat ∈ doubleOffsets

def outcome (c : Clint) : Access → Except AccessError (List Byte × Clint)
  | .read offset size => (c.fetch offset size).map fun bytes => (bytes, c)
  | .write offset bytes => (c.store offset bytes).map fun next => ([], next)

theorem performs_steps (a : Access) : (steps a).Performs fun c => c.outcome a := by
  refine performs_iff.mpr fun c => ?_
  cases a with
  | read offset size =>
      simp only [steps, outcome, fetch]
      split
      · refine (performs_iff.mp ((performs_look _).bind_pure (leBytes 4)) c).trans ?_
        cases c.readWord offset <;> rfl
      · split
        · refine (performs_iff.mp ((performs_look _).bind_pure (leBytes 8)) c).trans ?_
          cases c.readDouble offset <;> rfl
        · rfl
  | write offset bytes =>
      simp only [steps, outcome, store]
      split
      · exact performs_iff.mp ((changes_writeWord offset _).bind_pure []) c
      · split
        · exact performs_iff.mp ((changes_writeDouble offset _).bind_pure []) c
        · rfl

theorem served_outcome (c : Clint) (a : Access) :
    (a.answer c, a.apply c) = a.served (settled c (c.outcome a)) := by
  cases a with
  | read offset size =>
      simp only [outcome, Access.answer, Access.apply, Bus.read]
      cases c.fetch offset size with
      | ok bytes => rfl
      | error e => rfl
  | write offset bytes =>
      simp only [outcome, Access.answer, Access.apply, Bus.write]
      cases c.store offset bytes with
      | ok next => rfl
      | error e => rfl

theorem isSome_register_iff (offset : Word) :
    (Register.ofOffset? offset).isSome = true ↔
      offset.toNat ∈ wordOffsets := by
  unfold Register.ofOffset? wordOffsets
  split <;> simp_all

theorem isSome_wideRegister_iff (offset : Word) :
    (WideRegister.ofOffset? offset).isSome = true ↔ offset.toNat ∈ doubleOffsets := by
  unfold WideRegister.ofOffset? doubleOffsets
  split <;> simp_all

theorem exists_readWord_iff (c : Clint) (offset : Word) :
    (∃ v, c.readWord offset = .ok v) ↔
      offset.toNat ∈ wordOffsets := by
  rw [← isSome_register_iff]
  unfold readWord
  cases Register.ofOffset? offset with
  | none => simp
  | some r => cases r <;> simp

theorem exists_writeWord_iff (c : Clint) (offset v : Word) :
    (∃ next, c.writeWord offset v = .ok next) ↔
      offset.toNat ∈ wordOffsets := by
  rw [← isSome_register_iff]
  unfold writeWord
  cases Register.ofOffset? offset with
  | none => simp
  | some r => cases r <;> simp

theorem exists_readDouble_iff (c : Clint) (offset : Word) :
    (∃ v, c.readDouble offset = .ok v) ↔ offset.toNat ∈ doubleOffsets := by
  rw [← isSome_wideRegister_iff]
  unfold readDouble
  cases WideRegister.ofOffset? offset with
  | none => simp
  | some r => cases r <;> simp

theorem exists_writeDouble_iff (c : Clint) (offset : Word) (v : DoubleWord) :
    (∃ next, c.writeDouble offset v = .ok next) ↔ offset.toNat ∈ doubleOffsets := by
  rw [← isSome_wideRegister_iff]
  unfold writeDouble
  cases WideRegister.ofOffset? offset with
  | none => simp
  | some r => cases r <;> simp

/-- All registers are naturally aligned, so the check of the alignment refuses none. -/
theorem exists_sized_iff {α : Type} {offset : Word} {size : Nat} {x y : Except AccessError α}
    {e : AccessError}
    (hx : (∃ v, x = .ok v) ↔ offset.toNat ∈ wordOffsets)
    (hy : (∃ v, y = .ok v) ↔ offset.toNat ∈ doubleOffsets) :
    (∃ r, (if size = 4 ∧ offset.toNat % 4 = 0 then x
        else if size = 8 ∧ offset.toNat % 8 = 0 then y else .error e) = .ok r) ↔
      size = 4 ∧ offset.toNat ∈ wordOffsets ∨
        size = 8 ∧ offset.toNat ∈ doubleOffsets := by
  have hword (h : offset.toNat ∈ wordOffsets) :
      offset.toNat % 4 = 0 := by
    simp only [wordOffsets, List.mem_cons, List.not_mem_nil, or_false] at h
    omega
  have hdouble (h : offset.toNat ∈ doubleOffsets) : offset.toNat % 8 = 0 := by
    simp only [doubleOffsets, List.mem_cons, List.not_mem_nil, or_false] at h
    omega
  split
  · rename_i hsize
    rw [hx]
    simp [hsize.1]
  · split
    · rename_i hsize
      rw [hy]
      simp [hsize.1]
    · rename_i hnot hnot'
      constructor
      · rintro ⟨r, hr⟩
        cases hr
      · rintro (⟨hsize, h⟩ | ⟨hsize, h⟩)
        · exact absurd ⟨hsize, hword h⟩ hnot
        · exact absurd ⟨hsize, hdouble h⟩ hnot'

theorem accepts_iff (c : Clint) (a : Access) : c.Accepts a ↔ ∃ r, c.outcome a = .ok r := by
  cases a with
  | read offset size =>
      rw [outcome, exists_map_eq_ok, fetch]
      refine (exists_sized_iff ?_ ?_).symm
      · rw [exists_map_eq_ok]
        exact c.exists_readWord_iff offset
      · rw [exists_map_eq_ok]
        exact c.exists_readDouble_iff offset
  | write offset bytes =>
      rw [outcome, exists_map_eq_ok, store]
      exact (exists_sized_iff (c.exists_writeWord_iff offset _)
        (c.exists_writeDouble_iff offset _)).symm

theorem refusesFirst : RefusesFirst steps Accepts :=
  .of performs_steps served_outcome accepts_iff

end Clint

/-! ## The interrupt controller -/

namespace Plic

def steps : Access → Procedure AccessError Plic (List Byte)
  | .read offset size =>
      if isWordAccess offset size then do return leBytes 4 (← readSteps offset)
      else throw (.unsupported offset size)
  | .write offset bytes =>
      if isWordAccess offset bytes.length then do
        writeSteps offset (ofLeBytes 32 bytes)
        return []
      else throw (.unsupported offset bytes.length)

/-- The two words with the pending bits, which software cannot write. -/
def InPending (n : Nat) : Prop := 0x1000 ≤ n ∧ n < 0x1008

/--
There is a register at offset `n`: a priority, pending bits, or one of a context, which has two
words of enable bits, a threshold and a claim register.
-/
def HasRegister (n : Nat) : Prop :=
  n < 0x100 ∨ InPending n ∨
    ∃ c < 2, (0x2000 + 0x80 * c ≤ n ∧ n < 0x2008 + 0x80 * c) ∨
      n = 0x200000 + 0x1000 * c ∨ n = 0x200004 + 0x1000 * c

/-- A naturally aligned word of a register, to be read or written. -/
def Accepts (_ : Plic) : Access → Prop
  | .read offset size => size = 4 ∧ offset.toNat % 4 = 0 ∧ HasRegister offset.toNat
  | .write offset bytes =>
      bytes.length = 4 ∧ offset.toNat % 4 = 0 ∧ HasRegister offset.toNat ∧ ¬ InPending offset.toNat

def outcome (p : Plic) : Access → Except AccessError (List Byte × Plic)
  | .read offset size => (p.fetch offset size).map fun r => (leBytes 4 r.1, r.2)
  | .write offset bytes => (p.store offset bytes).map fun next => ([], next)

theorem performs_steps (a : Access) : (steps a).Performs fun p => p.outcome a := by
  refine performs_iff.mpr fun p => ?_
  cases a with
  | read offset size =>
      simp only [steps, outcome, fetch]
      split
      · exact performs_iff.mp ((performs_readWord offset).bind_pure (leBytes 4)) p
      · rfl
  | write offset bytes =>
      simp only [steps, outcome, store]
      split
      · exact performs_iff.mp ((changes_writeWord offset _).bind_pure []) p
      · rfl

theorem served_outcome (p : Plic) (a : Access) :
    (a.answer p, a.apply p) = a.served (settled p (p.outcome a)) := by
  cases a with
  | read offset size =>
      simp only [outcome, Access.answer, Access.apply, Bus.read]
      cases p.fetch offset size with
      | ok r => rfl
      | error e => rfl
  | write offset bytes =>
      simp only [outcome, Access.answer, Access.apply, Bus.write]
      cases p.store offset bytes with
      | ok next => rfl
      | error e => rfl

theorem isSome_halfOfWord?_iff (i : Nat) : (halfOfWord? i).isSome = true ↔ i < 2 := by
  unfold halfOfWord?
  split <;> simp_all
  omega

/-- There are two contexts. -/
theorem hasRegister_iff (n : Nat) :
    HasRegister n ↔
      n < 0x100 ∨ (0x1000 ≤ n ∧ n < 0x1008) ∨
        (0x2000 ≤ n ∧ n < 0x2100 ∧ n % 0x80 < 8) ∨
        0x200000 ≤ n ∧ n < 0x202000 ∧ (n % 0x1000 = 0 ∨ n % 0x1000 = 4) := by
  unfold HasRegister InPending
  constructor
  · rintro (h | h | ⟨c, hc, h⟩)
    · exact .inl h
    · exact .inr (.inl h)
    · obtain rfl | rfl : c = 0 ∨ c = 1 := by omega
      all_goals omega
  · rintro (h | h | h | h)
    · exact .inl h
    · exact .inr (.inl h)
    · exact .inr (.inr ⟨(n - 0x2000) / 0x80, by omega, by omega⟩)
    · exact .inr (.inr ⟨(n - 0x200000) / 0x1000, by omega, by omega⟩)

theorem isSome_register_iff (offset : Word) :
    (Register.ofOffset? offset).isSome = true ↔ HasRegister offset.toNat := by
  rw [hasRegister_iff]
  unfold Register.ofOffset?
  dsimp only
  split
  · rename_i hpriority
    simp [hpriority]
  · split
    · rename_i hpending
      rw [Option.isSome_map, isSome_halfOfWord?_iff]
      omega
    · split
      · rename_i henable
        rw [Option.isSome_map, isSome_halfOfWord?_iff]
        omega
      · split
        · split
          · simp only [Option.isSome_some, true_iff]
            omega
          · simp only [Option.isSome_some, true_iff]
            omega
          · rename_i hthreshold hclaim
            simp only [Option.isSome_none, Bool.false_eq_true, false_iff]
            have hneither : ¬ ((offset.toNat - 0x200000) % 0x1000 = 0 ∨
              (offset.toNat - 0x200000) % 0x1000 = 4) := by
              rintro (h | h)
              · exact hthreshold h
              · exact hclaim h
            omega
        · simp only [Option.isSome_none, Bool.false_eq_true, false_iff]
          omega

theorem pending_register_iff (offset : Word) :
    (∃ h, Register.ofOffset? offset = some (.pending h)) ↔ InPending offset.toNat := by
  unfold Register.ofOffset? InPending
  dsimp only
  split
  · simp only [Option.some.injEq, reduceCtorEq, exists_false, false_iff]
    omega
  · split
    · rename_i hpending
      have hword : ((halfOfWord? ((offset.toNat - 0x1000) / 4)).map Register.pending).isSome = true := by
        rw [Option.isSome_map, isSome_halfOfWord?_iff]
        omega
      obtain ⟨r, hr⟩ := Option.isSome_iff_exists.mp hword
      obtain ⟨h, -, rfl⟩ := Option.map_eq_some_iff.mp hr
      exact ⟨fun _ => hpending, fun _ => ⟨h, hr⟩⟩
    · rename_i hnot
      refine ⟨?_, fun h => absurd h hnot⟩
      rintro ⟨h, hr⟩
      split at hr
      · obtain ⟨k, -, hk⟩ := Option.map_eq_some_iff.mp hr
        cases hk
      · split at hr
        · split at hr
          all_goals cases hr
        · cases hr

theorem exists_readWord_iff (p : Plic) (offset : Word) :
    (∃ r, p.readWord offset = .ok r) ↔ HasRegister offset.toNat := by
  rw [← isSome_register_iff]
  unfold readWord
  cases Register.ofOffset? offset with
  | none => simp
  | some r => cases r <;> simp

theorem exists_writeWord_iff (p : Plic) (offset v : Word) :
    (∃ next, p.writeWord offset v = .ok next) ↔
      HasRegister offset.toNat ∧ ¬ InPending offset.toNat := by
  rw [← isSome_register_iff, ← pending_register_iff]
  unfold writeWord
  cases Register.ofOffset? offset with
  | none => simp
  | some r =>
      cases r with
      | priority s => by_cases hs : s = 0 <;> simp [hs]
      | _ => simp

theorem accepts_iff (p : Plic) (a : Access) : p.Accepts a ↔ ∃ r, p.outcome a = .ok r := by
  cases a with
  | read offset size =>
      rw [outcome, exists_map_eq_ok, fetch, exists_ite_eq_ok, exists_readWord_iff]
      simp [Accepts, isWordAccess, and_assoc]
  | write offset bytes =>
      rw [outcome, exists_map_eq_ok, store, exists_ite_eq_ok, exists_writeWord_iff]
      simp [Accepts, isWordAccess, and_assoc]

theorem refusesFirst : RefusesFirst steps Accepts :=
  .of performs_steps served_outcome accepts_iff

end Plic

/-! ## The UART -/

namespace Uart

def steps : Access → Procedure AccessError Uart (List Byte)
  | .read _ 0 => return []
  | .read address (rest + 1) => do return (← readSteps (registerOffset address)) :: zeroBytes rest
  | .write _ [] => return []
  | .write address (b :: _) => do
      writeSteps (registerOffset address) b
      return []

/--
An access to one of the eight registers, of which the two with the line and the modem status cannot
be written. An access without bytes asks for nothing, which is not refused.
-/
def Accepts (_ : Uart) : Access → Prop
  | .read address size => size = 0 ∨ address.toNat % 256 < 8
  | .write address bytes =>
      bytes = [] ∨ address.toNat % 256 < 8 ∧ address.toNat % 256 ≠ 5 ∧ address.toNat % 256 ≠ 6

def outcome (u : Uart) : Access → Except AccessError (List Byte × Uart)
  | .read _ 0 => .ok ([], u)
  | .read address (rest + 1) =>
      (u.readRegister (registerOffset address)).map fun r => (r.1 :: zeroBytes rest, r.2)
  | .write _ [] => .ok ([], u)
  | .write address (b :: _) =>
      (u.writeRegister (registerOffset address) b).map fun next => ([], next)

theorem performs_steps (a : Access) : (steps a).Performs fun u => u.outcome a := by
  refine performs_iff.mpr fun u => ?_
  cases a with
  | read address size =>
      cases size with
      | zero => rfl
      | succ rest =>
          exact performs_iff.mp
            ((performs_readRegister _).bind_pure fun b => b :: zeroBytes rest) u
  | write address bytes =>
      cases bytes with
      | nil => rfl
      | cons b rest => exact performs_iff.mp ((changes_writeRegister _ b).bind_pure []) u

theorem served_outcome (u : Uart) (a : Access) :
    (a.answer u, a.apply u) = a.served (settled u (u.outcome a)) := by
  cases a with
  | read address size =>
      cases size with
      | zero => rfl
      | succ rest =>
          simp only [outcome, Access.answer, Access.apply, Bus.read]
          cases u.readRegister (registerOffset address) with
          | ok r => rfl
          | error e => rfl
  | write address bytes =>
      cases bytes with
      | nil => rfl
      | cons b rest =>
          simp only [outcome, Access.answer, Access.apply, Bus.write]
          cases u.writeRegister (registerOffset address) b with
          | ok next => rfl
          | error e => rfl

theorem toNat_registerOffset (address : Word) :
    (registerOffset address).toNat = address.toNat % 256 := by
  simp only [registerOffset, BitVec.toNat_setWidth]
  omega

theorem exists_readRegister_iff (u : Uart) (offset : Word) :
    (∃ r, u.readRegister offset = .ok r) ↔ offset.toNat < 8 := by
  unfold readRegister
  split
  case h_12 =>
    simp only [reduceCtorEq, exists_false, false_iff]
    cases hselected : u.divisorSelected
    all_goals grind
  all_goals simp_all

theorem exists_writeRegister_iff (u : Uart) (offset : Word) (v : Byte) :
    (∃ next, u.writeRegister offset v = .ok next) ↔
      offset.toNat < 8 ∧ offset.toNat ≠ 5 ∧ offset.toNat ≠ 6 := by
  unfold writeRegister
  split
  case h_12 =>
    simp only [reduceCtorEq, exists_false, false_iff]
    cases hselected : u.divisorSelected
    all_goals grind
  all_goals simp_all

theorem accepts_iff (u : Uart) (a : Access) : u.Accepts a ↔ ∃ r, u.outcome a = .ok r := by
  cases a with
  | read address size =>
      cases size with
      | zero => simp [Accepts, outcome]
      | succ rest =>
          rw [outcome, exists_map_eq_ok, exists_readRegister_iff, toNat_registerOffset]
          simp [Accepts]
  | write address bytes =>
      cases bytes with
      | nil => simp [Accepts, outcome]
      | cons b rest =>
          rw [outcome, exists_map_eq_ok, exists_writeRegister_iff, toNat_registerOffset]
          simp [Accepts]

theorem refusesFirst : RefusesFirst steps Accepts :=
  .of performs_steps served_outcome accepts_iff

end Uart

/-! ## The framebuffer -/

namespace Frame

def steps : Access → Procedure AccessError Frame (List Byte)
  | .read offset size => look fun f => f.read offset size
  | .write offset bytes => do
      writeSteps offset bytes
      return []

/-- An access to bytes of the picture. -/
def Accepts (f : Frame) (a : Access) : Prop :=
  a.address.toNat + a.size ≤ 4 * (f.width * f.height)

def outcome (f : Frame) : Access → Except AccessError (List Byte × Frame)
  | .read offset size => (f.read offset size).map fun bytes => (bytes, f)
  | .write offset bytes => (f.write offset bytes).map fun next => ([], next)

theorem performs_steps (a : Access) : (steps a).Performs fun f => f.outcome a := by
  cases a with
  | read offset size => exact performs_look _
  | write offset bytes => exact (changes_write offset bytes).bind_pure []

theorem served_outcome (f : Frame) (a : Access) :
    (a.answer f, a.apply f) = a.served (settled f (f.outcome a)) := by
  cases a with
  | read offset size =>
      simp only [outcome, Access.answer, Access.apply, Bus.read]
      cases f.read offset size with
      | ok bytes => rfl
      | error e => rfl
  | write offset bytes =>
      simp only [outcome, Access.answer, Access.apply, Bus.write]
      cases f.write offset bytes with
      | ok next => rfl
      | error e => rfl

theorem accepts_iff (f : Frame) (a : Access) : f.Accepts a ↔ ∃ r, f.outcome a = .ok r := by
  cases a with
  | read offset size =>
      rw [outcome, exists_map_eq_ok, read, exists_ite_eq_ok]
      simp [Accepts, Access.address, Access.size, byteCount, pixelCount]
  | write offset bytes =>
      rw [outcome, exists_map_eq_ok, write, exists_ite_eq_ok]
      simp [Accepts, Access.address, Access.size, byteCount, pixelCount]

theorem refusesFirst : RefusesFirst steps Accepts :=
  .of performs_steps served_outcome accepts_iff

end Frame

/-! ## All devices -/

/--
In any state each of the four devices refuses an access exactly if it asks for something that the
device does not have: a wrong size, a misaligned or unmapped offset, a register that cannot be
written, or bytes outside the picture. The refusal comes before the first change. So the device is
what it was, with the console that it is connected to, and a read among these accesses gets zeros.
The same is true of accesses to single registers that do not come over the bus. Those that only
look at a device have no part in this.
-/
theorem refused_access_changes_nothing :
    (RefusesFirst Clint.steps Clint.Accepts ∧
      (∀ offset v, (Clint.writeWordSteps offset v).Changes fun c => c.writeWord offset v) ∧
      ∀ offset v, (Clint.writeDoubleSteps offset v).Changes fun c => c.writeDouble offset v) ∧
    (RefusesFirst Plic.steps Plic.Accepts ∧
      (∀ offset, (Plic.readSteps offset).Performs fun p => p.readWord offset) ∧
      ∀ offset v, (Plic.writeSteps offset v).Changes fun p => p.writeWord offset v) ∧
    (RefusesFirst Uart.steps Uart.Accepts ∧
      (∀ offset, (Uart.readSteps offset).Performs fun u => u.readRegister offset) ∧
      ∀ offset v, (Uart.writeSteps offset v).Changes fun u => u.writeRegister offset v) ∧
    RefusesFirst Frame.steps Frame.Accepts ∧
      ∀ offset bytes, (Frame.writeSteps offset bytes).Changes fun f => f.write offset bytes :=
  ⟨⟨Clint.refusesFirst, Clint.changes_writeWord, Clint.changes_writeDouble⟩,
    ⟨Plic.refusesFirst, Plic.performs_readWord, Plic.changes_writeWord⟩,
    ⟨Uart.refusesFirst, Uart.performs_readRegister, Uart.changes_writeRegister⟩,
    Frame.refusesFirst, Frame.changes_write⟩

end Rv32
