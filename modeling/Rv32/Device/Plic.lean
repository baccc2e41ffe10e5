import Rv32.Bus
import Rv32.Numeral

/-!
# The platform-level interrupt controller

Sixty-three level-triggered interrupt sources and two contexts that handle
them, one for machine mode and one for supervisor mode. A source is pending
while its line is high and no handler is serving it. A context claims the
pending source of highest priority and completes it when it has been served.
-/

namespace Rv32

/-- A set of interrupt sources: bit `s` is set for every member `s`. -/
abbrev SourceSet := BitVec 64

namespace SourceSet

def put (set : SourceSet) (s : Fin 64) (member : Bool) : SourceSet :=
  if member then set ||| BitVec.twoPow 64 s.val else set &&& ~~~ BitVec.twoPow 64 s.val

def has (set : SourceSet) (s : Fin 64) : Bool :=
  set.getLsbD s.val

theorem has_put (set : SourceSet) (s t : Fin 64) (member : Bool) :
    (put set s member).has t = if s = t then member else has set t := by
  have hs := s.isLt
  have ht := t.isLt
  by_cases h : s = t
  · subst h
    cases member <;> simp [put, has, hs]
  · have hval : ¬ (s : Nat) = t := fun he => h (Fin.ext he)
    have hval' : ¬ (t : Nat) = s := fun he => hval he.symm
    cases member <;> simp [put, has, h, hval', ht]

end SourceSet

/-- The interrupt controller. A source is in service from its claim to its completion, and its
priority has to exceed the threshold of a context to interrupt it. -/
structure Plic where
  priorities : Vector (Fin 8) 64
  levels : SourceSet
  pending : SourceSet
  inService : SourceSet
  enabled : Vector SourceSet 2
  thresholds : Vector (Fin 8) 2
  deriving DecidableEq

namespace Plic

inductive AccessError where
  | unsupported (offset : Word) (size : Nat)
  | readOnly (offset : Word)
  | unmapped (offset : Word)
  deriving DecidableEq, Repr

def AccessError.message : AccessError → String
  | unsupported offset size =>
      let offset := Numeral.hex offset.toNat
      s!"misaligned or non-word access of {size} bytes at offset {offset}"
  | readOnly offset =>
      let offset := Numeral.hex offset.toNat
      s!"cannot write to read-only register at offset {offset}"
  | unmapped offset =>
      let offset := Numeral.hex offset.toNat
      s!"no register mapped to offset {offset}"

inductive Register where
  | priority (source : Fin 64)
  | pending (h : Half)
  | enable (context : Fin 2) (h : Half)
  | threshold (context : Fin 2)
  | claim (context : Fin 2)
  deriving DecidableEq, Repr

/-- The half of a source set that word number `i` holds, if there is such a word. -/
def halfOfWord? (i : Nat) : Option Half :=
  match i with
  | 0 => some .low
  | 1 => some .high
  | _ => none

/-- The register that an offset lies in, if any. The offset may point into its middle. -/
def Register.ofOffset? (offset : Word) : Option Register :=
  let n := offset.toNat
  if h : n < 0x100 then some (.priority ⟨n / 4, by omega⟩)
  else if 0x1000 ≤ n ∧ n < 0x1008 then (halfOfWord? ((n - 0x1000) / 4)).map .pending
  else if h : 0x2000 ≤ n ∧ n < 0x2100 then
    (halfOfWord? ((n - 0x2000) % 0x80 / 4)).map (.enable ⟨(n - 0x2000) / 0x80, by omega⟩)
  else if h : 0x200000 ≤ n ∧ n < 0x202000 then
    let context : Fin 2 := ⟨(n - 0x200000) / 0x1000, by omega⟩
    match (n - 0x200000) % 0x1000 with
    | 0 => some (.threshold context)
    | 4 => some (.claim context)
    | _ => none
  else none

/-- The controller after reset: no priorities, and nothing enabled. -/
def reset : Plic :=
  { priorities := Vector.replicate 64 0
    levels := 0
    pending := 0
    inService := 0
    enabled := Vector.replicate 2 0
    thresholds := Vector.replicate 2 0 }

/-- The source with the given number, unless it is zero, which stands for none. -/
def source? (n : Nat) : Option (Fin 64) :=
  if h : 0 < n ∧ n < 64 then some ⟨n, h.2⟩ else none

def context? (n : Nat) : Option (Fin 2) :=
  if h : n < 2 then some ⟨n, h⟩ else none

/-- The priority nearest to `v`: larger values count as the highest one. -/
def clampPriority (v : Word) : Fin 8 :=
  ⟨min v.toNat 7, by omega⟩

/-- The controller after the line of source number `n` has been set to `level`. -/
def setLevel (p : Plic) (n : Nat) (level : Bool) : Plic :=
  match source? n with
  | none => p
  | some s =>
      { p with
        levels := p.levels.put s level
        pending := p.pending.put s (level && !p.inService.has s) }

def isPending (p : Plic) (n : Nat) : Bool :=
  if h : n < 64 then p.pending.has ⟨n, h⟩ else false

/-! ## Claims -/

def isClaimable (p : Plic) (c : Fin 2) (s : Fin 64) : Bool :=
  p.pending.has s && p.enabled[c].has s && decide (p.thresholds[c] < p.priorities[s])

/-- The better of two sources: the first one, unless the second has a higher priority. -/
def better (p : Plic) (best : Option (Fin 64)) (s : Fin 64) : Option (Fin 64) :=
  match best with
  | none => some s
  | some b => if p.priorities[b] < p.priorities[s] then some s else some b

/-- The claimable source of highest priority for context `c`, the lowest of several equal ones. -/
def candidate? (p : Plic) (c : Fin 2) : Option (Fin 64) :=
  ((List.finRange 64).filter (p.isClaimable c)).foldl p.better none

def contextLine (p : Plic) (n : Nat) : Bool :=
  match context? n with
  | none => false
  | some c => (p.candidate? c).isSome

/-- The claim of context number `n`: the source, or zero when there is none, and what is left. -/
def claim (p : Plic) (n : Nat) : Word × Plic :=
  match (context? n).bind p.candidate? with
  | none => (0, p)
  | some s =>
      (BitVec.ofNat 32 s.val,
        { p with pending := p.pending.put s false, inService := p.inService.put s true })

def claimNotices (p : Plic) (n : Nat) : List Message :=
  match (context? n).bind p.candidate? with
  | none => []
  | some s => [⟨.debug, s!"plic: context {n} claimed source {s.val}"⟩]

/-- The controller after source number `n` has been served. It may be pending again at once. -/
def complete (p : Plic) (n : Nat) : Plic :=
  match source? n with
  | none => p
  | some s =>
      if p.inService.has s then
        { p with
          inService := p.inService.put s false
          pending := p.pending.put s (p.levels.has s) }
      else p

/-! ## Register accesses -/

def readWord (p : Plic) (offset : Word) : Except AccessError (Word × Plic) :=
  match Register.ofOffset? offset with
  | some (.priority s) => .ok (BitVec.ofNat 32 p.priorities[s].val, p)
  | some (.pending h) => .ok (DoubleWord.half p.pending h, p)
  | some (.enable c h) => .ok (DoubleWord.half p.enabled[c] h, p)
  | some (.threshold c) => .ok (BitVec.ofNat 32 p.thresholds[c].val, p)
  | some (.claim c) => .ok (p.claim c.val)
  | none => .error (.unmapped offset)

def readWordNotices (p : Plic) (offset : Word) : List Message :=
  match Register.ofOffset? offset with
  | some (.claim c) => p.claimNotices c.val
  | _ => []

/-- The part of an enable word that can be written: source zero does not exist. -/
def enableBits (h : Half) (v : Word) : Word :=
  match h with
  | .low => v &&& ~~~1#32
  | .high => v

def writeWord (p : Plic) (offset v : Word) : Except AccessError Plic :=
  match Register.ofOffset? offset with
  | some (.priority s) =>
      if s = 0 then .ok p
      else .ok { p with priorities := p.priorities.set s.val (clampPriority v) }
  | some (.pending _) => .error (.readOnly offset)
  | some (.enable c h) =>
      let set := DoubleWord.withHalf p.enabled[c] h (enableBits h v)
      .ok { p with enabled := p.enabled.set c.val set }
  | some (.threshold c) => .ok { p with thresholds := p.thresholds.set c.val (clampPriority v) }
  | some (.claim _) => .ok (p.complete v.toNat)
  | none => .error (.unmapped offset)

/-! ## Bus accesses -/

/-- Whether an access of `size` bytes at `offset` is that of a naturally aligned word. -/
def isWordAccess (offset : Word) (size : Nat) : Bool :=
  size = 4 && offset.toNat % 4 = 0

/-- The word that a bus read gets, and the controller after the read. -/
def fetch (p : Plic) (offset : Word) (size : Nat) : Except AccessError (Word × Plic) :=
  if isWordAccess offset size then p.readWord offset else .error (.unsupported offset size)

/-- The controller after a bus write. -/
def store (p : Plic) (offset : Word) (bytes : List Byte) : Except AccessError Plic :=
  if isWordAccess offset bytes.length then p.writeWord offset (ofLeBytes 32 bytes)
  else .error (.unsupported offset bytes.length)

instance : AudibleBus Plic where
  read p offset size :=
    match p.fetch offset size with
    | .ok (v, p) => (leBytes 4 v, p)
    | .error _ => (zeroBytes size, p)
  write p offset bytes :=
    match p.store offset bytes with
    | .ok p => p
    | .error _ => p
  readNotices p offset size :=
    match p.fetch offset size with
    | .ok _ => p.readWordNotices offset
    | .error e => [⟨.warn, s!"plic: read: {e.message}"⟩]
  writeNotices p offset bytes :=
    match p.store offset bytes with
    | .ok _ => []
    | .error e => [⟨.warn, s!"plic: write: {e.message}"⟩]

end Plic

end Rv32
