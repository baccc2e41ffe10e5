import Rv32.Proofs.Hart.Reachable

/-! # A pending register that is stored

`Interrupts` keeps what drives each bit of `mip` and computes the register from
it. A hart can as well store the register and change it one bit at a time, with
the two sources of the supervisor external interrupt beside it and the bit for
them set anew whenever one of the two changes. Every run of operations leaves
both forms with the same sources and the same registers, so the stored register
has no bit outside its mask either, and the same interrupt is chosen.
-/

namespace Rv32

def DeviceLine.interrupt : DeviceLine → Interrupt
  | machineExternal => .machineExternal
  | supervisorExternal => .supervisorExternal
  | machineTimer => .machineTimer
  | machineSoftware => .machineSoftware

/-! ## The stored form -/

/-- The registers as they are stored, sixteen bits wide, and the sources of one bit of `mip`. -/
structure StoredInterrupts where
  seipLine : Bool
  seipSoftware : Bool
  mip : BitVec 16
  mie : BitVec 16

namespace StoredInterrupts

def initial : StoredInterrupts :=
  { seipLine := false, seipSoftware := false, mip := 0, mie := 0 }

def writableMask : BitVec 16 := 0x222

def put (c : StoredInterrupts) (i : Interrupt) (level : Bool) : StoredInterrupts :=
  { c with mip := withBit i.code level c.mip }

def updateSeip (c : StoredInterrupts) : StoredInterrupts :=
  c.put .supervisorExternal (c.seipLine || c.seipSoftware)

def drive (c : StoredInterrupts) (line : DeviceLine) (level : Bool) : StoredInterrupts :=
  match line with
  | .supervisorExternal => { c with seipLine := level }.updateSeip
  | line => c.put line.interrupt level

def clearPending (c : StoredInterrupts) (i : Interrupt) : StoredInterrupts :=
  let sources :=
    if i.code = 9 then { c with seipSoftware := false, seipLine := false } else c
  sources.put i false

/-- One bit of a write to the pending register, for an interrupt without hidden sources. -/
def writeBit (c : StoredInterrupts) (value mask : BitVec 16) (i : Interrupt) : StoredInterrupts :=
  if mask.getLsbD i.code then c.put i (value.getLsbD i.code) else c

def writeMip (c : StoredInterrupts) (value mask : Word) : StoredInterrupts :=
  let written := mask.setWidth 16 &&& writableMask
  let bits := value.setWidth 16
  let external :=
    if written.getLsbD 9 then { c with seipSoftware := bits.getLsbD 9 }.updateSeip else c
  [.supervisorTimer, .supervisorSoftware].foldl (fun c i => c.writeBit bits written i) external

def writeMie (c : StoredInterrupts) (value mask : Word) : StoredInterrupts :=
  let written := mask.setWidth 16 &&& 0xAAA
  { c with mie := (c.mie &&& ~~~written) ||| (value.setWidth 16 &&& written) }

def writeSip (c : StoredInterrupts) (value mask : Word) (d : Delegation) : StoredInterrupts :=
  c.writeMip value (mask &&& d.interrupts &&& Interrupts.supervisorPendingMask)

def writeSie (c : StoredInterrupts) (value mask : Word) (d : Delegation) : StoredInterrupts :=
  c.writeMie value (mask &&& d.interrupts)

def readMip (c : StoredInterrupts) : Word :=
  c.mip.setWidth 32

def readMie (c : StoredInterrupts) : Word :=
  c.mie.setWidth 32

def next? (c : StoredInterrupts) (level : Level) (status : Status) (d : Delegation) :
    Option Interrupt :=
  let pending := c.readMip &&& c.readMie
  Interrupts.priority.find? fun i =>
    decide (pending &&& (1#32 <<< i.code) ≠ 0#32) && Interrupts.accepts level status d i

end StoredInterrupts

/-! ## Runs of operations -/

inductive InterruptOperation where
  | drive (line : DeviceLine) (level : Bool)
  | clearPending (i : Interrupt)
  | writeMip (value mask : Word)
  | writeMie (value mask : Word)
  | writeSip (value mask : Word) (d : Delegation)
  | writeSie (value mask : Word) (d : Delegation)

def Interrupts.after (s : Interrupts) : InterruptOperation → Interrupts
  | .drive line level => s.drive line level
  | .clearPending i => s.clearPending i
  | .writeMip value mask => s.writeMip value mask
  | .writeMie value mask => s.writeMie value mask
  | .writeSip value mask d => s.writeSip value mask d
  | .writeSie value mask d => s.writeSie value mask d

def Interrupts.play (s : Interrupts) (ops : List InterruptOperation) : Interrupts :=
  ops.foldl Interrupts.after s

namespace StoredInterrupts

def after (c : StoredInterrupts) : InterruptOperation → StoredInterrupts
  | .drive line level => c.drive line level
  | .clearPending i => c.clearPending i
  | .writeMip value mask => c.writeMip value mask
  | .writeMie value mask => c.writeMie value mask
  | .writeSip value mask d => c.writeSip value mask d
  | .writeSie value mask d => c.writeSie value mask d

def play (c : StoredInterrupts) (ops : List InterruptOperation) : StoredInterrupts :=
  ops.foldl StoredInterrupts.after c

/-! ## One bit -/

/-- Both forms have the same sources, and reading gives the same registers. -/
structure Shows (c : StoredInterrupts) (s : Interrupts) : Prop where
  seipLine : c.seipLine = s.seipLine
  seipSoftware : c.seipSoftware = s.seipSoftware
  mip : c.readMip = s.mip
  mie : c.readMie = s.mie

variable {c : StoredInterrupts} {s t : Interrupts}

/-- A change of one stored bit shows a change of one interrupt. -/
theorem readMip_put {i : Interrupt} {level : Bool} (hmip : c.readMip = s.mip)
    (hself : t.isPending i = level) (hother : ∀ j, j ≠ i → t.isPending j = s.isPending j) :
    (c.put i level).readMip = t.mip := by
  apply BitVec.eq_of_getLsbD_eq
  intro k hk
  have hwidth : i.code < 16 := Nat.lt_trans i.code_lt (by decide)
  change ((withBit i.code level c.mip).setWidth 32).getLsbD k = t.mip.getLsbD k
  rw [getLsbD_setWidth_of_lt _ hk, getLsbD_withBit c.mip hwidth]
  by_cases hcode : k = i.code
  · rw [if_pos hcode, hcode, Interrupts.getLsbD_mip_code, hself]
  · rw [if_neg hcode, ← getLsbD_setWidth_of_lt c.mip hk, ← readMip, hmip]
    refine (Interrupts.getLsbD_mip_congr ?_).symm
    rintro j rfl
    exact hother j fun hj => hcode (congrArg Interrupt.code hj)

/-- The sources are those of `t` already, and the bit is the last thing to be set. -/
theorem shows_put {i : Interrupt} {level : Bool} (hline : c.seipLine = t.seipLine)
    (hsoftware : c.seipSoftware = t.seipSoftware) (hmie : c.readMie = t.mie)
    (hmip : c.readMip = s.mip) (hself : t.isPending i = level)
    (hother : ∀ j, j ≠ i → t.isPending j = s.isPending j) : (c.put i level).Shows t :=
  { seipLine := hline
    seipSoftware := hsoftware
    mip := readMip_put hmip hself hother
    mie := hmie }

/-! ## One operation -/

theorem isPending_drive_of_ne (s : Interrupts) (line : DeviceLine) (level : Bool) {j : Interrupt}
    (hj : j ≠ line.interrupt) : (s.drive line level).isPending j = s.isPending j := by
  cases line <;> cases j <;> first | rfl | exact absurd rfl hj

theorem Shows.drive (h : c.Shows s) (line : DeviceLine) (level : Bool) :
    (c.drive line level).Shows (s.drive line level) := by
  have hother (j : Interrupt) (hj : j ≠ line.interrupt) :
      (s.drive line level).isPending j = s.isPending j := isPending_drive_of_ne s line level hj
  cases line with
  | supervisorExternal =>
      have hseip : (level || s.seipSoftware) = (level || c.seipSoftware) := by
        rw [h.seipSoftware]
      exact shows_put rfl h.seipSoftware h.mie h.mip hseip hother
  | _ => exact shows_put h.seipLine h.seipSoftware h.mie h.mip rfl hother

theorem Shows.clearPending (h : c.Shows s) (i : Interrupt) :
    (c.clearPending i).Shows (s.clearPending i) := by
  have hself := s.isPending_clearPending_self i
  have hother (j : Interrupt) (hj : j ≠ i) : (s.clearPending i).isPending j = s.isPending j :=
    s.isPending_clearPending_of_ne hj.symm
  cases i with
  | supervisorExternal => exact shows_put rfl rfl h.mie h.mip hself hother
  | _ => exact shows_put h.seipLine h.seipSoftware h.mie h.mip hself hother

/-- The software-written source of the supervisor external interrupt, if it is written. -/
theorem Shows.writeSource (h : c.Shows s) (written level : Bool) :
    (if written then { c with seipSoftware := level }.updateSeip else c).Shows
      { s with seipSoftware := if written then level else s.seipSoftware } := by
  cases written with
  | false => exact h
  | true =>
      have hseip : (s.seipLine || level) = (c.seipLine || level) := by rw [h.seipLine]
      refine shows_put h.seipLine rfl h.mie h.mip hseip ?_
      intro j hj
      cases j <;> first | rfl | exact absurd rfl hj

/-- An interrupt that software writes and that has no hidden source. -/
theorem Shows.writeBit (h : c.Shows s) (value mask : BitVec 16) {i : Interrupt}
    (hsources : t.seipLine = s.seipLine ∧ t.seipSoftware = s.seipSoftware ∧ t.mie = s.mie)
    (hself : t.isPending i =
      if mask.getLsbD i.code then value.getLsbD i.code else s.isPending i)
    (hother : ∀ j, j ≠ i → t.isPending j = s.isPending j) :
    (c.writeBit value mask i).Shows t := by
  obtain ⟨hline, hsoftware, hmie⟩ := hsources
  have hlines := h.seipLine.trans hline.symm
  have hbits := h.seipSoftware.trans hsoftware.symm
  have henabled := h.mie.trans hmie.symm
  unfold StoredInterrupts.writeBit
  split at hself
  · rename_i hmask
    rw [if_pos hmask]
    exact shows_put hlines hbits henabled h.mip hself hother
  · rename_i hmask
    rw [if_neg hmask]
    refine { seipLine := hlines, seipSoftware := hbits, mip := h.mip.trans ?_, mie := henabled }
    apply BitVec.eq_of_getLsbD_eq
    intro k _
    refine (Interrupts.getLsbD_mip_congr ?_).symm
    intro j _
    by_cases hj : j = i
    · rw [hj, hself]
    · exact hother j hj

/-- The mask of a write lets the bits of the supervisor through. -/
theorem getLsbD_written (mask : Word) {k : Nat} (hk : writableMask.getLsbD k = true) :
    (mask.setWidth 16 &&& writableMask).getLsbD k = mask.getLsbD k := by
  rw [BitVec.getLsbD_and, hk, Bool.and_true, getLsbD_setWidth_of_lt _ (BitVec.lt_of_getLsbD hk)]

/-- The three bits of a write are set one after the other. -/
theorem Shows.writeMip (h : c.Shows s) (value mask : Word) :
    (c.writeMip value mask).Shows (s.writeMip value mask) := by
  have hbit (k : Nat) (hk : writableMask.getLsbD k = true) (old : Bool) :
      (if mask.getLsbD k then value.getLsbD k else old) =
        if (mask.setWidth 16 &&& writableMask).getLsbD k then (value.setWidth 16).getLsbD k
        else old := by
    rw [getLsbD_written mask hk, getLsbD_setWidth_of_lt value (BitVec.lt_of_getLsbD hk)]
  have hsource := h.writeSource ((mask.setWidth 16 &&& writableMask).getLsbD 9)
    ((value.setWidth 16).getLsbD 9)
  rw [← hbit 9 rfl] at hsource
  let timerWritten : Interrupts :=
    { s with
      seipSoftware := if mask.getLsbD 9 then value.getLsbD 9 else s.seipSoftware
      stip := if mask.getLsbD 5 then value.getLsbD 5 else s.stip }
  have htimer := hsource.writeBit (t := timerWritten) (i := .supervisorTimer)
    (value.setWidth 16) (mask.setWidth 16 &&& writableMask) ⟨rfl, rfl, rfl⟩ (hbit 5 rfl _) (by
      intro j hj
      cases j <;> first | rfl | exact absurd rfl hj)
  refine htimer.writeBit (i := .supervisorSoftware) _ _ ⟨rfl, rfl, rfl⟩ (hbit 1 rfl _) ?_
  intro j hj
  cases j <;> first | rfl | exact absurd rfl hj

theorem Shows.writeSip (h : c.Shows s) (value mask : Word) (d : Delegation) :
    (c.writeSip value mask d).Shows (s.writeSip value mask d) :=
  h.writeMip value _

/-- The mask has no bit above those that are stored. -/
theorem Shows.writeMie (h : c.Shows s) (value mask : Word) :
    (c.writeMie value mask).Shows (s.writeMie value mask) := by
  have hmask : Interrupts.enableMask = (0xAAA : BitVec 16).setWidth 32 := by decide
  refine { h with mie := ?_ }
  apply BitVec.eq_of_getLsbD_eq
  intro k hk
  change (StoredInterrupts.readMie _).getLsbD k = (Word.merge s.mie value _).getLsbD k
  rw [Word.getLsbD_merge, ← h.mie, readMie, readMie, getLsbD_setWidth_of_lt _ hk,
    getLsbD_setWidth_of_lt _ hk, BitVec.getLsbD_and, hmask, getLsbD_setWidth_of_lt _ hk]
  simp only [StoredInterrupts.writeMie, BitVec.getLsbD_or, BitVec.getLsbD_and, BitVec.getLsbD_not]
  by_cases hwidth : k < 16
  · rw [getLsbD_setWidth_of_lt _ hwidth, getLsbD_setWidth_of_lt _ hwidth, decide_eq_true hwidth,
      Bool.true_and]
    cases mask.getLsbD k && (0xAAA : BitVec 16).getLsbD k <;> simp
  · have hclear (x : BitVec 16) : x.getLsbD k = false :=
      BitVec.getLsbD_of_ge x k (Nat.le_of_not_lt hwidth)
    simp [hclear]

theorem Shows.writeSie (h : c.Shows s) (value mask : Word) (d : Delegation) :
    (c.writeSie value mask d).Shows (s.writeSie value mask d) :=
  h.writeMie value _

/-! ## Runs -/

theorem Shows.after (h : c.Shows s) (op : InterruptOperation) : (c.after op).Shows (s.after op) := by
  cases op with
  | drive line level => exact h.drive line level
  | clearPending i => exact h.clearPending i
  | writeMip value mask => exact h.writeMip value mask
  | writeMie value mask => exact h.writeMie value mask
  | writeSip value mask d => exact h.writeSip value mask d
  | writeSie value mask d => exact h.writeSie value mask d

theorem Shows.play (h : c.Shows s) (ops : List InterruptOperation) :
    (c.play ops).Shows (s.play ops) := by
  induction ops generalizing c s with
  | nil => exact h
  | cons op rest ih => exact ih (h.after op)

theorem shows_initial : initial.Shows .reset :=
  { seipLine := rfl, seipSoftware := rfl, mip := by decide, mie := rfl }

/-- From reset on both forms agree after every run. -/
theorem shows_play (ops : List InterruptOperation) :
    (initial.play ops).Shows (Interrupts.reset.play ops) :=
  shows_initial.play ops

/-! ## What the stored register holds -/

/-- The form in which the registers are kept makes no difference to the choice. -/
theorem Shows.next?_eq (h : c.Shows s) (level : Level) (status : Status) (d : Delegation) :
    c.next? level status d = s.next? level status d := by
  have hdue (i : Interrupt) :
      (decide ((c.readMip &&& c.readMie) &&& (1#32 <<< i.code) ≠ 0#32)) =
        (s.isPending i && s.isEnabled i) := by
    have hcode : i.code < 32 := Nat.lt_trans i.code_lt (by decide)
    rw [Bool.eq_iff_iff, decide_eq_true_iff, and_bit_ne_zero_iff _ hcode, BitVec.getLsbD_and,
      h.mip, h.mie, Interrupts.getLsbD_mip_code]
    rfl
  unfold StoredInterrupts.next? Interrupts.next?
  simp only [hdue]
  rfl

/-- What the mask of the stored register lets through, and what its composed bit shows. -/
structure Legal (c : StoredInterrupts) : Prop where
  mip : c.readMip.Within 0xAAA
  seip : c.mip.getLsbD 9 = (c.seipLine || c.seipSoftware)

theorem Shows.legal (h : c.Shows s) : c.Legal := by
  refine { mip := ?_, seip := ?_ }
  · rw [h.mip]
    exact s.within_mip
  · have hbit : s.mip.getLsbD 9 = s.seip := s.getLsbD_mip_code .supervisorExternal
    rw [← getLsbD_setWidth_of_lt c.mip (by decide : 9 < 32), ← readMip, h.mip, hbit, h.seipLine,
      h.seipSoftware]
    rfl

end StoredInterrupts

/-! ## Every state of a hart -/

def Interrupts.Played (s : Interrupts) : Prop :=
  ∃ ops, Interrupts.reset.play ops = s

theorem Interrupts.Played.after {s : Interrupts} (h : s.Played) (op : InterruptOperation) :
    (s.after op).Played := by
  obtain ⟨ops, rfl⟩ := h
  exact ⟨ops ++ [op], by rw [play, List.foldl_append]; rfl⟩

theorem Interrupts.played_reset : Interrupts.reset.Played :=
  ⟨[], rfl⟩

theorem CsrBank.played_update {b : CsrBank} (hb : b.interrupts.Played) (c : Csr)
    (value mask : Word) : (b.update c value mask).interrupts.Played := by
  cases c with
  | mip => exact hb.after (.writeMip value mask)
  | mie => exact hb.after (.writeMie value mask)
  | sip => exact hb.after (.writeSip value mask b.delegation)
  | sie => exact hb.after (.writeSie value mask b.delegation)
  | _ => exact hb

theorem CsrBank.played_writeMasked {b after : CsrBank} (hb : b.interrupts.Played) {n : CsrNumber}
    {value mask : Word} {level : Level} (hwrite : b.writeMasked n value mask level = .ok after) :
    after.interrupts.Played := by
  obtain ⟨c, -, -, rfl⟩ := writeMasked_eq_ok hwrite
  exact played_update hb c value mask

namespace Hart

def Played (h : Hart) : Prop :=
  h.csrs.interrupts.Played

theorem Played.trap {h : Hart} (hp : h.Played) (c : Cause) : (h.trap c).Played := by
  cases c with
  | exception e => exact hp
  | interrupt i => exact Interrupts.Played.after hp (.clearPending i)

theorem Effect.played {h after : Hart} {i : Instruction} {outcome : Outcome}
    (he : Effect h i outcome after) (hp : h.Played) : after.Played := by
  cases he with
  | accessed rd n old value mask csrs hread hwrite hnext =>
      exact CsrBank.played_writeMasked hp hwrite
  | _ => exact hp

theorem stable_played : Stable Played :=
  { effect := fun he hp => he.played hp
    counted := fun hp => hp
    trapped := fun c hp => hp.trap c }

theorem Operated.played {h after : Hart} (hop : h.Operated after) (hp : h.Played) :
    after.Played := by
  cases hop with
  | stepped bus => exact Machine.step_of_stable stable_played hp
  | interrupted => exact stable_played.takeInterrupt hp
  | trapped c => exact hp.trap c
  | wrote n value level csrs hwrite => exact CsrBank.played_writeMasked hp hwrite
  | wroteMasked n value mask level csrs hwrite => exact CsrBank.played_writeMasked hp hwrite
  | driven line level => exact Interrupts.Played.after hp (.drive line level)
  | resetCsrs => exact Interrupts.played_reset
  | reset => exact Interrupts.played_reset
  | _ => exact hp

/--
In every state of a hart the interrupts are those that a stored register shows
after some run of operations. That register is legal, and the hart takes the
interrupt that is chosen from it.
-/
theorem exists_stored_of_reachable {h : Hart} (hreach : h.Reachable) :
    ∃ ops, (StoredInterrupts.initial.play ops).Shows h.csrs.interrupts ∧
      (StoredInterrupts.initial.play ops).Legal ∧
      (StoredInterrupts.initial.play ops).next? h.level h.csrs.status h.csrs.delegation =
        h.nextInterrupt? := by
  have hplayed : h.Played := by
    induction hreach with
    | initial resetVector ecallMode clock => exact Interrupts.played_reset
    | operated _ hop ih => exact hop.played ih
  obtain ⟨ops, hops⟩ := hplayed
  have hshows := StoredInterrupts.shows_play ops
  rw [hops] at hshows
  exact ⟨ops, hshows, hshows.legal, hshows.next?_eq _ _ _⟩

end Hart

end Rv32
