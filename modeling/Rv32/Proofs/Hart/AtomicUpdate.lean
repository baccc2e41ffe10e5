import Rv32.Proofs.Arithmetic.Integer
import Rv32.Proofs.Hart.LoadStore
import Rv32.Proofs.Hart.StraightLine
import Mathlib.Data.List.Perm.Subperm

/-! # Atomic updates

An atomic update replaces a word in memory by what an operation makes of it and
of a register, and returns the old word. It does what a load, the operation, a
store and a move do one after the other, for which the operation has code of its
own without branches. The destination is written last, so it may be any register.
-/

namespace Rv32

/-! ## What the operations compute -/

def AmoOp.Computes (op : AmoOp) (m s v : Word) : Prop :=
  match op with
  | swap => v = s
  | add => ArithOp.add.Computes m s v
  | xor => ArithOp.xor.Computes m s v
  | and => ArithOp.and.Computes m s v
  | or => ArithOp.or.Computes m s v
  | min => v.toInt = Min.min m.toInt s.toInt
  | max => v.toInt = Max.max m.toInt s.toInt
  | minu => v.toNat = Min.min m.toNat s.toNat
  | maxu => v.toNat = Max.max m.toNat s.toNat

theorem AmoOp.computes_eval (op : AmoOp) (m s : Word) : op.Computes m s (op.eval m s) := by
  cases op with
  | swap => rfl
  | add => exact ArithOp.add.computes_eval m s
  | xor => exact ArithOp.xor.computes_eval m s
  | and => exact ArithOp.and.computes_eval m s
  | or => exact ArithOp.or.computes_eval m s
  | min => simp only [Computes, eval, BitVec.sle_iff_toInt_le, apply_ite BitVec.toInt, Int.min_def]
  | max => simp only [Computes, eval, BitVec.sle_iff_toInt_le, apply_ite BitVec.toInt, Int.max_def]
  | minu => simp only [Computes, eval, BitVec.ule_iff_toNat_le, apply_ite BitVec.toNat, Nat.min_def]
  | maxu => simp only [Computes, eval, BitVec.ule_iff_toNat_le, apply_ite BitVec.toNat, Nat.max_def]

/-! ## The operations as code -/

/--
Code for a choice without a branch. Register `u` gets `w` if `compare` holds of `a` and `b`, and
else `v`: the comparison becomes a mask, through which their difference passes or does not.
-/
def ArithOp.choose (compare : ArithOp) (a b u d v w : Register) : List Instruction :=
  [.r (compare.instruction u a b),
    .r (sub.instruction u Register.zero u),
    .r (xor.instruction d v w),
    .r (and.instruction u u d),
    .r (xor.instruction u u v)]

/-- Code that leaves in `u` what the update makes of `t` and `s`, and uses `d` on the way. -/
def AmoOp.code (op : AmoOp) (t s u d : Register) : List Instruction :=
  match op with
  | swap => [.i (.move u s)]
  | add => [.r (ArithOp.add.instruction u t s)]
  | xor => [.r (ArithOp.xor.instruction u t s)]
  | and => [.r (ArithOp.and.instruction u t s)]
  | or => [.r (ArithOp.or.instruction u t s)]
  | min => ArithOp.slt.choose s t u d t s
  | max => ArithOp.slt.choose s t u d s t
  | minu => ArithOp.sltu.choose s t u d t s
  | maxu => ArithOp.sltu.choose s t u d s t

theorem Word.mask_xor (c : Bool) (v w : Word) :
    ((0 - ofBool c) &&& (v ^^^ w)) ^^^ v = if !c then v else w := by
  cases c with
  | false => simp [ofBool]
  | true =>
      have hmask : (0 : Word) - ofBool true = BitVec.allOnes 32 := by decide
      rw [hmask, BitVec.allOnes_and, BitVec.xor_comm v, BitVec.xor_assoc, BitVec.xor_self,
        BitVec.xor_zero]
      rfl

theorem Register.exists_not_mem (used : List Register) (h : used.length < 32) :
    ∃ r, r ∉ used := by
  by_contra hall
  simp only [not_exists, not_not] at hall
  have hnodup : Register.all.Nodup := by decide
  have hle : 32 ≤ used.length := (hnodup.subperm fun r _ => hall r).length_le
  omega

/-- Registers for the code of an update, apart from each other and from those that it reads. -/
structure Temporaries (x : RType) where
  old : Register
  new : Register
  bits : Register
  nodup : [Register.zero, old, new, bits].Nodup
  apart : ∀ r ∈ [old, new, bits], r ≠ x.rs1 ∧ r ≠ x.rs2

namespace Temporaries

variable {x : RType} (t : Temporaries x)

def registers : List Register :=
  [t.old, t.new, t.bits]

theorem rs1_not_mem : x.rs1 ∉ t.registers :=
  fun h => (t.apart x.rs1 h).1 rfl

theorem rs2_not_mem : x.rs2 ∉ t.registers :=
  fun h => (t.apart x.rs2 h).2 rfl

theorem ne_zero {r : Register} (hr : r ∈ t.registers) : r ≠ Register.zero := by
  rintro rfl
  exact (List.nodup_cons.mp t.nodup).1 hr

theorem old_not_mem : t.old ∉ [t.new, t.bits] :=
  (List.nodup_cons.mp (List.nodup_cons.mp t.nodup).2).1

theorem new_ne_bits : t.new ≠ t.bits := by
  have hnodup : [t.new, t.bits].Nodup := (List.nodup_cons.mp (List.nodup_cons.mp t.nodup).2).2
  simpa using hnodup

/-- There are enough registers for the code of every update. -/
theorem nonempty (x : RType) : Nonempty (Temporaries x) := by
  obtain ⟨a, ha⟩ := Register.exists_not_mem [Register.zero, x.rs1, x.rs2] (by simp)
  obtain ⟨b, hb⟩ := Register.exists_not_mem [a, Register.zero, x.rs1, x.rs2] (by simp)
  obtain ⟨c, hc⟩ := Register.exists_not_mem [b, a, Register.zero, x.rs1, x.rs2] (by simp)
  simp only [List.mem_cons, List.not_mem_nil, or_false, not_or] at ha hb hc
  exact
    ⟨{ old := c
       new := b
       bits := a
       nodup := by simp [ha, hb, hc, eq_comm (a := Register.zero)]
       apart := by simp [ha, hb, hc] }⟩

end Temporaries

/-- The update as a load of the old word, the operation, a store, and a move to the destination. -/
def AmoOp.sequence (op : AmoOp) (x : RType) (t : Temporaries x) : List Instruction :=
  .i (.loadWord t.old x.rs1) ::
    (op.code t.old x.rs2 t.new t.bits ++ [.s (.storeWord t.new x.rs1), .i (.move x.rd t.old)])

namespace Machine

section

variable {β : Type} [Bus β] (m : Machine β) {u d : Register}

/-- The code for a choice puts the chosen value into `u`, and changes only `d` besides. -/
theorem executeAll?_choose {compare : ArithOp} {c : Bool} {a b v w : Register}
    (hcompare : compare.eval (m.hart.x a) (m.hart.x b) = Word.ofBool c)
    (hu : u ≠ Register.zero) (hd : d ≠ Register.zero) (hud : u ≠ d)
    (hv : v ∉ [u, d]) (hw : w ∉ [u, d]) :
    ∃ h, m.executeAll? (compare.choose a b u d v w) = some { m with hart := h } ∧
      h.x u = (if !c then m.hart.x v else m.hart.x w) ∧ m.hart.KeepsBut [u, d] h := by
  have hmem : u ∈ [u, d] := List.mem_cons_self
  have hmem' : d ∈ [u, d] := List.mem_cons_of_mem u List.mem_cons_self
  have hkept := (Hart.KeepsBut.refl m.hart [u, d]).writeBack hmem (Word.ofBool c)
  simp only [ArithOp.choose, executeAll?_arith, hcompare]
  refine ⟨_, rfl, ?_, ?_⟩
  · simp only [List.mem_cons, List.not_mem_nil, or_false, not_or] at hv hw
    rw [← Word.mask_xor]
    simp [Hart.x_writeBack, ArithOp.eval, hu, hd, hud, hv, hw]
  · exact (((hkept.writeBack hmem _).writeBack hmem' _).writeBack hmem _).writeBack hmem _

/-- The code of an operation computes it, and changes only `u` and `d`. -/
theorem executeAll?_code (op : AmoOp) {t s : Register} (hu : u ≠ Register.zero)
    (hd : d ≠ Register.zero) (hud : u ≠ d) (ht : t ∉ [u, d]) (hs : s ∉ [u, d]) :
    ∃ h, m.executeAll? (op.code t s u d) = some { m with hart := h } ∧
      h.x u = op.eval (m.hart.x t) (m.hart.x s) ∧ m.hart.KeepsBut [u, d] h := by
  -- A single instruction writes the value itself.
  have hwritten (v : Word) : (m.hart.writeBack u v).x u = v := m.hart.x_writeBack_self hu v
  have hkept (v : Word) : m.hart.KeepsBut [u, d] (m.hart.writeBack u v) :=
    (Hart.KeepsBut.refl m.hart [u, d]).writeBack List.mem_cons_self v
  cases op with
  | swap => exact ⟨_, m.executeAll?_move u s [], hwritten _, hkept _⟩
  | add => exact ⟨_, m.executeAll?_arith .add u t s [], hwritten _, hkept _⟩
  | xor => exact ⟨_, m.executeAll?_arith .xor u t s [], hwritten _, hkept _⟩
  | and => exact ⟨_, m.executeAll?_arith .and u t s [], hwritten _, hkept _⟩
  | or => exact ⟨_, m.executeAll?_arith .or u t s [], hwritten _, hkept _⟩
  | min =>
      rw [AmoOp.eval, BitVec.sle_eq_not_slt]
      exact m.executeAll?_choose rfl hu hd hud ht hs
  | max =>
      rw [AmoOp.eval, BitVec.sle_eq_not_slt]
      exact m.executeAll?_choose rfl hu hd hud hs ht
  | minu =>
      rw [AmoOp.eval, BitVec.ule_eq_not_ult]
      exact m.executeAll?_choose rfl hu hd hud ht hs
  | maxu =>
      rw [AmoOp.eval, BitVec.ule_eq_not_ult]
      exact m.executeAll?_choose rfl hu hd hud hs ht

/--
The sequence leaves the bus that the update leaves. Its destination gets the old word, too,
which is moved there last.
-/
theorem executeAll?_sequence (op : AmoOp) {x : RType} (t : Temporaries x) {address old : Word}
    (haddress : m.hart.x x.rs1 = address)
    (hold : ofLeBytes 32 (Bus.read m.bus address 4).1 = old) :
    ∃ h, m.executeAll? (op.sequence x t) =
        some
          { hart := h.writeBack x.rd old
            bus := Bus.write (Bus.read m.bus address 4).2 address
              (leBytes 4 (op.eval old (m.hart.x x.rs2))) } ∧
      m.hart.KeepsBut t.registers h := by
  have hzero : t.old ≠ Register.zero := t.ne_zero List.mem_cons_self
  have hsub : [t.new, t.bits] ⊆ t.registers := List.subset_cons_self t.old _
  have hloaded : m.hart.KeepsBut t.registers (m.hart.writeBack t.old old) :=
    (Hart.KeepsBut.refl m.hart t.registers).writeBack List.mem_cons_self old
  obtain ⟨h, hcode, hnew, hcomputed⟩ :=
    executeAll?_code
      { hart := m.hart.writeBack t.old old, bus := (Bus.read m.bus address 4).2 } op
      (t.ne_zero (hsub List.mem_cons_self))
      (t.ne_zero (hsub (List.mem_cons_of_mem t.new List.mem_cons_self)))
      t.new_ne_bits t.old_not_mem fun hmem => t.rs2_not_mem (hsub hmem)
  have hkept : m.hart.KeepsBut t.registers h := hloaded.trans (hcomputed.mono hsub)
  have hold' : h.x t.old = old := by
    rw [hcomputed.registers _ t.old_not_mem, Hart.x_writeBack_self _ hzero]
  have hbase : h.x x.rs1 = address := (hkept.registers _ t.rs1_not_mem).trans haddress
  have hresult : h.x t.new = op.eval old (m.hart.x x.rs2) := by
    rw [hnew, Hart.x_writeBack_self _ hzero, hloaded.registers _ t.rs2_not_mem]
  refine ⟨h.advance, ?_, hkept.advance⟩
  rw [AmoOp.sequence, executeAll?_loadWord, haddress, hold, executeAll?_append hcode,
    executeAll?_storeWord, executeAll?_move, hbase, hresult, ← hold']
  rfl

end

/-- The machine `after` is `m` with `new` in place of `old` at the address that `rs1` holds. -/
structure Updates (m : Machine Ram) (x : RType) (old new : Word) (after : Machine Ram) : Prop where
  read : littleEndian m.bus.get (m.hart.x x.rs1) 4 = old.toNat
  written : littleEndian after.bus.get (m.hart.x x.rs1) 4 = new.toNat
  kept : ∀ a, (∀ i < 4, a ≠ m.hart.x x.rs1 + BitVec.ofNat 32 i) → after.bus.get a = m.bus.get a
  destination : x.rd ≠ Register.zero → after.hart.x x.rd = old
  hart : m.hart.KeepsBut [x.rd] after.hart
  reservation : after.hart.reservation = m.hart.reservation
  pc : after.hart.pc = m.hart.pc + 4

theorem updates_atomicUpdate (m : Machine Ram) (x : RType) (v : Word) :
    m.Updates x (ofLeBytes 32 (m.bus.read (m.hart.x x.rs1) 4)) v
      { hart := m.hart.writeBack x.rd (ofLeBytes 32 (m.bus.read (m.hart.x x.rs1) 4))
        bus := m.bus.write (m.hart.x x.rs1) (leBytes 4 v) } := by
  have hstores := m.bus.stores_write_leBytes (m.hart.x x.rs1) 4 v (by decide)
  exact
    { read := (m.bus.toNat_ofLeBytes_read _ (Nat.le_refl 32)).symm
      written := hstores.littleEndian_eq.trans (Nat.mod_eq_of_lt v.isLt)
      kept := hstores.kept
      destination := fun hrd => m.hart.x_writeBack_self hrd _
      hart := (Hart.KeepsBut.refl m.hart [x.rd]).writeBack List.mem_cons_self _
      reservation := rfl
      pc := m.hart.pc_writeBack x.rd _ }

/--
An atomic update replaces the word at the address in `rs1` by what its operation
makes of that word and of `rs2`, and its destination gets the old word. No other
byte, no other register and not the reservation changes. Memory and destination
are those after the sequence of instructions that does the same, whichever
registers it uses on the way.
-/
theorem atomic_updates (m : Machine Ram) {x : RType} {op : AmoOp}
    (hop : x.operation? = some (.amo op)) :
    ∃ old new after,
      m.execute (.r x) = .ok (.completed, after) ∧
      op.Computes old (m.hart.x x.rs2) new ∧
      m.Updates x old new after ∧
      Nonempty (Temporaries x) ∧
      ∀ t : Temporaries x, ∃ last,
        m.executeAll? (op.sequence x t) = some last ∧
        last.bus = after.bus ∧
        last.hart.x x.rd = after.hart.x x.rd ∧
        after.hart.KeepsBut t.registers last.hart := by
  refine ⟨_, _, _, m.execute_reg hop, op.computes_eval _ _, m.updates_atomicUpdate x _,
    Temporaries.nonempty x, ?_⟩
  intro t
  obtain ⟨h, hcode, hkept⟩ := m.executeAll?_sequence op t rfl rfl
  refine ⟨_, hcode, rfl, ?_, hkept.writeBack_both x.rd _⟩
  by_cases hrd : x.rd = Register.zero
  · rw [hrd]
    exact (Hart.x_zero _).trans (Hart.x_zero _).symm
  · exact (h.x_writeBack_self hrd _).trans (m.hart.x_writeBack_self hrd _).symm

/-- A machine with the address of a word on two pages in `x5`, whose highest byte is not zero. -/
def onTwoPages : Machine Ram :=
  { hart := idle.hart.writeBack 5 0x80000FFE, bus := Ram.empty.set 0x80001001 0x7F }

def leastOfItself : RType :=
  { opcode := Opcode.amo, rd := 5, funct3 := 2, rs1 := 5, rs2 := 5, funct7 := 0x40 }

/-- The address is the smaller number of the two, since it has its sign bit set. -/
theorem atomic_updates_aliased :
    ∃ after,
      onTwoPages.execute (.r leastOfItself) = .ok (.completed, after) ∧
      littleEndian after.bus.get 0x80000FFE 4 = 0x80000FFE ∧
      after.hart.x 5 = 0x7F000000 ∧
      ∃ last,
        onTwoPages.executeAll?
          (AmoOp.min.sequence leastOfItself ⟨6, 7, 28, by decide, by decide⟩) = some last ∧
        last.bus = after.bus ∧ last.hart.x 5 = 0x7F000000 := by
  have hop : leastOfItself.operation? = some (.amo .min) := rfl
  obtain ⟨old, new, after, hexec, hcomputes, hupdates, -, hsequence⟩ :=
    onTwoPages.atomic_updates hop
  obtain ⟨last, hcode, hbus, hdestination, -⟩ := hsequence ⟨6, 7, 28, by decide, by decide⟩
  have hread : littleEndian onTwoPages.bus.get 0x80000FFE 4 = 0x7F000000 := by
    have hbytes : onTwoPages.bus.get = fun a => if 0x80001001 = a then 0x7F else 0 := by
      funext a
      exact (Ram.get_set .empty 0x80001001 a 0x7F).trans (by rw [Ram.get_empty])
    rw [hbytes]
    rfl
  have hold : old = 0x7F000000 := BitVec.eq_of_toNat_eq (hupdates.read.symm.trans hread)
  subst hold
  have hnew : new = 0x80000FFE := BitVec.eq_of_toInt_eq hcomputes
  subst hnew
  have hafter : after.hart.x 5 = 0x7F000000 := hupdates.destination (by decide)
  exact ⟨after, hexec, hupdates.written, hafter, last, hcode, hbus, hdestination.trans hafter⟩

end Machine

end Rv32
