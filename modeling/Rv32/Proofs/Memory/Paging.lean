import Mathlib.Data.Finset.Card
import Mathlib.Data.Finset.Range
import Rv32.Proofs.Memory.Ram

/-! # Memory in pages

Reads and writes of main memory go on byte by byte, though memory is kept in
pages. A whole access can as well be made page by page: at each place as many
bytes are copied as the page still has, and then the access goes on at the next
page. Both ways lead to the same bytes in the same pages.
-/

namespace Rv32

def Page.copy (page : Page) (offset : Nat) : List Byte → Page
  | [] => page
  | b :: rest => Page.copy (page.setIfInBounds offset b) (offset + 1) rest

namespace Ram

/-! ## Places in pages -/

def pageNumber (a : Word) : Nat :=
  a.toNat / pageSize

def pageOffset (a : Word) : Nat :=
  a.toNat % pageSize

/-- How many of the `n` bytes from `a` on come before the end of the page of `a`. -/
def chunkLength (a : Word) (n : Nat) : Nat :=
  min (pageSize - pageOffset a) n

theorem chunkLength_pos (a : Word) {n : Nat} (h : 0 < n) : 0 < chunkLength a n := by
  have hoffset : pageOffset a < pageSize := SparseBytes.offset_lt a.toNat
  unfold chunkLength
  omega

theorem chunkLength_le (a : Word) (n : Nat) : chunkLength a n ≤ n :=
  Nat.min_le_right _ _

theorem chunk_fits (a : Word) (n : Nat) : pageOffset a + chunkLength a n ≤ pageSize := by
  have hoffset : pageOffset a < pageSize := SparseBytes.offset_lt a.toNat
  unfold chunkLength
  omega

/-- The address space ends at the end of a page. -/
theorem toNat_add_within {a : Word} {i : Nat} (h : pageOffset a + i < pageSize) :
    (a + BitVec.ofNat 32 i).toNat = a.toNat + i := by
  have ha := a.isLt
  unfold pageOffset pageSize at h
  rw [BitVec.toNat_add, BitVec.toNat_ofNat]
  omega

theorem pageNumber_add {a : Word} {i : Nat} (h : pageOffset a + i < pageSize) :
    pageNumber (a + BitVec.ofNat 32 i) = pageNumber a := by
  unfold pageNumber
  rw [toNat_add_within h]
  unfold pageOffset pageSize at *
  omega

theorem pageOffset_add {a : Word} {i : Nat} (h : pageOffset a + i < pageSize) :
    pageOffset (a + BitVec.ofNat 32 i) = pageOffset a + i := by
  have hsum := toNat_add_within h
  unfold pageOffset pageSize at *
  rw [hsum]
  omega

/-! ## Reading -/

def readChunk (r : Ram) (a : Word) (len : Nat) : List Byte :=
  match r.bytes.pages[pageNumber a]? with
  | some page => (page.toList.drop (pageOffset a)).take len
  | none => zeroBytes len

def readByPages (r : Ram) (a : Word) (n : Nat) : List Byte :=
  if n = 0 then []
  else
    r.readChunk a (chunkLength a n) ++
      r.readByPages (a + BitVec.ofNat 32 (chunkLength a n)) (n - chunkLength a n)
termination_by n
decreasing_by
  rename_i h
  have hchunk := chunkLength_pos a (Nat.pos_of_ne_zero h)
  omega

theorem getElem?_page {r : Ram} {a : Word} {page : Page}
    (h : r.bytes.pages[pageNumber a]? = some page) : page[pageOffset a]? = some (r.get a) := by
  have hoffset : pageOffset a < pageSize := SparseBytes.offset_lt a.toNat
  unfold get SparseBytes.get
  unfold pageNumber at h
  rw [h, Vector.getElem?_eq_getElem hoffset]
  rfl

theorem get_of_no_page {r : Ram} {a : Word} (h : r.bytes.pages[pageNumber a]? = none) :
    r.get a = 0 := by
  unfold get SparseBytes.get
  unfold pageNumber at h
  rw [h]

theorem read_append (r : Ram) (a : Word) (m n : Nat) :
    r.read a (m + n) = r.read a m ++ r.read (a + BitVec.ofNat 32 m) n := by
  induction m generalizing a with
  | zero => simp [read]
  | succ m ih => rw [Nat.succ_add, read, read, ih, add_one_ofNat, List.cons_append]

theorem length_readChunk (r : Ram) {a : Word} {len : Nat} (h : pageOffset a + len ≤ pageSize) :
    (r.readChunk a len).length = len := by
  unfold readChunk
  split
  · rw [List.length_take, List.length_drop, Vector.length_toList]
    omega
  · exact length_zeroBytes len

theorem readChunk_eq (r : Ram) {a : Word} {len : Nat} (h : pageOffset a + len ≤ pageSize) :
    r.readChunk a len = r.read a len := by
  apply List.ext_getElem?
  intro i
  rw [getElem?_read]
  by_cases hi : i < len
  · have hin : pageOffset a + i < pageSize := by omega
    rw [if_pos hi]
    unfold readChunk
    split
    · rename_i page hpage
      rw [← pageNumber_add hin] at hpage
      rw [List.getElem?_take_of_lt hi, List.getElem?_drop, Vector.getElem?_toList,
        ← pageOffset_add hin, getElem?_page hpage]
    · rename_i hpage
      rw [← pageNumber_add hin] at hpage
      rw [get_of_no_page hpage]
      simp [zeroBytes, hi]
  · have hend : (r.readChunk a len).length ≤ i := by
      rw [length_readChunk r h]
      omega
    rw [if_neg hi, List.getElem?_eq_none hend]

theorem readByPages_eq (r : Ram) (a : Word) (n : Nat) : r.readByPages a n = r.read a n := by
  fun_induction readByPages with
  | case1 a => rfl
  | case2 a n h ih =>
      rw [ih, readChunk_eq r (chunk_fits a n), ← read_append,
        Nat.add_sub_cancel' (chunkLength_le a n)]

/-! ## Writing -/

/-- The memory after `bytes` have been copied into the page of `a`, which is kept from now on. -/
def writeChunk (r : Ram) (a : Word) (bytes : List Byte) : Ram :=
  ⟨⟨r.bytes.pages.alter (pageNumber a) fun page? =>
    some (Page.copy (page?.getD Page.blank) (pageOffset a) bytes)⟩⟩

def writeByPages (r : Ram) (a : Word) (bytes : List Byte) : Ram :=
  if bytes.length = 0 then r
  else
    let len := chunkLength a bytes.length
    (r.writeChunk a (bytes.take len)).writeByPages (a + BitVec.ofNat 32 len) (bytes.drop len)
termination_by bytes.length
decreasing_by
  rename_i h
  have hchunk := chunkLength_pos a (Nat.pos_of_ne_zero h)
  rw [List.length_drop]
  omega

/-- The memories keep the same pages, with the same bytes in them. -/
def SamePages (r s : Ram) : Prop :=
  r.bytes.pages.Equiv s.bytes.pages

theorem SamePages.trans {r s t : Ram} (h : r.SamePages s) (h' : s.SamePages t) : r.SamePages t :=
  Std.HashMap.Equiv.trans h h'

theorem SamePages.set {r s : Ram} (h : r.SamePages s) (a : Word) (b : Byte) :
    (r.set a b).SamePages (s.set a b) :=
  Std.HashMap.Equiv.alter _ _ h

theorem SamePages.write {r s : Ram} (h : r.SamePages s) (a : Word) (bytes : List Byte) :
    (r.write a bytes).SamePages (s.write a bytes) := by
  induction bytes generalizing r s a with
  | nil => exact h
  | cons b rest ih => exact ih (h.set a b) (a + 1)

theorem write_append (r : Ram) (a : Word) (bytes more : List Byte) :
    r.write a (bytes ++ more) =
      (r.write a bytes).write (a + BitVec.ofNat 32 bytes.length) more := by
  induction bytes generalizing r a with
  | nil => simp [write]
  | cons b rest ih => rw [List.cons_append, write, write, ih, add_one_ofNat, List.length_cons]

theorem set_eq_writeChunk (r : Ram) (a : Word) (b : Byte) : r.set a b = r.writeChunk a [b] := by
  have hoffset : pageOffset a < pageSize := SparseBytes.offset_lt a.toNat
  have hcopy (page : Page) :
      page.set (pageOffset a) b hoffset = Page.copy page (pageOffset a) [b] := by
    apply Vector.ext
    intro i hi
    simp [Page.copy, Vector.getElem_set, Vector.getElem_setIfInBounds]
  unfold set writeChunk SparseBytes.set
  simp only [← hcopy]
  rfl

/-- Of two copies to one page the second may start where the first ends. -/
theorem samePages_writeChunk_writeChunk (r : Ram) {a : Word} (b : Byte) (rest : List Byte)
    (h : pageOffset a + 1 < pageSize) :
    (r.writeChunk a (b :: rest)).SamePages ((r.writeChunk a [b]).writeChunk (a + 1) rest) := by
  have hnumber : pageNumber (a + 1) = pageNumber a := pageNumber_add (i := 1) h
  have hoffset : pageOffset (a + 1) = pageOffset a + 1 := pageOffset_add (i := 1) h
  apply Std.HashMap.Equiv.of_forall_getElem?_eq
  intro k
  unfold writeChunk
  simp only [hnumber, hoffset, Std.HashMap.getElem?_alter]
  by_cases hk : pageNumber a = k
  · simp [hk, Page.copy]
  · simp [hk]

/-- Bytes that fit in a page are copied there as they are stored one by one. -/
theorem samePages_writeChunk (r : Ram) {a : Word} {bytes : List Byte} (hne : bytes ≠ [])
    (h : pageOffset a + bytes.length ≤ pageSize) :
    (r.writeChunk a bytes).SamePages (r.write a bytes) := by
  induction bytes generalizing r a with
  | nil => exact absurd rfl hne
  | cons b rest ih =>
      rw [List.length_cons] at h
      rw [write, set_eq_writeChunk]
      by_cases hrest : rest = []
      · rw [hrest]
        exact Std.HashMap.Equiv.refl _
      · -- There is a next byte, and it fits too, so its address is in the same page.
        have hpositive := List.length_pos_iff.mpr hrest
        have hnext : pageOffset a + 1 < pageSize := by omega
        have hoffset : pageOffset (a + 1) = pageOffset a + 1 := pageOffset_add (i := 1) hnext
        have hfits : pageOffset (a + 1) + rest.length ≤ pageSize := by omega
        exact (r.samePages_writeChunk_writeChunk b rest hnext).trans (ih _ hrest hfits)

theorem samePages_writeByPages (r : Ram) (a : Word) (bytes : List Byte) :
    (r.writeByPages a bytes).SamePages (r.write a bytes) := by
  fun_induction writeByPages with
  | case1 r a bytes h =>
      rw [List.length_eq_zero_iff.mp h]
      exact Std.HashMap.Equiv.refl _
  | case2 r a bytes h len ih =>
      have hpositive : 0 < len := chunkLength_pos a (Nat.pos_of_ne_zero h)
      have htaken : (bytes.take len).length = len :=
        List.length_take_of_le (chunkLength_le a bytes.length)
      have hne : bytes.take len ≠ [] := by
        rw [← List.length_pos_iff, htaken]
        exact hpositive
      have hfits : pageOffset a + (bytes.take len).length ≤ pageSize := by
        rw [htaken]
        exact chunk_fits a bytes.length
      -- The bytes up to the end of the page are stored alike, and so are those after them.
      have hsplit := r.write_append a (bytes.take len) (bytes.drop len)
      rw [List.take_append_drop, htaken] at hsplit
      rw [hsplit]
      exact ih.trans ((r.samePages_writeChunk hne hfits).write _ _)

/-! ## The bytes that a write changes -/

theorem get_write_of_ne {r : Ram} {a x : Word} {bytes : List Byte}
    (h : ∀ i < bytes.length, a + BitVec.ofNat 32 i ≠ x) : (r.write a bytes).get x = r.get x := by
  induction bytes generalizing r a with
  | nil => rfl
  | cons b rest ih =>
      have hfirst : a ≠ x := by
        have hzero := h 0 (Nat.succ_pos rest.length)
        rwa [BitVec.add_zero] at hzero
      have hrest : ∀ i < rest.length, a + 1 + BitVec.ofNat 32 i ≠ x := by
        intro i hi
        rw [add_one_ofNat]
        exact h (i + 1) (Nat.succ_lt_succ hi)
      rw [write, ih hrest, get_set, if_neg hfirst]

/-- Of the bytes that are stored at one address the last one stays. -/
theorem get_write_of_last {r : Ram} {a : Word} {bytes : List Byte} {i : Nat} {v : Byte}
    (hi : bytes[i]? = some v)
    (hlast : ∀ j, i < j → j < bytes.length → a + BitVec.ofNat 32 j ≠ a + BitVec.ofNat 32 i) :
    (r.write a bytes).get (a + BitVec.ofNat 32 i) = v := by
  induction bytes generalizing r a i with
  | nil => cases hi
  | cons b rest ih =>
      cases i with
      | zero =>
          cases hi
          rw [BitVec.add_zero] at hlast ⊢
          -- No later byte comes to this address again, so the rest leaves the first byte alone.
          have hrest : ∀ j < rest.length, a + 1 + BitVec.ofNat 32 j ≠ a := by
            intro j hj
            rw [add_one_ofNat]
            exact hlast (j + 1) (Nat.succ_pos j) (Nat.succ_lt_succ hj)
          rw [write, get_write_of_ne hrest, get_set, if_pos rfl]
      | succ i =>
          rw [← add_one_ofNat]
          refine ih hi ?_
          intro j hij hj
          rw [add_one_ofNat, add_one_ofNat]
          exact hlast (j + 1) (Nat.succ_lt_succ hij) (Nat.succ_lt_succ hj)

/-! ## The pages kept -/

def keptPages (r : Ram) : Finset Nat :=
  r.bytes.pages.keys.toFinset

def touchedPages (a : Word) (n : Nat) : Finset Nat :=
  (Finset.range n).image fun i => pageNumber (a + BitVec.ofNat 32 i)

theorem mem_keptPages {r : Ram} {k : Nat} : k ∈ r.keptPages ↔ k ∈ r.bytes.pages := by
  rw [keptPages, List.mem_toFinset, Std.HashMap.mem_keys]

theorem card_keptPages (r : Ram) : r.keptPages.card = r.pageCount := by
  rw [keptPages, List.toFinset_card_of_nodup Std.HashMap.nodup_keys, Std.HashMap.length_keys]
  rfl

theorem keptPages_empty : empty.keptPages = ∅ := by
  simp [keptPages, empty, SparseBytes.empty]

theorem mem_touchedPages {a : Word} {n k : Nat} :
    k ∈ touchedPages a n ↔ ∃ i < n, pageNumber (a + BitVec.ofNat 32 i) = k := by
  simp only [touchedPages, Finset.mem_image, Finset.mem_range]

theorem keptPages_set (r : Ram) (a : Word) (b : Byte) :
    (r.set a b).keptPages = insert (pageNumber a) r.keptPages := by
  ext k
  rw [mem_keptPages, Finset.mem_insert, mem_keptPages]
  unfold set SparseBytes.set pageNumber
  rw [Std.HashMap.mem_alter]
  by_cases hk : a.toNat / pageSize = k
  · simp [hk]
  · simp [hk, Ne.symm hk]

theorem touchedPages_succ (a : Word) (n : Nat) :
    touchedPages a (n + 1) = insert (pageNumber a) (touchedPages (a + 1) n) := by
  ext k
  rw [Finset.mem_insert, mem_touchedPages, mem_touchedPages, Nat.exists_lt_succ_left,
    BitVec.add_zero, eq_comm]
  simp only [add_one_ofNat]

theorem keptPages_write (r : Ram) (a : Word) (bytes : List Byte) :
    (r.write a bytes).keptPages = r.keptPages ∪ touchedPages a bytes.length := by
  induction bytes generalizing r a with
  | nil => exact (Finset.union_empty _).symm
  | cons b rest ih =>
      rw [write, ih, keptPages_set, List.length_cons, touchedPages_succ, Finset.insert_union,
        Finset.union_insert]

/-! ## Memory as a map from addresses to bytes -/

/--
Memory holds one byte for each address, which is zero where no page is kept. A read returns the
bytes of the addresses from `a` on, where address zero follows the last one, and changes nothing.
A write stores its bytes at these addresses, where of several bytes for one address the last one
stays, and no byte at another address changes. The pages kept after it are those kept before and
those that it touches. Both may as well be carried out page by page, in pieces that never go past
the end of a page.
-/
theorem accesses_flat (r : Ram) (a : Word) :
    (∀ x : Word,
      match r.bytes.pages[x.toNat / pageSize]? with
      | some page => page[x.toNat % pageSize]? = some (r.get x)
      | none => r.get x = 0) ∧
    (∀ n, Bus.read r a n = (r.read a n, r) ∧ (r.read a n).length = n ∧
      (∀ i < n, (r.read a n)[i]? = some (r.get (a + BitVec.ofNat 32 i))) ∧
      r.readByPages a n = r.read a n) ∧
    ∀ bytes, Bus.write r a bytes = r.write a bytes ∧
      (∀ i v, bytes[i]? = some v →
        (∀ j, i < j → j < bytes.length → a + BitVec.ofNat 32 j ≠ a + BitVec.ofNat 32 i) →
        (r.write a bytes).get (a + BitVec.ofNat 32 i) = v) ∧
      (∀ x, (∀ i < bytes.length, a + BitVec.ofNat 32 i ≠ x) → (r.write a bytes).get x = r.get x) ∧
      (r.write a bytes).pageCount = (r.keptPages ∪ touchedPages a bytes.length).card ∧
      (r.writeByPages a bytes).SamePages (r.write a bytes) := by
  refine ⟨?_, ?_, ?_⟩
  · intro x
    split
    · rename_i page hpage
      exact getElem?_page hpage
    · rename_i hpage
      exact get_of_no_page hpage
  · intro n
    refine ⟨rfl, r.length_read a n, ?_, r.readByPages_eq a n⟩
    intro i hi
    rw [getElem?_read, if_pos hi]
  · intro bytes
    refine ⟨rfl, fun i v => get_write_of_last, fun x => get_write_of_ne, ?_,
      r.samePages_writeByPages a bytes⟩
    rw [← card_keptPages, keptPages_write]

/-- A write at the end of the address space goes on at address zero, so it touches two pages. -/
theorem accesses_flat_wrapping :
    (empty.write 0xFFFFFFFE [1, 2, 3, 4]).get 0 = 3 ∧
      (empty.write 0xFFFFFFFE [1, 2, 3, 4]).get 2 = 0 ∧
      (empty.write 0xFFFFFFFE [1, 2, 3, 4]).pageCount = 2 := by
  obtain ⟨-, -, hwrite⟩ := accesses_flat empty 0xFFFFFFFE
  obtain ⟨-, hstored, hother, hcount, -⟩ := hwrite [1, 2, 3, 4]
  refine ⟨hstored 2 3 rfl ?_, (hother 2 ?_).trans (SparseBytes.get_empty 2), hcount.trans ?_⟩
  · intro j hlow hhigh
    obtain rfl : j = 3 := by
      simp only [List.length_cons, List.length_nil] at hhigh
      omega
    decide
  · decide
  · rw [keptPages_empty, Finset.empty_union]
    decide

end Ram

end Rv32
