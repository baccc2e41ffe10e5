import Mathlib.Data.List.Induction
import Rv32.Proofs.Memory.ByteOrder
import Rv32.SelfTest.Signature

/-!
# What a signature holds

The symbols are passed over once, and the latest address of either name is kept:
that is the address of the last symbol with the name. Between two addresses that
are aligned and in order, the words fill the memory without a gap. None of them
reaches the last address, so no address is counted past the end of the address
space, even if the words end right before it.
-/

namespace Rv32.Signature

/-! ## The last symbol with a name -/

/-- The last symbol with the given name has the address `value`, which is its value modulo 2³². -/
def IsLastValue (symbols : List Elf.Symbol) (name : String) (value : Word) : Prop :=
  ∃ before s after, symbols = before ++ s :: after ∧ s.name? = some name ∧
    (∀ t ∈ after, t.name? ≠ some name) ∧ value.toNat = s.value % 2 ^ 32

theorem lastValue?_eq_some_iff {symbols : List Elf.Symbol} {name : String} {value : Word} :
    lastValue? symbols name = some value ↔ IsLastValue symbols name value := by
  rw [lastValue?, Option.map_eq_some_iff]
  constructor
  · rintro ⟨s, hfound, rfl⟩
    obtain ⟨hname, after, before, hsymbols, hafter⟩ := List.find?_eq_some_iff_append.mp hfound
    refine ⟨before.reverse, s, after.reverse, ?_, by simpa using hname, ?_, BitVec.toNat_ofNat ..⟩
    · rw [← List.reverse_reverse symbols, hsymbols, List.reverse_append, List.reverse_cons,
        List.append_assoc, List.singleton_append]
    · intro t ht
      simpa using hafter t (List.mem_reverse.mp ht)
  · rintro ⟨before, s, after, rfl, hname, hafter, hvalue⟩
    refine ⟨s, List.find?_eq_some_iff_append.mpr ⟨by simpa using hname, after.reverse,
      before.reverse, ?_, ?_⟩, ?_⟩
    · rw [List.reverse_append, List.reverse_cons, List.append_assoc, List.singleton_append]
    · intro t ht
      simpa using hafter t (List.mem_reverse.mp ht)
    · rw [← BitVec.toNat_inj, BitVec.toNat_ofNat, hvalue]

/-! ## One pass over the symbols -/

structure Bounds where
  first? : Option Word
  last? : Option Word

/-- A symbol with one of the two names takes the place of an earlier one. -/
def Bounds.note (b : Bounds) (s : Elf.Symbol) : Bounds :=
  match s.name? with
  | none => b
  | some name =>
      if name = beginName then { b with first? := some (BitVec.ofNat 32 s.value) }
      else if name = endName then { b with last? := some (BitVec.ofNat 32 s.value) }
      else b

def boundsOf (symbols : List Elf.Symbol) : Bounds :=
  symbols.foldl Bounds.note ⟨none, none⟩

theorem lastValue?_concat (symbols : List Elf.Symbol) (s : Elf.Symbol) (name : String) :
    lastValue? (symbols ++ [s]) name =
      if s.name? = some name then some (BitVec.ofNat 32 s.value)
      else lastValue? symbols name := by
  unfold lastValue?
  rw [List.reverse_append, List.reverse_singleton, List.singleton_append, List.find?_cons]
  by_cases hname : s.name? = some name
  · simp [hname]
  · rw [beq_eq_false_iff_ne.mpr hname, if_neg hname]

theorem boundsOf_eq (symbols : List Elf.Symbol) :
    boundsOf symbols = ⟨lastValue? symbols beginName, lastValue? symbols endName⟩ := by
  induction symbols using List.reverseRecOn with
  | nil => rfl
  | append_singleton symbols s ih =>
      have hnames : beginName ≠ endName := by decide
      rw [boundsOf, List.foldl_append, ← boundsOf, ih, List.foldl_cons, List.foldl_nil,
        lastValue?_concat, lastValue?_concat]
      unfold Bounds.note
      cases hname : s.name? with
      | none => simp
      | some name =>
          by_cases hbegin : name = beginName
          · simp [hbegin, hnames]
          by_cases hend : name = endName
          · simp [hend, hnames.symm]
          · simp [hbegin, hend]

/-- The pass finds an address for both names exactly if each is that of the last such symbol. -/
theorem boundsOf_eq_iff {symbols : List Elf.Symbol} {first last : Word} :
    boundsOf symbols = ⟨some first, some last⟩ ↔
      IsLastValue symbols beginName first ∧ IsLastValue symbols endName last := by
  rw [boundsOf_eq, Bounds.mk.injEq, lastValue?_eq_some_iff, lastValue?_eq_some_iff]

/-! ## Words up to an address -/

/-- The words before `last` end there at the latest, and so their addresses do not wrap around. -/
theorem toNat_wordAddress {first last : Word} {i k : Nat}
    (hi : i < (last.toNat - first.toNat) / 4) (hk : k < 4) :
    (first + BitVec.ofNat 32 (4 * i + k)).toNat = first.toNat + (4 * i + k) ∧
      first.toNat + (4 * i + k) < last.toNat := by
  have hlast := last.isLt
  rw [BitVec.toNat_add, BitVec.toNat_ofNat]
  omega

theorem toNat_wordAt (ram : Ram) (a : Word) : (wordAt ram a).toNat = littleEndian ram.get a 4 :=
  ram.toNat_ofLeBytes_read a (by decide)

def AgreeBetween (first last : Word) (r s : Ram) : Prop :=
  ∀ a, first ≤ a → a < last → r.get a = s.get a

theorem AgreeBetween.wordAt_eq {first last : Word} {r s : Ram} (h : AgreeBetween first last r s)
    {i : Nat} (hi : i < (last.toNat - first.toNat) / 4) :
    wordAt r (first + BitVec.ofNat 32 (4 * i)) = wordAt s (first + BitVec.ofNat 32 (4 * i)) := by
  have hbytes : r.read (first + BitVec.ofNat 32 (4 * i)) 4 =
      s.read (first + BitVec.ofNat 32 (4 * i)) 4 := by
    apply List.ext_getElem?
    intro k
    rw [Ram.getElem?_read, Ram.getElem?_read]
    by_cases hk : k < 4
    · obtain ⟨hplace, hbelow⟩ := toNat_wordAddress hi hk
      rw [if_pos hk, if_pos hk, BitVec.add_assoc, ← BitVec.ofNat_add, h]
      · rw [BitVec.le_def, hplace]
        omega
      · rwa [BitVec.lt_def, hplace]
    · rw [if_neg hk, if_neg hk]
  rw [wordAt, hbytes, wordAt]

/-! ## The signature -/

/-- The last symbols of the two names enclose words: their addresses are aligned and in order. -/
structure Encloses (symbols : List Elf.Symbol) (first last : Word) : Prop where
  begins : IsLastValue symbols beginName first
  ends : IsLastValue symbols endName last
  begins_aligned : first.toNat % 16 = 0
  ends_aligned : last.toNat % 4 = 0
  ordered : first ≤ last

def wordsBetween (ram : Ram) (first last : Word) : List Word :=
  (List.range ((last.toNat - first.toNat) / 4)).map fun i =>
    wordAt ram (first + BitVec.ofNat 32 (4 * i))

@[simp] theorem length_wordsBetween (ram : Ram) (first last : Word) :
    (wordsBetween ram first last).length = (last.toNat - first.toNat) / 4 := by
  rw [wordsBetween, List.length_map, List.length_range]

theorem getElem?_wordsBetween (ram : Ram) {first last : Word} {i : Nat}
    (hi : i < (last.toNat - first.toNat) / 4) :
    (wordsBetween ram first last)[i]? = some (wordAt ram (first + BitVec.ofNat 32 (4 * i))) := by
  rw [wordsBetween, List.getElem?_map, List.getElem?_range hi]
  rfl

/-- The addresses from `a` on in steps of four, as far as they are below `stop`. -/
def fourApart (a stop : Nat) : List Nat :=
  if a < stop then a :: fourApart (a + 4) stop else []

theorem fourApart_eq (a n : Nat) :
    fourApart a (a + 4 * n) = (List.range n).map fun i => a + 4 * i := by
  induction n generalizing a with
  | zero => rw [fourApart, if_neg (by omega), List.range_zero, List.map_nil]
  | succ n ih =>
      have hstop : a + 4 * (n + 1) = a + 4 + 4 * n := by omega
      rw [fourApart, if_pos (by omega), hstop, ih, List.range_succ_eq_map, List.map_cons,
        List.map_map, Nat.mul_zero, Nat.add_zero]
      congr 1
      apply List.map_congr_left
      intro i _
      change a + 4 + 4 * i = a + 4 * (i + 1)
      omega

/-- To go from address to address in steps of four is to take one word after the other. -/
theorem Encloses.wordsBetween_eq {symbols : List Elf.Symbol} {first last : Word}
    (h : Encloses symbols first last) (ram : Ram) :
    wordsBetween ram first last =
      (fourApart first.toNat last.toNat).map fun a => wordAt ram (BitVec.ofNat 32 a) := by
  have hfirst := h.begins_aligned
  have hlast := h.ends_aligned
  have hordered := BitVec.le_def.mp h.ordered
  have hspan : last.toNat = first.toNat + 4 * ((last.toNat - first.toNat) / 4) := by omega
  rw [hspan, fourApart_eq, List.map_map]
  apply List.map_congr_left
  intro i _
  rw [Function.comp_apply, BitVec.ofNat_add, BitVec.ofNat_toNat, BitVec.setWidth_eq]

theorem AgreeBetween.wordsBetween_eq {first last : Word} {r s : Ram}
    (h : AgreeBetween first last r s) : wordsBetween r first last = wordsBetween s first last := by
  apply List.map_congr_left
  intro i hi
  exact h.wordAt_eq (List.mem_range.mp hi)

theorem wordsBetween?_eq_some_iff {ram : Ram} {first last : Word} {words : List Word} :
    wordsBetween? ram first last = some words ↔
      (first.toNat % 16 = 0 ∧ last.toNat % 4 = 0 ∧ first ≤ last) ∧
        words = wordsBetween ram first last := by
  unfold wordsBetween?
  by_cases hbounds : first.toNat % 16 = 0 ∧ last.toNat % 4 = 0 ∧ first ≤ last
  · rw [if_pos hbounds, Option.some.injEq, and_iff_right hbounds, eq_comm]
    rfl
  · rw [if_neg hbounds]
    simp [hbounds]

theorem extract?_of_encloses {symbols : List Elf.Symbol} {first last : Word}
    (h : Encloses symbols first last) (ram : Ram) :
    extract? symbols ram = some (wordsBetween ram first last) := by
  rw [extract?, lastValue?_eq_some_iff.mpr h.begins, lastValue?_eq_some_iff.mpr h.ends]
  exact wordsBetween?_eq_some_iff.mpr ⟨⟨h.begins_aligned, h.ends_aligned, h.ordered⟩, rfl⟩

theorem encloses_of_extract? {symbols : List Elf.Symbol} {ram : Ram} {words : List Word}
    (h : extract? symbols ram = some words) : ∃ first last, Encloses symbols first last := by
  unfold extract? at h
  split at h
  · rename_i first last hfirst hlast
    obtain ⟨⟨hbegins, hends, hordered⟩, -⟩ := wordsBetween?_eq_some_iff.mp h
    exact ⟨first, last, lastValue?_eq_some_iff.mp hfirst, lastValue?_eq_some_iff.mp hlast,
      hbegins, hends, hordered⟩
  · exact nomatch h

/--
There is a signature exactly if both names occur among the symbols, the first address is a multiple
of sixteen and the other one a multiple of four that is not below it, each being that of the last
symbol with its name; a single pass over the symbols finds them. The words of the signature are then
those in memory from the first address up to the last one, in order and four apart, with the least
significant byte first. Every byte of a word has its address before the last one, without going past
the end of the address space, and the signature is the same for memories that agree on these bytes.
-/
theorem extract?_enclosed (symbols : List Elf.Symbol) (ram : Ram) :
    (∀ first last, boundsOf symbols = ⟨some first, some last⟩ ↔
      IsLastValue symbols beginName first ∧ IsLastValue symbols endName last) ∧
    ((∃ words, extract? symbols ram = some words) ↔
      ∃ first last, Encloses symbols first last) ∧
    ∀ first last, Encloses symbols first last → ∃ words, extract? symbols ram = some words ∧
      words.length = (last.toNat - first.toNat) / 4 ∧
      words = (fourApart first.toNat last.toNat).map (fun a => wordAt ram (BitVec.ofNat 32 a)) ∧
      (∀ i < words.length, ∃ w, words[i]? = some w ∧
        w.toNat = littleEndian ram.get (first + BitVec.ofNat 32 (4 * i)) 4 ∧
        ∀ k < 4, (first + BitVec.ofNat 32 (4 * i + k)).toNat = first.toNat + (4 * i + k) ∧
          first.toNat + (4 * i + k) < last.toNat) ∧
      ∀ other, AgreeBetween first last other ram → extract? symbols other = some words := by
  refine ⟨fun first last => boundsOf_eq_iff, ⟨?_, ?_⟩, ?_⟩
  · rintro ⟨words, h⟩
    exact encloses_of_extract? h
  · rintro ⟨first, last, h⟩
    exact ⟨_, extract?_of_encloses h ram⟩
  · intro first last h
    refine ⟨wordsBetween ram first last, extract?_of_encloses h ram,
      length_wordsBetween ram first last, h.wordsBetween_eq ram, ?_, ?_⟩
    · intro i hi
      rw [length_wordsBetween] at hi
      exact ⟨_, getElem?_wordsBetween ram hi, toNat_wordAt ram _,
        fun k hk => toNat_wordAddress hi hk⟩
    · intro other hagree
      rw [extract?_of_encloses h other, hagree.wordsBetween_eq]

/-- Earlier addresses, a symbol without a name, and a value that does not fit in an address. -/
def crowded : List Elf.Symbol :=
  [⟨some endName, 0x10⟩, ⟨some beginName, 0x20⟩, ⟨some beginName, 0xFFFFFFF0⟩, ⟨none, 0⟩,
    ⟨some endName, 0x1FFFFFFFC⟩, ⟨some "main", 0x40⟩]

theorem encloses_crowded : Encloses crowded 0xFFFFFFF0 0xFFFFFFFC where
  begins := lastValue?_eq_some_iff.mp rfl
  ends := lastValue?_eq_some_iff.mp rfl
  begins_aligned := rfl
  ends_aligned := rfl
  ordered := by decide

theorem extract?_enclosed_crowded :
    Encloses crowded 0xFFFFFFF0 0xFFFFFFFC ∧
    AgreeBetween 0xFFFFFFF0 0xFFFFFFFC (Ram.empty.write 0xFFFFFFF8 [1, 2, 3, 4])
      (Ram.empty.write 0xFFFFFFF8 [1, 2, 3, 4, 5]) ∧
    ∃ words, extract? crowded (Ram.empty.write 0xFFFFFFF8 [1, 2, 3, 4, 5]) = some words ∧
      words.length = 3 ∧ words[2]? = some 0x04030201 ∧
      extract? crowded (Ram.empty.write 0xFFFFFFF8 [1, 2, 3, 4]) = some words := by
  -- the one byte that differs stands at the last address
  have hagree : AgreeBetween 0xFFFFFFF0 0xFFFFFFFC (Ram.empty.write 0xFFFFFFF8 [1, 2, 3, 4])
      (Ram.empty.write 0xFFFFFFF8 [1, 2, 3, 4, 5]) := by
    intro a hfirst hlast
    have hother : (a - 0xFFFFFFF8).toNat ≠ 4 := by bv_omega
    rw [Ram.get_write _ _ _ _ (by decide), Ram.get_write _ _ _ _ (by decide)]
    congr 1
    generalize (a - 0xFFFFFFF8).toNat = distance at hother
    match distance with
    | 0 | 1 | 2 | 3 | _ + 5 => rfl
    | 4 => exact absurd rfl hother
  obtain ⟨-, -, hwords⟩ :=
    extract?_enclosed crowded (Ram.empty.write 0xFFFFFFF8 [1, 2, 3, 4, 5])
  obtain ⟨words, hextract, hlength, -, hplaces, hsame⟩ := hwords _ _ encloses_crowded
  obtain ⟨w, hw, hvalue, -⟩ := hplaces 2 (by rw [hlength]; decide)
  have hread : (Ram.empty.write 0xFFFFFFF8 [1, 2, 3, 4, 5]).read 0xFFFFFFF8 4 = [1, 2, 3, 4] :=
    Ram.read_write (k := 0) _ 0xFFFFFFF8 (by decide) (by decide)
  have hword : w = 0x04030201 := by
    have hplace : (0xFFFFFFF0 : Word) + BitVec.ofNat 32 (4 * 2) = 0xFFFFFFF8 := by decide
    rw [hplace, ← toNat_wordAt, BitVec.toNat_inj, wordAt, hread] at hvalue
    rw [hvalue]
    decide
  exact ⟨encloses_crowded, hagree, words, hextract, hlength, hw.trans (congrArg some hword),
    hsame _ hagree⟩

end Rv32.Signature
