import Rv32.Device.Frame
import Rv32.Proofs.Memory.ByteOrder

/-! # The picture as an array of bytes and of pixels

The guest sees the picture as an array of bytes, and whoever shows it as rows of
pixels. An access copies bytes, wherever it begins and ends. The same access can
be made on the array of pixels: byte by byte, the pixel that holds the byte is
split, one of its four bytes is taken or replaced, and the pixel is put together
again. A snapshot is the picture that earlier accesses have made, and later ones
do not reach it.
-/

namespace Rv32

def Word.withByte (w : Word) (i : Nat) (b : Byte) : Word :=
  ofLeBytes 32 ((leBytes 4 w).set i b)

namespace Frame

def content (f : Frame) : List Byte :=
  f.bytesFrom 0 f.byteCount

/-! ## Accesses to bytes -/

theorem getElem?_content (f : Frame) (k : Nat) :
    f.content[k]? = if k < f.byteCount then some (f.bytes.get k) else none := by
  rw [content, getElem?_bytesFrom, Nat.zero_add]

@[simp] theorem length_content (f : Frame) : f.content.length = f.byteCount :=
  length_bytesFrom f 0 f.byteCount

theorem bytesFrom_eq {f : Frame} {i n : Nat} (h : i + n ≤ f.byteCount) :
    f.bytesFrom i n = (f.content.drop i).take n := by
  apply List.ext_getElem?
  intro k
  rw [getElem?_bytesFrom, List.getElem?_take, List.getElem?_drop, getElem?_content]
  by_cases hk : k < n
  · rw [if_pos hk, if_pos hk, if_pos (by omega)]
  · rw [if_neg hk, if_neg hk]

@[simp] theorem width_writeFrom (f : Frame) (i : Nat) (bytes : List Byte) :
    (f.writeFrom i bytes).width = f.width := by
  induction bytes generalizing f i with
  | nil => rfl
  | cons b rest ih => rw [writeFrom, ih]

@[simp] theorem height_writeFrom (f : Frame) (i : Nat) (bytes : List Byte) :
    (f.writeFrom i bytes).height = f.height := by
  induction bytes generalizing f i with
  | nil => rfl
  | cons b rest ih => rw [writeFrom, ih]

/-- A write puts its bytes in the place of as many others. -/
theorem content_writeFrom {f : Frame} {i : Nat} {bytes : List Byte}
    (h : i + bytes.length ≤ f.byteCount) :
    (f.writeFrom i bytes).content =
      f.content.take i ++ bytes ++ f.content.drop (i + bytes.length) := by
  apply List.ext_getElem?
  intro k
  rw [getElem?_content, byteCount_writeFrom, get_writeFrom]
  have hbefore : (f.content.take i).length = i := by
    rw [List.length_take, length_content]
    omega
  have hupto : (f.content.take i ++ bytes).length = i + bytes.length := by
    rw [List.length_append, hbefore]
  -- position `k` is before the write, in it or behind it
  by_cases hleft : k < i
  · rw [List.append_assoc, List.getElem?_append_left (by omega), List.getElem?_take_of_lt hleft,
      getElem?_content, if_neg (show ¬ i ≤ k by omega)]
  by_cases hmiddle : k < i + bytes.length
  · rw [List.getElem?_append_left (by omega), List.getElem?_append_right (by omega), hbefore,
      if_pos (by omega), if_pos (by omega), List.getElem?_eq_getElem (by omega)]
    rfl
  · rw [List.getElem?_append_right (by omega), hupto, List.getElem?_drop, getElem?_content,
      if_pos (show i ≤ k by omega), List.getElem?_eq_none (by omega),
      show i + bytes.length + (k - (i + bytes.length)) = k by omega]
    rfl

/-! ## Pixels -/

theorem leBytes_pixelAt (f : Frame) (i : Nat) :
    leBytes 4 (f.pixelAt i) = f.bytesFrom (4 * i) 4 := by
  have hwidth : 8 * (f.bytesFrom (4 * i) 4).length ≤ 32 := by simp
  have hbytes := leBytes_ofLeBytes hwidth
  rw [length_bytesFrom] at hbytes
  exact hbytes

theorem getElem?_pixels (f : Frame) (i : Nat) :
    f.pixels[i]? = if i < f.pixelCount then some (f.pixelAt i) else none := by
  unfold pixels
  rw [List.getElem?_map]
  by_cases hi : i < f.pixelCount
  · rw [List.getElem?_range hi, if_pos hi]
    rfl
  · rw [List.getElem?_eq_none (by simpa using hi), if_neg hi]
    rfl

/-- The rows of the picture follow one another. -/
theorem number_lt {f : Frame} {x y : Nat} (hx : x < f.width) (hy : y < f.height) :
    y * f.width + x < f.pixelCount := by
  have hrows : (y + 1) * f.width ≤ f.height * f.width := Nat.mul_le_mul_right f.width hy
  rw [Nat.succ_mul, Nat.mul_comm f.height] at hrows
  unfold pixelCount
  omega

theorem pixel?_of_inside {f : Frame} {x y : Nat} (hx : x < f.width) (hy : y < f.height) :
    ∃ p, f.pixel? x y = some p ∧ f.pixels[y * f.width + x]? = some p ∧
      leBytes 4 p = (f.content.drop (4 * (y * f.width + x))).take 4 := by
  have hnumber := number_lt hx hy
  refine ⟨f.pixelAt (y * f.width + x), if_pos ⟨hx, hy⟩, ?_, ?_⟩
  · rw [getElem?_pixels, if_pos hnumber]
  · rw [leBytes_pixelAt]
    apply bytesFrom_eq
    unfold byteCount
    omega

theorem length_pixels (f : Frame) : f.pixels.length = f.width * f.height := by
  rw [pixels, List.length_map, List.length_range, pixelCount]

theorem pixel?_eq (f : Frame) (x y : Nat) :
    f.pixel? x y =
      if x < f.width ∧ y < f.height then f.pixels[y * f.width + x]? else none := by
  unfold pixel?
  by_cases hinside : x < f.width ∧ y < f.height
  · rw [if_pos hinside, if_pos hinside, getElem?_pixels, if_pos (number_lt hinside.1 hinside.2)]
  · rw [if_neg hinside, if_neg hinside]

/-- Every pixel is in some column of some row. -/
theorem getElem?_pixels_eq_pixel? {f : Frame} {i : Nat} (hi : i < f.width * f.height) :
    f.pixels[i]? = f.pixel? (i % f.width) (i / f.width) := by
  have hpos : 0 < f.width := Nat.pos_of_mul_pos_right (Nat.zero_lt_of_lt hi)
  have hinside : i % f.width < f.width ∧ i / f.width < f.height :=
    ⟨Nat.mod_lt i hpos, Nat.div_lt_of_lt_mul hi⟩
  rw [pixel?_eq, if_pos hinside, Nat.mul_comm, Nat.div_add_mod]

/-! ## Accesses to the bytes of pixels -/

/-- The `n` bytes from position `i` on, each taken from the pixel that holds it. -/
def readPixels (pixels : List Word) (i : Nat) : Nat → List Byte
  | 0 => []
  | n + 1 =>
      (leBytes 4 (pixels.getD (i / 4) 0)).getD (i % 4) 0 :: readPixels pixels (i + 1) n

def writePixels (pixels : List Word) (i : Nat) : List Byte → List Word
  | [] => pixels
  | b :: rest => writePixels (pixels.modify (i / 4) fun p => p.withByte (i % 4) b) (i + 1) rest

theorem readPixels_pixels {f : Frame} {i n : Nat} (h : i + n ≤ f.byteCount) :
    readPixels f.pixels i n = f.bytesFrom i n := by
  induction n generalizing i with
  | zero => rfl
  | succ n ih =>
      have hpixel : i / 4 < f.pixelCount := by
        unfold byteCount at h
        omega
      have hplace : 4 * (i / 4) + i % 4 = i := Nat.div_add_mod i 4
      rw [readPixels, bytesFrom, ih (by omega), List.getD_eq_getElem?_getD,
        List.getD_eq_getElem?_getD, getElem?_pixels, if_pos hpixel, Option.getD_some,
        leBytes_pixelAt, getElem?_bytesFrom, if_pos (Nat.mod_lt i (by decide)), hplace,
        Option.getD_some]

/-- To write a byte is to replace it in the pixel that holds it. -/
theorem pixelAt_set (f : Frame) (i j : Nat) (b : Byte) :
    { f with bytes := f.bytes.set i b }.pixelAt j =
      if i / 4 = j then (f.pixelAt j).withByte (i % 4) b else f.pixelAt j := by
  -- the same about the four bytes of the pixel, which are known one by one
  have hbytes : { f with bytes := f.bytes.set i b }.bytesFrom (4 * j) 4 =
      if i / 4 = j then (f.bytesFrom (4 * j) 4).set (i % 4) b else f.bytesFrom (4 * j) 4 := by
    apply List.ext_getElem?
    intro k
    have hlength := length_bytesFrom f (4 * j) 4
    rw [getElem?_bytesFrom, SparseBytes.get_set]
    by_cases hj : i / 4 = j
    · rw [if_pos hj, List.getElem?_set, hlength, getElem?_bytesFrom]
      by_cases hk : i % 4 = k
      · have hplace : i = 4 * j + k := by omega
        have hlt : i % 4 < 4 := Nat.mod_lt i (by decide)
        rw [if_pos hplace, if_pos hk, if_pos hlt, if_pos (hk ▸ hlt)]
      · have hplace : ¬ i = 4 * j + k := by omega
        rw [if_neg hplace, if_neg hk]
    · rw [if_neg hj, getElem?_bytesFrom]
      by_cases hk : k < 4
      · have hplace : ¬ i = 4 * j + k := by omega
        rw [if_pos hk, if_pos hk, if_neg hplace]
      · rw [if_neg hk, if_neg hk]
  unfold Word.withByte
  rw [leBytes_pixelAt]
  unfold pixelAt
  rw [hbytes]
  split
  · rfl
  · rfl

theorem pixels_set (f : Frame) (i : Nat) (b : Byte) :
    { f with bytes := f.bytes.set i b }.pixels =
      f.pixels.modify (i / 4) fun p => p.withByte (i % 4) b := by
  apply List.ext_getElem?
  intro j
  rw [List.getElem?_modify, getElem?_pixels, getElem?_pixels, pixelAt_set]
  change (if j < f.pixelCount then _ else _) = _
  by_cases hj : j < f.pixelCount
  · rw [if_pos hj, if_pos hj]
    split
    · rfl
    · rfl
  · rw [if_neg hj, if_neg hj]
    rfl

theorem pixels_writeFrom (f : Frame) (i : Nat) (bytes : List Byte) :
    (f.writeFrom i bytes).pixels = writePixels f.pixels i bytes := by
  induction bytes generalizing f i with
  | nil => rfl
  | cons b rest ih => rw [writeFrom, ih, pixels_set, writePixels]

/-! ## Accesses that fit, and others -/

theorem read_eq_ok_iff {f : Frame} {offset : Word} {n : Nat} {bytes : List Byte} :
    f.read offset n = .ok bytes ↔
      offset.toNat + n ≤ f.byteCount ∧ bytes = f.bytesFrom offset.toNat n := by
  unfold read
  by_cases h : offset.toNat + n ≤ f.byteCount
  · rw [if_pos h, Except.ok.injEq, eq_comm, and_iff_right h]
  · rw [if_neg h]
    simp [h]

theorem write_eq_ok_iff {f next : Frame} {offset : Word} {bytes : List Byte} :
    f.write offset bytes = .ok next ↔
      offset.toNat + bytes.length ≤ f.byteCount ∧ next = f.writeFrom offset.toNat bytes := by
  unfold write
  by_cases h : offset.toNat + bytes.length ≤ f.byteCount
  · rw [if_pos h, Except.ok.injEq, eq_comm, and_iff_right h]
  · rw [if_neg h]
    simp [h]

theorem bus_read (f : Frame) (offset : Word) (n : Nat) : (Bus.read f offset n).2 = f := by
  simp only [Bus.read]
  split
  · rfl
  · rfl

theorem bus_write_of_fits {f : Frame} {offset : Word} {bytes : List Byte}
    (h : offset.toNat + bytes.length ≤ f.byteCount) :
    Bus.write f offset bytes = f.writeFrom offset.toNat bytes := by
  simp only [Bus.write, write_eq_ok_iff.mpr ⟨h, rfl⟩]

theorem bus_write_of_error {f : Frame} {offset : Word} {bytes : List Byte} {e : AccessError}
    (h : f.write offset bytes = .error e) : Bus.write f offset bytes = f := by
  simp only [Bus.write, h]

theorem bus_write_of_not_fits {f : Frame} {offset : Word} {bytes : List Byte}
    (h : ¬ offset.toNat + bytes.length ≤ f.byteCount) : Bus.write f offset bytes = f :=
  bus_write_of_error (if_neg h)

/-! ## Snapshots -/

inductive Event where
  | access (a : Access)
  | snapshot
  deriving DecidableEq

def after (f : Frame) : Event → Frame
  | .access a => a.apply f
  | .snapshot => f

def play (f : Frame) : List Event → Frame
  | [] => f
  | e :: rest => (f.after e).play rest

def snapshots (f : Frame) : List Event → List Frame
  | [] => []
  | .snapshot :: rest => f :: f.snapshots rest
  | .access a :: rest => (a.apply f).snapshots rest

/-- What an event makes of an array of bytes: a write that fits replaces bytes, and that is all. -/
def Event.stored (content : List Byte) : Event → List Byte
  | access (.write offset bytes) =>
      if offset.toNat + bytes.length ≤ content.length then
        content.take offset.toNat ++ bytes ++ content.drop (offset.toNat + bytes.length)
      else content
  | _ => content

theorem content_after (f : Frame) (e : Event) : (f.after e).content = e.stored f.content := by
  cases e with
  | snapshot => rfl
  | access a =>
      cases a with
      | read offset n => exact congrArg content (f.bus_read offset n)
      | write offset bytes =>
          simp only [after, Access.apply, Event.stored, length_content]
          by_cases h : offset.toNat + bytes.length ≤ f.byteCount
          · rw [if_pos h, bus_write_of_fits h, content_writeFrom h]
          · rw [if_neg h, bus_write_of_not_fits h]

theorem size_after (f : Frame) (e : Event) :
    (f.after e).width = f.width ∧ (f.after e).height = f.height := by
  cases e with
  | snapshot => exact ⟨rfl, rfl⟩
  | access a =>
      cases a with
      | read offset n =>
          simp only [after, Access.apply, bus_read, and_self]
      | write offset bytes =>
          simp only [after, Access.apply]
          by_cases h : offset.toNat + bytes.length ≤ f.byteCount
          · rw [bus_write_of_fits h]
            exact ⟨f.width_writeFrom _ bytes, f.height_writeFrom _ bytes⟩
          · rw [bus_write_of_not_fits h]
            exact ⟨rfl, rfl⟩

/-- After any run the picture shows the bytes that the writes of the run have left. -/
theorem content_play (f : Frame) (es : List Event) :
    (f.play es).content = es.foldl Event.stored f.content := by
  induction es generalizing f with
  | nil => rfl
  | cons e rest ih => rw [play, ih, content_after, List.foldl_cons]

theorem size_play (f : Frame) (es : List Event) :
    (f.play es).width = f.width ∧ (f.play es).height = f.height := by
  induction es generalizing f with
  | nil => exact ⟨rfl, rfl⟩
  | cons e rest ih =>
      obtain ⟨hwidth, hheight⟩ := f.size_after e
      rw [play, (ih (f.after e)).1, (ih (f.after e)).2]
      exact ⟨hwidth, hheight⟩

theorem snapshots_append (f : Frame) (es later : List Event) :
    f.snapshots (es ++ later) = f.snapshots es ++ (f.play es).snapshots later := by
  induction es generalizing f with
  | nil => rfl
  | cons e rest ih =>
      cases e with
      | snapshot =>
          rw [List.cons_append, snapshots, snapshots, ih, play, List.cons_append]
          rfl
      | access a =>
          rw [List.cons_append, snapshots, snapshots, ih, play]
          rfl

/-! ## The picture -/

/--
The picture is an array of four bytes for each pixel. A read or a write succeeds exactly if it ends
within the array. A read returns the bytes there, and a write puts its bytes in the place of those;
both do so as well if they take the pixels apart that hold the bytes, one byte after the other. An
access that fails changes nothing. The pixel in column `x` of row `y` is the word that stands at
position `4 * (y * width + x)`, least significant byte first, and there is none outside. A snapshot
shows what the writes before it have left, whatever is done after it.
-/
theorem accesses_and_snapshots (f : Frame) :
    f.content.length = 4 * (f.width * f.height) ∧
    (∀ (offset : Word) n,
      ((∃ bytes, f.read offset n = .ok bytes) ↔ offset.toNat + n ≤ 4 * (f.width * f.height)) ∧
      (∀ bytes, f.read offset n = .ok bytes → bytes = (f.content.drop offset.toNat).take n ∧
        bytes = readPixels f.pixels offset.toNat n) ∧
      (Bus.read f offset n).2 = f) ∧
    (∀ (offset : Word) bytes,
      ((∃ next, f.write offset bytes = .ok next) ↔
        offset.toNat + bytes.length ≤ 4 * (f.width * f.height)) ∧
      (∀ next, f.write offset bytes = .ok next → next.width = f.width ∧ next.height = f.height ∧
        next.content = f.content.take offset.toNat ++ bytes ++
          f.content.drop (offset.toNat + bytes.length) ∧
        next.pixels = writePixels f.pixels offset.toNat bytes) ∧
      (∀ e, f.write offset bytes = .error e → Bus.write f offset bytes = f)) ∧
    (∀ x y, if x < f.width ∧ y < f.height then
        ∃ p, f.pixel? x y = some p ∧ f.pixels[y * f.width + x]? = some p ∧
          leBytes 4 p = (f.content.drop (4 * (y * f.width + x))).take 4
      else f.pixel? x y = none) ∧
    ∀ es later, ∃ taken : Frame,
      f.snapshots (es ++ .snapshot :: later) =
        f.snapshots es ++ taken :: (f.play es).snapshots later ∧
      taken.width = f.width ∧ taken.height = f.height ∧
      taken.content = es.foldl Event.stored f.content := by
  refine ⟨f.length_content, ?_, ?_, ?_, ?_⟩
  · intro offset n
    refine ⟨⟨?_, fun h => ⟨_, read_eq_ok_iff.mpr ⟨h, rfl⟩⟩⟩, ?_, f.bus_read offset n⟩
    · rintro ⟨bytes, hread⟩
      exact (read_eq_ok_iff.mp hread).1
    · intro bytes hread
      obtain ⟨hfits, rfl⟩ := read_eq_ok_iff.mp hread
      exact ⟨bytesFrom_eq hfits, (readPixels_pixels hfits).symm⟩
  · intro offset bytes
    refine ⟨⟨?_, fun h => ⟨_, write_eq_ok_iff.mpr ⟨h, rfl⟩⟩⟩, ?_, fun e => bus_write_of_error⟩
    · rintro ⟨next, hwrite⟩
      exact (write_eq_ok_iff.mp hwrite).1
    · intro next hwrite
      obtain ⟨hfits, rfl⟩ := write_eq_ok_iff.mp hwrite
      exact ⟨f.width_writeFrom _ bytes, f.height_writeFrom _ bytes, content_writeFrom hfits,
        f.pixels_writeFrom _ bytes⟩
  · intro x y
    split
    · rename_i h
      exact pixel?_of_inside h.1 h.2
    · rename_i h
      exact if_neg h
  · intro es later
    obtain ⟨hwidth, hheight⟩ := f.size_play es
    exact ⟨f.play es, f.snapshots_append es _, hwidth, hheight, f.content_play es⟩

theorem content_black (width height : Nat) :
    (black width height).content = zeroBytes (4 * (width * height)) := by
  apply List.ext_getElem?
  intro k
  have hzero : (black width height).bytes.get k = 0 := SparseBytes.get_empty k
  rw [getElem?_content, zeroBytes, List.getElem?_replicate, hzero]
  rfl

def acrossPixels : List Event :=
  [.access (.write 3 [0xAA, 0xBB]), .access (.write 6 [1, 2, 3, 4])]

theorem accesses_and_snapshots_across_pixels :
    ∃ next, (black 2 1).write 3 [0xAA, 0xBB] = .ok next ∧
      next.content = [0, 0, 0, 0xAA, 0xBB, 0, 0, 0] ∧
      (∃ p, next.pixel? 1 0 = some p ∧ leBytes 4 p = [0xBB, 0, 0, 0]) ∧
      (∃ bytes, next.read 2 3 = .ok bytes ∧ bytes = [0, 0xAA, 0xBB]) ∧
      next.write 6 [1, 2, 3, 4] = .error (.outOfBounds 6 4) ∧
      Bus.write next 6 [1, 2, 3, 4] = next ∧
      ∃ first last, (black 2 1).snapshots (.snapshot :: acrossPixels ++ [.snapshot]) =
          [first, last] ∧
        first.content = zeroBytes 8 ∧ last.content = next.content := by
  have hblack : (black 2 1).content = zeroBytes 8 := content_black 2 1
  obtain ⟨-, -, hwrites, -, hsnapshots⟩ := accesses_and_snapshots (black 2 1)
  obtain ⟨hfits, hwritten, -⟩ := hwrites 3 [0xAA, 0xBB]
  obtain ⟨next, hnext⟩ := hfits.mpr (by decide)
  obtain ⟨hwidth, hheight, hcontent, -⟩ := hwritten next hnext
  have hbytes : next.content = [0, 0, 0, 0xAA, 0xBB, 0, 0, 0] := by
    rw [hcontent, hblack]
    decide
  obtain ⟨-, hreads, hrefused, hpixels, -⟩ := accesses_and_snapshots next
  have hpixel := hpixels 1 0
  have hinside : 1 < next.width ∧ 0 < next.height := by
    rw [hwidth, hheight]
    decide
  rw [if_pos hinside, hwidth, hbytes] at hpixel
  obtain ⟨p, hp, -, hword⟩ := hpixel
  have hsize : 4 * (next.width * next.height) = 8 := by
    rw [hwidth, hheight]
    rfl
  obtain ⟨bytes, hread⟩ := (hreads 2 3).1.mpr (by rw [hsize]; decide)
  have herror : next.write 6 [1, 2, 3, 4] = .error (.outOfBounds 6 4) := by
    refine if_neg ?_
    rw [byteCount, pixelCount, hsize]
    decide
  obtain ⟨first, hfirst, -, -, hfirstContent⟩ := hsnapshots [] (acrossPixels ++ [.snapshot])
  obtain ⟨last, hlast, -, -, hlastContent⟩ := hsnapshots acrossPixels []
  refine ⟨next, hnext, hbytes, ⟨p, hp, hword.trans (by decide)⟩, ⟨bytes, hread, ?_⟩, herror,
    (hrefused 6 [1, 2, 3, 4]).2.2 _ herror, first, last, ?_, hfirstContent.trans hblack, ?_⟩
  · rw [((hreads 2 3).2.1 bytes hread).1, hbytes]
    decide
  · exact hfirst.trans (congrArg (first :: ·) hlast)
  · rw [hlastContent, hblack, hbytes]
    decide

end Frame

end Rv32
