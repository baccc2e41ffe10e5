import Mathlib.Data.List.Basic
import Rv32.Ppm
import Rv32.Proofs.Device.Frame

/-!
# What a picture file keeps of the picture

A picture file is a header of text and a body of bytes. The header has no fixed
length and the body may hold any bytes, so where one ends and the other begins
has to be read off the header itself: a dimension is a run of digits, and the
byte behind it is not a digit. What remains is three bytes for each pixel, and
these are the pixel without its top byte.
-/

namespace Rv32.Ppm

/-! ## Texts as bytes -/

def bytesOf (s : String) : List Byte :=
  s.toUTF8.toList.map UInt8.toBitVec

theorem toList_loop_eq (bytes : ByteArray) (i : Nat) (front : List UInt8) :
    ByteArray.toList.loop bytes i front = front.reverse ++ bytes.data.toList.drop i := by
  fun_induction ByteArray.toList.loop bytes i front with
  | case1 i front hi ih =>
      have hlength : i < bytes.data.toList.length := hi
      have hget : bytes.get! i = bytes.data.toList[i] := getElem!_pos bytes.data i hi
      rw [ih, hget, List.drop_eq_getElem_cons hlength, List.reverse_cons, List.append_assoc,
        List.singleton_append]
  | case2 i front hi =>
      have hlength : bytes.data.toList.length ≤ i := Nat.le_of_not_lt hi
      rw [List.drop_eq_nil_of_le hlength, List.append_nil]

theorem bytesOf_eq (s : String) :
    bytesOf s = s.toByteArray.data.toList.map UInt8.toBitVec := by
  rw [bytesOf, String.toUTF8_eq_toByteArray, ByteArray.toList, toList_loop_eq,
    List.reverse_nil, List.nil_append, List.drop_zero]

@[simp] theorem bytesOf_append (s t : String) : bytesOf (s ++ t) = bytesOf s ++ bytesOf t := by
  rw [bytesOf_eq, bytesOf_eq, bytesOf_eq, String.toByteArray_append, ByteArray.data_append,
    Array.toList_append, List.map_append]

/-! ## Numbers in decimal -/

def digit (d : Nat) : Byte :=
  BitVec.ofNat 8 (0x30 + d)

/-- The digits of a number, the most significant one first and without zeros before it. -/
def decimal (n : Nat) : List Byte :=
  if n < 10 then [digit n] else decimal (n / 10) ++ [digit (n % 10)]

def valueOf (digits : List Byte) : Nat :=
  digits.foldl (fun value b => 10 * value + (b.toNat - 0x30)) 0

theorem toNat_digit {d : Nat} (h : d < 10) : (digit d).toNat = 0x30 + d := by
  rw [digit, BitVec.toNat_ofNat]
  omega

theorem bytesOf_digitChar {d : Nat} (h : d < 10) :
    bytesOf (String.singleton d.digitChar) = [digit d] := by
  rw [bytesOf_eq]
  revert d
  decide

theorem bytesOf_repr (n : Nat) : bytesOf n.repr = decimal n := by
  induction n using decimal.induct with
  | case1 n h => rw [decimal, if_pos h, Nat.repr_of_lt h, bytesOf_digitChar h]
  | case2 n h ih =>
      have hlast : n % 10 < 10 := Nat.mod_lt n (by decide)
      rw [decimal, if_neg h, Nat.repr_of_ge (Nat.le_of_not_lt h), bytesOf_append, ih,
        bytesOf_digitChar hlast]

theorem valueOf_decimal (n : Nat) : valueOf (decimal n) = n := by
  induction n using decimal.induct with
  | case1 n h =>
      rw [decimal, if_pos h, valueOf, List.foldl_cons, List.foldl_nil, toNat_digit h]
      omega
  | case2 n h ih =>
      have hlast : n % 10 < 10 := Nat.mod_lt n (by decide)
      unfold valueOf at ih
      rw [decimal, if_neg h, valueOf, List.foldl_append, ih, List.foldl_cons, List.foldl_nil,
        toNat_digit hlast]
      omega

theorem decimal_inj {m n : Nat} (h : decimal m = decimal n) : m = n := by
  rw [← valueOf_decimal m, h, valueOf_decimal]

def isDigit (b : Byte) : Bool :=
  0x30 ≤ b.toNat ∧ b.toNat < 0x3A

theorem isDigit_digit {d : Nat} (h : d < 10) : isDigit (digit d) := by
  rw [isDigit, toNat_digit h, decide_eq_true_eq]
  omega

theorem isDigit_of_mem_decimal {n : Nat} {b : Byte} (h : b ∈ decimal n) : isDigit b := by
  induction n using decimal.induct with
  | case1 n hn =>
      rw [decimal, if_pos hn, List.mem_singleton] at h
      rw [h, isDigit_digit hn]
  | case2 n hn ih =>
      have hlast : n % 10 < 10 := Nat.mod_lt n (by decide)
      rw [decimal, if_neg hn, List.mem_append, List.mem_singleton] at h
      cases h with
      | inl h => exact ih h
      | inr h => rw [h, isDigit_digit hlast]

/-- A row of digits ends at the first byte that is none. -/
theorem takeWhile_decimal (n : Nat) {stop : Byte} (rest : List Byte) (h : isDigit stop = false) :
    (decimal n ++ stop :: rest).takeWhile isDigit = decimal n := by
  rw [List.takeWhile_append_of_pos fun b => isDigit_of_mem_decimal,
    List.takeWhile_cons_of_neg (by rw [h]; decide), List.append_nil]

theorem decimal_append_inj {m n : Nat} {stop : Byte} {rest others : List Byte}
    (hstop : isDigit stop = false)
    (h : decimal m ++ stop :: rest = decimal n ++ stop :: others) :
    m = n ∧ rest = others := by
  have hdigits : decimal m = decimal n := by
    rw [← takeWhile_decimal m rest hstop, h, takeWhile_decimal n others hstop]
  rw [hdigits, List.append_right_inj, List.cons_inj_right] at h
  exact ⟨decimal_inj hdigits, h⟩

/-! ## The header -/

def magic : List Byte := [0x50, 0x36, 0x0A]

def maximum : List Byte := [0x32, 0x35, 0x35]

theorem header_eq (width height : Nat) :
    header width height =
      magic ++ (decimal width ++ 0x20 :: (decimal height ++ 0x0A :: (maximum ++ [0x0A]))) := by
  have hmagic : bytesOf "P6\n" = magic := by
    rw [bytesOf_eq]
    rfl
  have hspace : bytesOf " " = [0x20] := by
    rw [bytesOf_eq]
    rfl
  have hend : bytesOf "\n255\n" = 0x0A :: (maximum ++ [0x0A]) := by
    rw [bytesOf_eq]
    rfl
  change bytesOf ("P6\n" ++ width.repr ++ " " ++ height.repr ++ "\n255\n") = _
  simp only [bytesOf_append, bytesOf_repr, hmagic, hspace, hend, List.append_assoc,
    List.cons_append, List.nil_append]

/-- A file starts with one header only, whatever the bytes behind it are. -/
theorem header_append_inj {w w' h h' : Nat} {body body' : List Byte}
    (heq : header w h ++ body = header w' h' ++ body') : w = w' ∧ h = h' ∧ body = body' := by
  -- the width ends at the space, the height at the end of its line, and the rest is always the same
  simp only [header_eq, List.append_assoc, List.cons_append, List.append_cancel_left_eq] at heq
  obtain ⟨hwidth, hrest⟩ := decimal_append_inj (by decide) heq
  obtain ⟨hheight, hbody⟩ := decimal_append_inj (by decide) hrest
  simp only [List.append_cancel_left_eq, List.cons.injEq, true_and] at hbody
  exact ⟨hwidth, hheight, hbody⟩

/-! ## The body -/

def rgb (pixel : Word) : BitVec 24 :=
  pixel.extractLsb' 0 24

@[simp] theorem length_colors (pixel : Word) : (colors pixel).length = 3 :=
  rfl

theorem rgb_eq_append (p : Word) :
    rgb p = p.extractLsb' 16 8 ++ (p.extractLsb' 8 8 ++ p.extractLsb' 0 8) := by
  rw [BitVec.extractLsb'_append_extractLsb'_eq_extractLsb' (by decide),
    BitVec.extractLsb'_append_extractLsb'_eq_extractLsb' (by decide)]
  rfl

theorem colors_eq_of_rgb (p : Word) :
    colors p = [(rgb p).extractLsb' 16 8, (rgb p).extractLsb' 8 8, (rgb p).extractLsb' 0 8] := by
  unfold rgb colors
  rw [BitVec.extractLsb'_extractLsb'_of_le (by decide),
    BitVec.extractLsb'_extractLsb'_of_le (by decide),
    BitVec.extractLsb'_extractLsb'_of_le (by decide)]

theorem colors_eq_iff (p q : Word) : colors p = colors q ↔ rgb p = rgb q := by
  constructor
  · intro h
    simp only [colors, List.cons.injEq, and_true] at h
    obtain ⟨hred, hgreen, hblue⟩ := h
    rw [rgb_eq_append, rgb_eq_append, hred, hgreen, hblue]
  · intro h
    rw [colors_eq_of_rgb, colors_eq_of_rgb, h]

theorem length_flatMap_colors (pixels : List Word) :
    (pixels.flatMap colors).length = 3 * pixels.length := by
  induction pixels with
  | nil => rfl
  | cons p rest ih =>
      rw [List.flatMap_cons, List.length_append, ih, length_colors, List.length_cons]
      omega

theorem slice_flatMap_colors {pixels : List Word} {i : Nat} {p : Word} (h : pixels[i]? = some p) :
    ((pixels.flatMap colors).drop (3 * i)).take 3 = colors p := by
  induction pixels generalizing i with
  | nil => simp at h
  | cons q rest ih =>
      rw [List.flatMap_cons]
      cases i with
      | zero =>
          rw [List.getElem?_cons_zero, Option.some.injEq] at h
          rw [Nat.mul_zero, List.drop_zero, List.take_left' (length_colors q), h]
      | succ i =>
          rw [List.getElem?_cons_succ] at h
          rw [Nat.mul_succ, Nat.add_comm, ← List.drop_drop, List.drop_left' (length_colors q), ih h]

/-- As every pixel has as many bytes as another, the bytes can be given back to their pixels. -/
theorem flatMap_colors_eq_iff (ps qs : List Word) :
    ps.flatMap colors = qs.flatMap colors ↔ ps.map rgb = qs.map rgb := by
  induction ps generalizing qs with
  | nil =>
      cases qs with
      | nil => exact ⟨fun _ => rfl, fun _ => rfl⟩
      | cons q others => simp [colors]
  | cons p rest ih =>
      cases qs with
      | nil => simp [colors]
      | cons q others =>
          rw [List.flatMap_cons, List.flatMap_cons, List.map_cons, List.map_cons, List.cons.injEq,
            ← colors_eq_iff, ← ih]
          constructor
          · intro h
            exact List.append_inj h rfl
          · rintro ⟨hcolors, hrest⟩
            rw [hcolors, hrest]

/-! ## Pictures -/

theorem map_pixels_eq_iff {f g : Frame} (hwidth : f.width = g.width)
    (hheight : f.height = g.height) :
    f.pixels.map rgb = g.pixels.map rgb ↔
      ∀ x y, (f.pixel? x y).map rgb = (g.pixel? x y).map rgb := by
  constructor
  · intro h x y
    have hplace := congrArg (fun list => list[y * f.width + x]?) h
    simp only [List.getElem?_map] at hplace
    rw [Frame.pixel?_eq, Frame.pixel?_eq, ← hwidth, ← hheight]
    split
    · exact hplace
    · rfl
  · intro h
    apply List.ext_getElem?
    intro i
    rw [List.getElem?_map, List.getElem?_map]
    by_cases hi : i < f.width * f.height
    · have hi' : i < g.width * g.height := by rwa [← hwidth, ← hheight]
      rw [Frame.getElem?_pixels_eq_pixel? hi, Frame.getElem?_pixels_eq_pixel? hi', h, hwidth]
    · rw [List.getElem?_eq_none (by rw [Frame.length_pixels]; omega),
        List.getElem?_eq_none (by rw [Frame.length_pixels, ← hwidth, ← hheight]; omega)]

theorem encode_eq_iff (f g : Frame) :
    encode f = encode g ↔
      f.width = g.width ∧ f.height = g.height ∧
        ∀ x y, (f.pixel? x y).map rgb = (g.pixel? x y).map rgb := by
  constructor
  · intro h
    obtain ⟨hwidth, hheight, hbody⟩ := header_append_inj h
    exact ⟨hwidth, hheight,
      (map_pixels_eq_iff hwidth hheight).mp ((flatMap_colors_eq_iff _ _).mp hbody)⟩
  · rintro ⟨hwidth, hheight, hpixels⟩
    have hbody := (flatMap_colors_eq_iff _ _).mpr ((map_pixels_eq_iff hwidth hheight).mpr hpixels)
    rw [encode, encode, hwidth, hheight, hbody]

/--
Two pictures have one file exactly if they have the same dimensions and differ in the top bytes of
their pixels only. The file is a header, with the dimensions in decimal, and behind it three bytes
for each pixel: those of the pixel in column `x` of row `y` begin at `3 * (y * width + x)`, and they
are its bits 23 to 16, 15 to 8 and 7 to 0.
-/
theorem encode_keeps_colors :
    (∀ f g : Frame, encode f = encode g ↔
      f.width = g.width ∧ f.height = g.height ∧
        ∀ x y, (f.pixel? x y).map rgb = (g.pixel? x y).map rgb) ∧
    ∀ f : Frame, f.pixels.length = f.width * f.height ∧ ∃ body,
      encode f = magic ++ decimal f.width ++ [0x20] ++ decimal f.height ++ [0x0A] ++ maximum ++
        [0x0A] ++ body ∧
      body.length = 3 * (f.width * f.height) ∧
      ∀ x < f.width, ∀ y < f.height, ∃ p, f.pixel? x y = some p ∧
        (body.drop (3 * (y * f.width + x))).take 3 =
          [p.extractLsb' 16 8, p.extractLsb' 8 8, p.extractLsb' 0 8] := by
  refine ⟨encode_eq_iff, ?_⟩
  intro f
  refine ⟨f.length_pixels, f.pixels.flatMap colors, ?_, ?_, ?_⟩
  · simp only [encode, header_eq, List.append_assoc, List.cons_append, List.nil_append]
  · rw [length_flatMap_colors, Frame.length_pixels]
  · intro x hx y hy
    obtain ⟨p, hp, hpixel, -⟩ := Frame.pixel?_of_inside hx hy
    exact ⟨p, hp, slice_flatMap_colors hpixel⟩

def marked (top : Byte) : Frame :=
  (Frame.black 2 1).writeFrom 4 [0x33, 0x22, 0x11, top]

theorem encode_keeps_colors_marked :
    (marked 0xFF).pixel? 1 0 ≠ (marked 0).pixel? 1 0 ∧
    (∀ x y, ((marked 0xFF).pixel? x y).map rgb = ((marked 0).pixel? x y).map rgb) ∧
    1 < (marked 0xFF).width ∧ 0 < (marked 0xFF).height ∧
    ∃ body, encode (marked 0xFF) =
        [0x50, 0x36, 0x0A, 0x32, 0x20, 0x31, 0x0A, 0x32, 0x35, 0x35, 0x0A] ++ body ∧
      body.length = 6 ∧ (body.drop 3).take 3 = [0x11, 0x22, 0x33] := by
  have hwidth : (marked 0xFF).width = 2 := Frame.width_writeFrom _ _ _
  have hheight : (marked 0xFF).height = 1 := Frame.height_writeFrom _ _ _
  have hmarked : (marked 0xFF).pixel? 1 0 = some 0xFF112233 := by decide +kernel
  have hfiles : encode (marked 0xFF) = encode (marked 0) := by decide +kernel
  obtain ⟨hiff, hfile⟩ := encode_keeps_colors
  obtain ⟨-, -, hcolors⟩ := (hiff (marked 0xFF) (marked 0)).mp hfiles
  obtain ⟨-, body, hbody, hlength, hplaces⟩ := hfile (marked 0xFF)
  obtain ⟨p, hp, hslice⟩ := hplaces 1 (by rw [hwidth]; decide) 0 (by rw [hheight]; decide)
  rw [hmarked, Option.some.injEq] at hp
  rw [hwidth, hheight] at hbody hlength
  rw [hwidth, ← hp] at hslice
  refine ⟨by decide +kernel, hcolors, by rw [hwidth]; decide, by rw [hheight]; decide, body, ?_,
    hlength, hslice⟩
  have htwo : decimal 2 = [0x32] := by
    rw [decimal]
    rfl
  have hone : decimal 1 = [0x31] := by
    rw [decimal]
    rfl
  rw [hbody, htwo, hone]
  rfl

end Rv32.Ppm
