/-!
# Written numbers

The numeral forms of the program's messages and listings: lowercase digits,
an `0x` or `0b` in front where the base is shown, and zeros on the left up to
a least number of digits. A number that needs more digits gets them.
-/

namespace Rv32.Numeral

/-- The digits of `n` in `base`, with zeros on the left up to `least` digits. -/
def padded (base least n : Nat) : String :=
  let digits := Nat.toDigits base n
  String.ofList (List.replicate (least - digits.length) '0' ++ digits)

/-- Hexadecimal digits without a base mark, at least `least` of them. -/
def bareHex (least n : Nat) : String :=
  padded 16 least n

/-- Hexadecimal with its base mark and no padding, as offsets are written. -/
def hex (n : Nat) : String :=
  "0x" ++ bareHex 1 n

/-- Hexadecimal with its base mark and at least eight digits, as addresses are written. -/
def address (n : Nat) : String :=
  "0x" ++ bareHex 8 n

/-- Binary with its base mark and at least `least` digits, as instruction fields are written. -/
def binary (least n : Nat) : String :=
  "0b" ++ padded 2 least n

end Rv32.Numeral
