import Rv32.Numeral
import Rv32.Text.CharSet.CombiningMark
import Rv32.Text.CharSet.Ignorable
import Rv32.Text.CharSet.Unprintable

/-!
# Quoted text

A text in double quotes that can be read on a terminal. The quote and the
backslash get a backslash in front, some controls have letters, and every other
character that cannot be seen on its own is written by its code point.
-/

namespace Rv32.Quoted

def quote : Char := '\x22'

/-- Whether `c` is written by its code point, if it has no letter. -/
def isHidden (c : Char) : Bool :=
  CharSet.unprintable.has c || CharSet.ignorable.has c || CharSet.combiningMark.has c

def escape (c : Char) : List Char :=
  if c = quote then ['\\', quote]
  else if c = '\\' then ['\\', '\\']
  else if c = '\t' then ['\\', 't']
  else if c = '\n' then ['\\', 'n']
  else if c = '\r' then ['\\', 'r']
  else if c.toNat = 0 then ['\\', '0']
  else if isHidden c then
    ("\\u\x7b" ++ Numeral.bareHex 1 c.toNat ++ "\x7d").toList
  else [c]

def text (s : String) : String :=
  String.ofList (quote :: s.toList.flatMap escape ++ [quote])

end Rv32.Quoted
