import Emend.Text.Alphabetic
import Emend.Text.Lowercase
import Emend.Text.Numeric
import Emend.Text.Uppercase

/-!
# Properties of characters

The questions that patterns and scans ask of one character: is it a letter, a number, white space,
a control character. ASCII characters are answered from the code point alone and all others from
the tables of Unicode, so the answers agree with the standard on every character.
-/

namespace Emend

/-- A letter of any script, a letter number, or a mark that writes a vowel. -/
def isAlphabetic (c : Char) : Bool :=
  if c.toNat < 128 then c.isAlpha else CodeRanges.alphabetic.contains c.toNat

/-- A decimal digit of any script, a letter number, or another number such as a fraction. -/
def isNumeric (c : Char) : Bool :=
  if c.toNat < 128 then c.isDigit else CodeRanges.numeric.contains c.toNat

/-- A letter or a number. -/
def isAlphanumeric (c : Char) : Bool :=
  isAlphabetic c || isNumeric c

/-- A lowercase character of any script. -/
def isLowercase (c : Char) : Bool :=
  if c.toNat < 128 then c.isLower else CodeRanges.lowercase.contains c.toNat

/-- An uppercase character of any script. -/
def isUppercase (c : Char) : Bool :=
  if c.toNat < 128 then c.isUpper else CodeRanges.uppercase.contains c.toNat

/-- The white space of Unicode: tabs and line ends, the space, and the spaces of other widths. -/
def isWhiteSpace (c : Char) : Bool :=
  let code := c.toNat
  (9 ≤ code && code ≤ 13) || code == 0x20 || code == 0x85 || code == 0xa0 || code == 0x1680 ||
    (0x2000 ≤ code && code ≤ 0x200a) || code == 0x2028 || code == 0x2029 || code == 0x202f ||
    code == 0x205f || code == 0x3000

/-- A control character: the first 32 code points, and the 33 from `DEL` on. -/
def isControl (c : Char) : Bool :=
  c.toNat < 32 || (127 ≤ c.toNat && c.toNat < 160)

/-- One of the first 128 code points. -/
def isAscii (c : Char) : Bool :=
  c.toNat < 128

/-- A visible ASCII character that is neither a letter nor a digit. -/
def isAsciiPunctuation (c : Char) : Bool :=
  33 ≤ c.toNat && c.toNat ≤ 126 && !c.isAlphanum

/-- An ASCII digit or one of the letters `a` to `f` in either case. -/
def isHexDigit (c : Char) : Bool :=
  c.isDigit || ('a' ≤ c && c ≤ 'f') || ('A' ≤ c && c ≤ 'F')

end Emend
