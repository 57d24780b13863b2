import Emend.Text.GraphemeExtend
import Emend.Text.Unprintable

/-!
# Quoted text

How a text is shown inside a message: between double quotes, with backslash escapes for the
characters that would not show as themselves. Characters without a shape, and marks that would be
drawn on the character before them, are written as their code point.
-/

namespace Emend

/-- A code point in lowercase hexadecimal digits. -/
def hexadecimal (code : Nat) : List Char :=
  Nat.toDigits 16 code

/-- A character as it is shown between double quotes. -/
def quotedChar (c : Char) : List Char :=
  if c = '\x00' then ['\\', '0']
  else if c = '\t' then ['\\', 't']
  else if c = '\r' then ['\\', 'r']
  else if c = '\n' then ['\\', 'n']
  else if c = '"' then ['\\', '"']
  else if c = '\\' then ['\\', '\\']
  else if CodeRanges.graphemeExtend.contains c.toNat || CodeRanges.unprintable.contains c.toNat then
    ['\\', 'u', '\x7b'] ++ hexadecimal c.toNat ++ ['\x7d']
  else [c]

/-- A text as it is shown inside a message. -/
def quoted (text : String) : String :=
  String.ofList ('"' :: (text.toList.flatMap quotedChar ++ ['"']))

end Emend
