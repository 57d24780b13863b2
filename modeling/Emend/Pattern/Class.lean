import Emend.Text.Property

/-!
# Classes of characters

A pattern names a set of characters in one of three ways: by a letter after a backslash (`\d`), by
a name inside brackets (`[:alpha:]`), or by listing members in brackets. All three become a
`CharClass`, whose members are given one by one, as ranges, and by predicates.
-/

namespace Emend

/-- A property that a class can ask of a character. -/
inductive CharPredicate where
  /-- A number of any kind. -/
  | digit
  /-- White space. -/
  | space
  /-- A letter or a number. -/
  | word
  /-- A letter. -/
  | letter
  /-- A character of ASCII. -/
  | ascii
  /-- A control character. -/
  | control
  /-- Neither a control character nor white space, or else the space itself. -/
  | print
  /-- A lowercase character. -/
  | lower
  /-- An uppercase character. -/
  | upper
  /-- ASCII punctuation, or a character outside ASCII that has none of the other properties. -/
  | punctuation
  /-- A hexadecimal digit of ASCII. -/
  | hexDigit
  /-- Anything but a line end. -/
  | notNewline
  /-- Anything at all. -/
  | anything
  deriving DecidableEq, Repr

/-- Whether a character has the property. -/
def CharPredicate.holds : CharPredicate → Char → Bool
  | .digit, c => isNumeric c
  | .space, c => isWhiteSpace c
  | .word, c => isAlphanumeric c
  | .letter, c => isAlphabetic c
  | .ascii, c => isAscii c
  | .control, c => isControl c
  | .print, c => !isControl c && (c == ' ' || !isWhiteSpace c)
  | .lower, c => isLowercase c
  | .upper, c => isUppercase c
  | .punctuation, c =>
    isAsciiPunctuation c ||
      (!isAscii c && !isAlphanumeric c && !isWhiteSpace c && !isControl c)
  | .hexDigit, c => isHexDigit c
  | .notNewline, c => c != '\n'
  | .anything, _ => true

/-- One member of a class as it is written. -/
inductive ClassItem where
  /-- A single character. -/
  | one (c : Char)
  /-- All characters between two, both included. -/
  | range (first last : Char)
  /-- All characters that have a property, or all that lack it. -/
  | having (predicate : CharPredicate) (negated : Bool)
  deriving DecidableEq, Repr

/-- Whether the member covers a character. -/
def ClassItem.covers : ClassItem → Char → Bool
  | .one x, c => x == c
  | .range first last, c => first ≤ c && c ≤ last
  | .having predicate negated, c => predicate.holds c != negated

/-- A set of characters with the name under which it is listed. -/
structure CharClass where
  /-- How the class is named in listings. -/
  name : String
  /-- Whether the class holds the characters that its members do not cover. -/
  inverted : Bool
  /-- The members, in the order in which they are written. -/
  items : List ClassItem
  deriving DecidableEq, Repr

namespace CharClass

/-- Whether a character belongs to the class. -/
def contains (set : CharClass) (c : Char) : Bool :=
  set.items.any (·.covers c) != set.inverted

/-- The class of the characters with one property. -/
def having (name : String) (predicate : CharPredicate) (inverted : Bool) : CharClass :=
  ⟨name, inverted, [.having predicate false]⟩

/-- A class written in brackets. -/
def bracket (inverted : Bool) (items : List ClassItem) : CharClass :=
  ⟨"userdef", inverted, items⟩

/-- What `.` stands for: any character but a line end. -/
def dot : CharClass :=
  having "." .notNewline false

/-- Every character, line ends included. -/
def any : CharClass :=
  having "any" .anything false

/-- The property that a letter names after a backslash, and whether it is asked for or against:
capitals invert. -/
def shorthand? : Char → Option (CharPredicate × Bool)
  | 'd' => some (.digit, false)
  | 'D' => some (.digit, true)
  | 's' => some (.space, false)
  | 'S' => some (.space, true)
  | 'w' => some (.word, false)
  | 'W' => some (.word, true)
  | _ => none

/-- The class that a letter names after a backslash. -/
def ofShorthand? (letter : Char) : Option CharClass :=
  (shorthand? letter).map fun (predicate, inverted) =>
    having (String.ofList ['\\', letter]) predicate inverted

/-- The property that a name stands for between `[:` and `:]`. -/
def named? : String → Option CharPredicate
  | "alnum" => some .word
  | "alpha" => some .letter
  | "ascii" => some .ascii
  | "blank" => some .space
  | "cntrl" => some .control
  | "digit" => some .digit
  | "graph" => some .print
  | "lower" => some .lower
  | "print" => some .print
  | "punct" => some .punctuation
  | "space" => some .space
  | "upper" => some .upper
  | "word" => some .word
  | "xdigit" => some .hexDigit
  | _ => none

end CharClass

end Emend
