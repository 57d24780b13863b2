import Emend.Text.Property
import Emend.Text.Source

/-!
# Assertions

Conditions on a place in a text that match without taking a character: the ends of the text, the
ends of a line, and the border between a word and what surrounds it. They look at most at the
character before the place and at the one after it.
-/

namespace Emend

/-- A condition on a place between two characters. -/
inductive Assertion where
  /-- The beginning of the text, written `\A`. -/
  | beginText
  /-- The end of the text, written `\z`. -/
  | endText
  /-- A border between a word and what surrounds it, written `\b`. -/
  | wordBoundary
  /-- No such border, written `\B`. -/
  | notWordBoundary
  /-- The beginning of a line, written `^`. -/
  | beginLine
  /-- The end of a line, written `$`. -/
  | endLine
  deriving DecidableEq, Repr

namespace Assertion

/-- The assertion that a letter names after a backslash. -/
def ofEscape? : Char → Option Assertion
  | 'A' => some .beginText
  | 'z' => some .endText
  | 'b' => some .wordBoundary
  | 'B' => some .notWordBoundary
  | _ => none

/-- How the assertion is written. -/
def name : Assertion → String
  | .beginText => "\\A"
  | .endText => "\\z"
  | .wordBoundary => "\\b"
  | .notWordBoundary => "\\B"
  | .beginLine => "^"
  | .endLine => "$"

/-- Every assertion, in the order in which they are listed. -/
def all : List Assertion :=
  [.beginText, .endText, .wordBoundary, .notWordBoundary, .beginLine, .endLine]

/-- Whether just one of the two neighbours of a place belongs to a word. A missing neighbour does
not. -/
def atWordBoundary (text : Source) (position : Nat) : Bool :=
  let before := (text.next? .backward position).any isAlphanumeric
  let after := (text.next? .forward position).any isAlphanumeric
  before != after

/-- Whether the assertion holds between the characters at `position - 1` and `position`. -/
def holds (text : Source) (position : Nat) : Assertion → Bool
  | .beginText => position == 0
  | .endText => text.size ≤ position
  | .wordBoundary => atWordBoundary text position
  | .notWordBoundary => !atWordBoundary text position
  | .beginLine => position == 0 || text.next? .backward position == some '\n'
  | .endLine => text.size ≤ position || text.charAt? position == some '\n'

end Assertion

end Emend
