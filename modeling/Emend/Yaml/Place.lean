/-!
# The characters of a YAML text and their places

What a character of a YAML text means often depends on where it stands: columns tell what belongs to
what, a key lies on one line, and three dashes part documents at the beginning of a line only. So a
text is read as a list of characters that know their places.
-/

namespace Emend.Yaml

/-- Whether a character may stand in a YAML text. -/
def isPrintable (c : Char) : Bool :=
  c == '\t' || c == '\n' || c == '\r' || (' ' ≤ c && c ≤ '~') || c == '\u0085' ||
    ('\u00a0' ≤ c && c ≤ '\ufffd') || 0x10000 ≤ c.toNat

/-- The character that may stand before a text, or at the beginning of a line, and means nothing
there. -/
def byteOrderMark : Char :=
  '\ufeff'

/-- A blank within a line. -/
def isBlankChar (c : Char) : Bool :=
  c == ' ' || c == '\t'

/-- A character that ends a line, once all line breaks of ASCII are written as newlines. -/
def isBreakChar (c : Char) : Bool :=
  c == '\n' || c == '\u2028' || c == '\u2029'

/-- A blank or a line break. -/
def isGapChar (c : Char) : Bool :=
  isBlankChar c || isBreakChar c

/-- A text whose line breaks are newlines, except those that stand for themselves. -/
def unifyBreaks : List Char → List Char
  | '\r' :: '\n' :: rest => '\n' :: unifyBreaks rest
  | '\r' :: rest => '\n' :: unifyBreaks rest
  | '\u0085' :: rest => '\n' :: unifyBreaks rest
  | c :: rest => c :: unifyBreaks rest
  | [] => []

/-- Where a character stands. -/
structure Place where
  /-- How many lines stand before it. -/
  line : Nat
  /-- Its column, counted from one. -/
  column : Nat
  /-- How many bytes stand before it. -/
  offset : Nat
  deriving DecidableEq, Repr

/-- The place at the beginning of a text. -/
def Place.first : Place :=
  ⟨0, 1, 0⟩

/-- The place after a character that stands here. -/
def Place.after (place : Place) (c : Char) : Place :=
  if isBreakChar c then ⟨place.line + 1, 1, place.offset + c.utf8Size⟩
  else ⟨place.line, place.column + 1, place.offset + c.utf8Size⟩

/-- A character at its place. -/
structure PlacedChar where
  /-- The character. -/
  char : Char
  /-- Where it stands. -/
  place : Place
  deriving DecidableEq, Repr

/-- The characters of a text that begins at a place. -/
def placed (place : Place) : List Char → List PlacedChar
  | [] => []
  | c :: rest => ⟨c, place⟩ :: placed (place.after c) rest

/-- Whether a text is at its end, or goes on with a gap. -/
def beginsGap : List PlacedChar → Bool
  | [] => true
  | c :: _ => isGapChar c.char

/-- Whether three times the character `mark` stands at the beginning of a line, and nothing else up
to a gap. -/
def isDocumentMark (mark : Char) : List PlacedChar → Bool
  | first :: second :: third :: rest =>
    first.place.column == 1 && first.char == mark && second.char == mark && third.char == mark &&
      beginsGap rest
  | _ => false

/-- Whether a mark before or after a document stands at the beginning of a text. -/
def beginsDocumentMark (chars : List PlacedChar) : Bool :=
  isDocumentMark '-' chars || isDocumentMark '.' chars

end Emend.Yaml
