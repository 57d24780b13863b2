import Emend.Yaml.Place

/-!
# Reading YAML scalars

A scalar is written between single quotes, between double quotes, or plainly. It may go over several
lines: a single newline in it stands for a space, and of more line breaks the first is dropped if it
is a newline. The readers take what follows the first character of a scalar, and give the text of
the scalar, and what follows it. No scalar goes over a mark before or after a document.
-/

namespace Emend.Yaml

/-- A character of a flow collection that ends a plain scalar in it. -/
def isFlowIndicator (c : Char) : Bool :=
  c == ',' || c == '[' || c == ']' || c == '\x7b' || c == '\x7d'

/-- A piece of a scalar. -/
inductive ScalarPiece where
  /-- A character that is written as itself. -/
  | char (c : Char)
  /-- A character that an escape stands for. -/
  | escaped (c : Char)
  /-- A backslash at the end of a line, which joins the line with the next one. -/
  | joined
  deriving DecidableEq, Repr

/-- What a run of blanks and line breaks stands for. After a line that is joined with the next one
only the line breaks count. -/
def foldGap (joined : Bool) (gap : List Char) : List Char :=
  if joined then gap.filter isBreakChar
  else
    match gap.filter isBreakChar with
    | [] => gap
    | ['\n'] => [' ']
    | '\n' :: breaks => breaks
    | breaks => breaks

/-- The text of a scalar after the run `gap`. -/
def foldLines (joined : Bool) (gap : List Char) : List ScalarPiece → List Char
  | [] => foldGap joined gap
  | .char c :: rest =>
    if isGapChar c then foldLines joined (gap ++ [c]) rest
    else foldGap joined gap ++ c :: foldLines false [] rest
  | .escaped c :: rest => foldGap joined gap ++ c :: foldLines false [] rest
  | .joined :: rest => foldGap joined gap ++ foldLines true [] rest

/-- The text of a scalar. -/
def textOfPieces (pieces : List ScalarPiece) : String :=
  String.ofList (foldLines false [] pieces)

/-- The value of a lowercase or uppercase hexadecimal digit. -/
def hexValue? (c : Char) : Option Nat :=
  if '0' ≤ c && c ≤ '9' then some (c.toNat - '0'.toNat)
  else if 'a' ≤ c && c ≤ 'f' then some (c.toNat - 'a'.toNat + 10)
  else if 'A' ≤ c && c ≤ 'F' then some (c.toNat - 'A'.toNat + 10)
  else none

/-- The character with a code point in hexadecimal digits. -/
def charOfHex? (digits : List Char) : Option Char := do
  let code ← digits.foldlM (fun value digit => (hexValue? digit).map (16 * value + ·)) 0
  if code.isValidChar then return Char.ofNat code else none

/-- The character that a letter names after a backslash. -/
def escapeChar? : Char → Option Char
  | '0' => some '\x00'
  | 'a' => some '\x07'
  | 'b' => some '\x08'
  | 't' => some '\t'
  | '\t' => some '\t'
  | 'n' => some '\n'
  | 'v' => some '\x0b'
  | 'f' => some '\x0c'
  | 'r' => some '\r'
  | 'e' => some '\x1b'
  | ' ' => some ' '
  | '"' => some '"'
  | '/' => some '/'
  | '\\' => some '\\'
  | 'N' => some '\u0085'
  | '_' => some '\u00a0'
  | 'L' => some '\u2028'
  | 'P' => some '\u2029'
  | _ => none

/-- How many hexadecimal digits follow a letter after a backslash. -/
def escapeWidth? : Char → Option Nat
  | 'x' => some 2
  | 'u' => some 4
  | 'U' => some 8
  | _ => none

/-- What a backslash before a text stands for, and how many characters of the text belong to it. -/
def readEscape? (rest : List PlacedChar) : Option (ScalarPiece × Nat) := do
  let letter := (← rest.head?).char
  if isBreakChar letter then return (.joined, 1)
  match escapeWidth? letter with
  | none => return (.escaped (← escapeChar? letter), 1)
  | some width =>
    if width < rest.length then
      return (.escaped (← charOfHex? (((rest.drop 1).take width).map (·.char))), 1 + width)
    else none

/-- The pieces up to the closing single quote, in which a quote is written twice. `doubled` tells
that the first character is the second quote of such a pair. -/
def readSingleQuoted (doubled : Bool) :
    List PlacedChar → Option (List ScalarPiece × List PlacedChar)
  | [] => none
  | c :: rest =>
    if doubled then
      (readSingleQuoted false rest).map fun (pieces, rest) => (.char '\'' :: pieces, rest)
    else if c.char = '\'' then
      if rest.head?.any (·.char == '\'') then readSingleQuoted true rest else some ([], rest)
    else if beginsDocumentMark (c :: rest) then none
    else (readSingleQuoted false rest).map fun (pieces, rest) => (.char c.char :: pieces, rest)

/-- The pieces up to the closing double quote. `skip` characters still belong to an escape. -/
def readDoubleQuoted (skip : Nat) : List PlacedChar → Option (List ScalarPiece × List PlacedChar)
  | [] => none
  | c :: rest =>
    match skip with
    | skip + 1 => readDoubleQuoted skip rest
    | 0 =>
      if c.char = '"' then some ([], rest)
      else if c.char = '\\' then
        match readEscape? rest with
        | none => none
        | some (piece, width) =>
          (readDoubleQuoted width rest).map fun (pieces, rest) => (piece :: pieces, rest)
      else if beginsDocumentMark (c :: rest) then none
      else (readDoubleQuoted 0 rest).map fun (pieces, rest) => (.char c.char :: pieces, rest)

/-- The characters of a plain scalar, with the gap after it. -/
structure PlainText where
  /-- The characters, those of the gap included. -/
  chars : List Char
  /-- Whether the gap holds a line break. -/
  broken : Bool
  /-- What follows the gap. -/
  rest : List PlacedChar

/-- Whether a plain scalar ends before a text, because of a gap before it: the gap breaks the line,
and outside flow collections what belongs to the scalar stands to the right of the column `parent`
of the collection that it is in. -/
def endsAfterGap (flow : Bool) (parent : Nat) (broken : Bool) (c : PlacedChar)
    (rest : List PlacedChar) : Bool :=
  (broken && !flow && decide (c.place.column ≤ parent)) || beginsDocumentMark (c :: rest) ||
    c.char == '#'

/-- The characters of a plain scalar. `gap` and `broken` tell whether a gap, and a line break in it,
stand right before the text. -/
def readPlain (flow : Bool) (parent : Nat) (gap broken : Bool) :
    List PlacedChar → Option PlainText
  | [] => some ⟨[], broken, []⟩
  | c :: rest =>
    if isGapChar c.char then
      -- A tab is no indentation.
      if broken && c.char == '\t' && decide (c.place.column ≤ parent) then none
      else
        (readPlain flow parent true (broken || isBreakChar c.char) rest).map fun more =>
          { more with chars := c.char :: more.chars }
    else if gap && endsAfterGap flow parent broken c rest then some ⟨[], broken, c :: rest⟩
    else if flow && c.char == ':' &&
        rest.head?.any (fun next => isFlowIndicator next.char || next.char == '?') then none
    else if (c.char == ':' && beginsGap rest) || (flow && isFlowIndicator c.char) then
      some ⟨[], broken, c :: rest⟩
    else
      (readPlain flow parent false false rest).map fun more =>
        { more with chars := c.char :: more.chars }

/-- Whether a plain scalar may begin with a character. -/
def canBeginPlain (flow : Bool) (c : Char) (rest : List PlacedChar) : Bool :=
  if c = '-' then !beginsGap rest
  else if c = '?' || c = ':' then !flow && !beginsGap rest
  else !isGapChar c && !isFlowIndicator c && !"#&*!|>'\"%@\x60".contains c

/-- A scalar as it is read. -/
structure ScalarText where
  /-- The text. -/
  text : String
  /-- Whether it is written without quotes. -/
  plain : Bool
  /-- Whether a line break belongs to the gap that is read with it. -/
  broken : Bool

/-- Reads a scalar whose first character is `c`. -/
def readScalar (flow : Bool) (parent : Nat) (c : Char) (rest : List PlacedChar) :
    Option (ScalarText × List PlacedChar) :=
  if c = '\'' then
    (readSingleQuoted false rest).map fun (pieces, rest) =>
      (⟨textOfPieces pieces, false, false⟩, rest)
  else if c = '"' then
    (readDoubleQuoted 0 rest).map fun (pieces, rest) =>
      (⟨textOfPieces pieces, false, false⟩, rest)
  else if canBeginPlain flow c rest then
    (readPlain flow parent false false rest).map fun more =>
      -- The gap at the end does not belong to the scalar.
      let text := c :: (more.chars.reverse.dropWhile isGapChar).reverse
      (⟨textOfPieces (text.map .char), true, more.broken⟩, more.rest)
  else none

/-- Reading up to a closing single quote takes at least the quote. -/
theorem length_readSingleQuoted {doubled : Bool} {chars rest : List PlacedChar}
    {pieces : List ScalarPiece} (h : readSingleQuoted doubled chars = some (pieces, rest)) :
    rest.length < chars.length := by
  induction chars generalizing doubled pieces with
  | nil => simp [readSingleQuoted] at h
  | cons c chars ih =>
    simp only [List.length_cons]
    unfold readSingleQuoted at h
    split at h
    · obtain ⟨⟨_, _⟩, hinner, heq⟩ := Option.map_eq_some_iff.1 h
      obtain ⟨_, rfl⟩ := by simpa using heq
      have := ih hinner
      omega
    · split at h
      · split at h
        · have := ih h
          omega
        · obtain ⟨_, rfl⟩ := by simpa using h
          omega
      · split at h
        · simp at h
        · obtain ⟨⟨_, _⟩, hinner, heq⟩ := Option.map_eq_some_iff.1 h
          obtain ⟨_, rfl⟩ := by simpa using heq
          have := ih hinner
          omega

/-- Reading up to a closing double quote takes at least the quote. -/
theorem length_readDoubleQuoted {skip : Nat} {chars rest : List PlacedChar}
    {pieces : List ScalarPiece} (h : readDoubleQuoted skip chars = some (pieces, rest)) :
    rest.length < chars.length := by
  induction chars generalizing skip pieces with
  | nil => simp [readDoubleQuoted] at h
  | cons c chars ih =>
    simp only [List.length_cons]
    unfold readDoubleQuoted at h
    split at h
    · have := ih h
      omega
    · split at h
      · obtain ⟨_, rfl⟩ := by simpa using h
        omega
      · split at h
        · split at h
          · simp at h
          · obtain ⟨⟨_, _⟩, hinner, heq⟩ := Option.map_eq_some_iff.1 h
            obtain ⟨_, rfl⟩ := by simpa using heq
            have := ih hinner
            omega
        · split at h
          · simp at h
          · obtain ⟨⟨_, _⟩, hinner, heq⟩ := Option.map_eq_some_iff.1 h
            obtain ⟨_, rfl⟩ := by simpa using heq
            have := ih hinner
            omega

/-- Reading a plain scalar puts no text back. -/
theorem length_readPlain {flow : Bool} {parent : Nat} {gap broken : Bool}
    {chars : List PlacedChar} {text : PlainText}
    (h : readPlain flow parent gap broken chars = some text) :
    text.rest.length ≤ chars.length := by
  induction chars generalizing gap broken text with
  | nil =>
    obtain rfl := by simpa [readPlain] using h
    exact Nat.le_refl _
  | cons c chars ih =>
    simp only [List.length_cons]
    unfold readPlain at h
    split at h
    · split at h
      · simp at h
      · obtain ⟨_, hinner, rfl⟩ := Option.map_eq_some_iff.1 h
        have := ih hinner
        exact Nat.le_succ_of_le this
    · split at h
      · obtain rfl := by simpa using h
        simp
      · split at h
        · simp at h
        · split at h
          · obtain rfl := by simpa using h
            simp
          · obtain ⟨_, hinner, rfl⟩ := Option.map_eq_some_iff.1 h
            have := ih hinner
            exact Nat.le_succ_of_le this

/-- Reading a scalar puts no text back. -/
theorem length_readScalar {flow : Bool} {parent : Nat} {c : Char} {chars rest : List PlacedChar}
    {scalar : ScalarText} (h : readScalar flow parent c chars = some (scalar, rest)) :
    rest.length ≤ chars.length := by
  unfold readScalar at h
  split at h
  · obtain ⟨⟨_, _⟩, hinner, heq⟩ := Option.map_eq_some_iff.1 h
    obtain ⟨_, rfl⟩ := by simpa using heq
    exact Nat.le_of_lt (length_readSingleQuoted hinner)
  · split at h
    · obtain ⟨⟨_, _⟩, hinner, heq⟩ := Option.map_eq_some_iff.1 h
      obtain ⟨_, rfl⟩ := by simpa using heq
      exact Nat.le_of_lt (length_readDoubleQuoted hinner)
    · split at h
      · obtain ⟨_, hinner, heq⟩ := Option.map_eq_some_iff.1 h
        obtain ⟨_, rfl⟩ := by simpa using heq
        exact length_readPlain hinner
      · simp at h

end Emend.Yaml
