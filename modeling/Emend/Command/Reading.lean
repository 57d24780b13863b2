import Emend.Error

/-!
# Reading blanks, numbers and delimited text

The pieces that addresses and commands share. Every reader takes the characters that are left and
gives back those that it leaves.
-/

namespace Emend

/-- White space that may stand between commands: a line end counts. -/
def isBlank (c : Char) : Bool :=
  c == ' ' || c == '\t' || c == '\n'

/-- White space that may stand within a line. -/
def isInlineBlank (c : Char) : Bool :=
  c == ' ' || c == '\t'

/-- The largest number that a program may write: positions fit in 64 bits. -/
def largestNumber : Nat :=
  UInt64.size - 1

/-- The number that decimal digits write. -/
def decimalValue (digits : List Char) : Nat :=
  digits.foldl (fun value digit => 10 * value + (digit.toNat - '0'.toNat)) 0

/-- Reads the digits at the beginning of a text, if there are any. -/
def readNumber (chars : List Char) : Except ParseError (Option Nat × List Char) :=
  match chars.takeWhile Char.isDigit with
  | [] => .ok (none, chars)
  | digits =>
    if decimalValue digits ≤ largestNumber then
      .ok (some (decimalValue digits), chars.dropWhile Char.isDigit)
    else .error (.numberTooLarge (String.ofList digits))

/-- What a backslash and the character after it write in a delimited text. The delimiter always
loses its backslash; line ends, tabs and backslashes do when `unescape` is set; all else is kept as
it is written. -/
def escaped (delimiter : Char) (unescape : Bool) (c : Char) : List Char :=
  if c = delimiter then [delimiter]
  else if unescape && c == 'n' then ['\n']
  else if unescape && c == 't' then ['\t']
  else if unescape && c == '\\' then ['\\']
  else ['\\', c]

/-- The text up to the next delimiter without a backslash before it, and what follows that
delimiter. -/
def splitDelimited (delimiter : Char) (unescape : Bool) :
    List Char → Option (List Char × List Char)
  | [] => none
  | c :: rest =>
    if c = delimiter then some ([], rest)
    else if c = '\\' then
      match rest with
      | [] => none
      | next :: rest =>
        (splitDelimited delimiter unescape rest).map fun (text, rest) =>
          (escaped delimiter unescape next ++ text, rest)
    else (splitDelimited delimiter unescape rest).map fun (text, rest) => (c :: text, rest)

/-- Reads a text up to its delimiter. -/
def readDelimited (delimiter : Char) (unescape : Bool) (chars : List Char) :
    Except ParseError (String × List Char) :=
  match splitDelimited delimiter unescape chars with
  | some (text, rest) => .ok (String.ofList text, rest)
  | none => .error (.unterminated delimiter (String.ofList chars))

/-- Skipping characters puts no text back. -/
theorem length_dropWhile_le (p : Char → Bool) (chars : List Char) :
    (chars.dropWhile p).length ≤ chars.length :=
  (List.dropWhile_suffix p).length_le

/-- Reading a number puts no text back. -/
theorem length_of_readNumber {chars rest : List Char} {number : Option Nat}
    (h : readNumber chars = .ok (number, rest)) : rest.length ≤ chars.length := by
  unfold readNumber at h
  split at h
  · obtain ⟨_, rfl⟩ := by simpa using h
    exact Nat.le_refl _
  · split at h
    · obtain ⟨_, rfl⟩ := by simpa using h
      exact length_dropWhile_le _ _
    · simp at h

/-- Dividing a text at a delimiter takes at least the delimiter. -/
theorem length_of_splitDelimited {delimiter : Char} {unescape : Bool} {chars text rest : List Char}
    (h : splitDelimited delimiter unescape chars = some (text, rest)) :
    rest.length < chars.length := by
  fun_induction splitDelimited delimiter unescape chars generalizing text rest with
  | case1 => simp at h
  | case2 =>
    obtain ⟨_, rfl⟩ := by simpa using h
    simp
  | case3 => simp at h
  | case4 _ _ _ ih =>
    obtain ⟨⟨inner, after⟩, hinner, heq⟩ := Option.map_eq_some_iff.1 h
    obtain ⟨_, rfl⟩ := by simpa using heq
    have := ih hinner
    simp only [List.length_cons]
    omega
  | case5 _ _ _ _ ih =>
    obtain ⟨⟨inner, after⟩, hinner, heq⟩ := Option.map_eq_some_iff.1 h
    obtain ⟨_, rfl⟩ := by simpa using heq
    have := ih hinner
    simp only [List.length_cons]
    omega

/-- Reading a delimited text takes at least the delimiter. -/
theorem length_of_readDelimited {delimiter : Char} {unescape : Bool} {chars rest : List Char}
    {text : String} (h : readDelimited delimiter unescape chars = .ok (text, rest)) :
    rest.length < chars.length := by
  unfold readDelimited at h
  split at h
  · next hsplit =>
    obtain ⟨_, rfl⟩ := by simpa using h
    exact length_of_splitDelimited hsplit
  · simp at h

end Emend
