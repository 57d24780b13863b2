import Emend.Pattern.Error
import Emend.Pattern.Node

/-!
# The tokens of a pattern

A pattern is read in two steps. This module cuts its text into tokens: escapes, bracket classes,
repetitions with their laziness, the parentheses of groups, and plain characters. Reading stops at
the first piece that is no token, which becomes the last token of the list, so that an error that
the tree building finds further left is still reported first.
-/

namespace Emend

/-- One piece of a pattern's text. -/
inductive PatternToken where
  /-- A plain or escaped character. -/
  | char (c : Char)
  /-- A class, in brackets or named by a letter. -/
  | oneOf (set : CharClass)
  /-- An assertion. -/
  | assert (assertion : Assertion)
  /-- A repetition of what comes before it. -/
  | loop (kind : Repetition) (greedy : Bool)
  /-- The beginning of a group. -/
  | openGroup (capturing : Bool)
  /-- The end of a group, at this position of the pattern. -/
  | closeGroup (position : Nat)
  /-- The bar between two branches. -/
  | bar
  /-- Text that is no token. -/
  | invalid (error : PatternError)
  deriving DecidableEq, Repr

/-- The character that a letter names after a backslash. -/
def namedEscape? : Char → Option Char
  | 'a' => some '\x07'
  | 'f' => some '\x0c'
  | 't' => some '\t'
  | 'n' => some '\n'
  | 'r' => some '\r'
  | 'v' => some '\x0b'
  | _ => none

/-- The value of a hexadecimal digit. -/
def hexDigit? (c : Char) : Option Nat :=
  if c.isDigit then some (c.toNat - '0'.toNat)
  else if 'a' ≤ c && c ≤ 'f' then some (c.toNat - 'a'.toNat + 10)
  else if 'A' ≤ c && c ≤ 'F' then some (c.toNat - 'A'.toNat + 10)
  else none

/-- The number that hexadecimal digits write, most significant first. -/
def hexDigits? (digits : List Char) : Option Nat :=
  digits.foldlM (fun value digit => (hexDigit? digit).map (16 * value + ·)) 0

/-- The number that a nonempty text of hexadecimal digits writes. A plus sign may stand before the
digits. -/
def hexNumber? : List Char → Option Nat
  | [] => none
  | ['+'] => none
  | '+' :: digits => hexDigits? digits
  | digits => hexDigits? digits

/-- Reads the six places after `\x` as the code point of a character. -/
def readHex (chars : List Char) : Except PatternError (Char × List Char) :=
  if 6 ≤ chars.length then
    match hexNumber? (chars.take 6) with
    | none => .error .badHex
    | some code =>
      if code.isValidChar then .ok (Char.ofNat code, chars.drop 6) else .error .badHex
  else .error .badHex

/-- Reads what follows a backslash outside brackets. -/
def readEscape : List Char → Except PatternError (PatternToken × List Char)
  | [] => .error .unfinishedEscape
  | letter :: rest =>
    match Assertion.ofEscape? letter, CharClass.ofShorthand? letter with
    | some assertion, _ => .ok (.assert assertion, rest)
    | none, some set => .ok (.oneOf set, rest)
    | none, none =>
      if letter = 'x' then (readHex rest).map fun (c, rest) => (.char c, rest)
      else .ok (.char ((namedEscape? letter).getD letter), rest)

/-- Reads what follows a backslash inside brackets. -/
def readClassEscape : List Char → Except PatternError (ClassItem × List Char)
  | [] => .error .unclosedClass
  | letter :: rest =>
    match CharClass.shorthand? letter with
    | some (predicate, inverted) => .ok (.having predicate inverted, rest)
    | none =>
      if letter = 'x' then (readHex rest).map fun (c, rest) => (.one c, rest)
      else .ok (.one ((namedEscape? letter).getD letter), rest)

/-- The property that is named between an inner `[` and its `]`: the name stands between colons,
and a `^` before it asks for the characters that lack the property. -/
def classNamed? (written : List Char) : Option ClassItem :=
  match written with
  | ':' :: rest =>
    if rest.getLast? = some ':' then
      match rest.dropLast with
      | [] => none
      | '^' :: name => (CharClass.named? (String.ofList name)).map (.having · true)
      | name => (CharClass.named? (String.ofList name)).map (.having · false)
    else none
  | _ => none

/-- Reads what follows an inner `[`, up to the next `]`. -/
def readNamedClass (chars : List Char) : Except PatternError (ClassItem × List Char) :=
  match chars.dropWhile (· != ']') with
  | [] => .error .unclosedClass
  | _ :: rest =>
    match classNamed? (chars.takeWhile (· != ']')) with
    | some item => .ok (item, rest)
    | none => .error (.unknownClass (String.ofList (chars.takeWhile (· != ']'))))

/-- Reads one member of a class whose first character is `c`. -/
def readClassItem (c : Char) (rest : List Char) : Except PatternError (ClassItem × List Char) :=
  match c, rest with
  | '[', _ => readNamedClass rest
  | '\\', _ => readClassEscape rest
  | _, '-' :: last :: after =>
    -- A dash before the closing bracket is a character of its own.
    if last = ']' then .ok (.one c, rest) else .ok (.range c last, after)
  | _, _ => .ok (.one c, rest)

/-- Reading a code point puts no text back. -/
theorem length_of_readHex {chars rest : List Char} {c : Char}
    (h : readHex chars = .ok (c, rest)) : rest.length ≤ chars.length := by
  unfold readHex at h
  split at h
  · split at h
    · simp at h
    · split at h
      · obtain ⟨_, rfl⟩ := by simpa using h
        simp
      · simp at h
  · simp at h

/-- Reading an escape puts no text back. -/
theorem length_of_readEscape {chars rest : List Char} {token : PatternToken}
    (h : readEscape chars = .ok (token, rest)) : rest.length ≤ chars.length := by
  unfold readEscape at h
  split at h
  · simp at h
  · split at h
    · obtain ⟨_, rfl⟩ := by simpa using h
      simp
    · obtain ⟨_, rfl⟩ := by simpa using h
      simp
    · split at h
      · match hx : readHex _, h with
        | .ok (c, after), h =>
          obtain ⟨_, rfl⟩ := by simpa [Except.map] using h
          have := length_of_readHex hx
          simp only [List.length_cons]
          omega
      · obtain ⟨_, rfl⟩ := by simpa using h
        simp

/-- Reading an escape inside brackets puts no text back. -/
theorem length_of_readClassEscape {chars rest : List Char} {item : ClassItem}
    (h : readClassEscape chars = .ok (item, rest)) : rest.length ≤ chars.length := by
  unfold readClassEscape at h
  split at h
  · simp at h
  · split at h
    · obtain ⟨_, rfl⟩ := by simpa using h
      simp
    · split at h
      · match hx : readHex _, h with
        | .ok (c, after), h =>
          obtain ⟨_, rfl⟩ := by simpa [Except.map] using h
          have := length_of_readHex hx
          simp only [List.length_cons]
          omega
      · obtain ⟨_, rfl⟩ := by simpa using h
        simp

/-- Reading the name of a property puts no text back. -/
theorem length_of_readNamedClass {chars rest : List Char} {item : ClassItem}
    (h : readNamedClass chars = .ok (item, rest)) : rest.length ≤ chars.length := by
  unfold readNamedClass at h
  have hsub := (List.dropWhile_suffix (p := (· != ']')) (l := chars)).length_le
  split at h
  · simp at h
  · next tail hdrop =>
    rw [hdrop] at hsub
    split at h
    · obtain ⟨_, rfl⟩ := by simpa using h
      simp only [List.length_cons] at hsub
      omega
    · simp at h

/-- Reading a member of a class puts no text back. -/
theorem length_of_readClassItem {c : Char} {chars rest : List Char} {item : ClassItem}
    (h : readClassItem c chars = .ok (item, rest)) : rest.length ≤ chars.length := by
  unfold readClassItem at h
  split at h
  · exact length_of_readNamedClass h
  · exact length_of_readClassEscape h
  · split at h
    · obtain ⟨_, rfl⟩ := by simpa using h
      simp
    · obtain ⟨_, rfl⟩ := by simpa using h
      simp only [List.length_cons]
      omega
  · obtain ⟨_, rfl⟩ := by simpa using h
    simp

/-- Reads the members of a class up to the bracket that closes it. -/
def readClassItems (chars : List Char) : Except PatternError (List ClassItem × List Char) :=
  match chars with
  | [] => .error .unclosedClass
  | c :: rest =>
    if c = ']' then .ok ([], rest)
    else
      match h : readClassItem c rest with
      | .error e => .error e
      | .ok (item, after) =>
        have := length_of_readClassItem h
        (readClassItems after).map fun (items, rest) => (item :: items, rest)
termination_by chars.length

/-- Reads what follows an opening bracket. A `^` right after it inverts the class. -/
def readClass : List Char → Except PatternError (PatternToken × List Char)
  | '^' :: chars =>
    (readClassItems chars).map fun (items, rest) => (.oneOf (.bracket true items), rest)
  | chars =>
    (readClassItems chars).map fun (items, rest) => (.oneOf (.bracket false items), rest)

/-- The token for a repetition, which a question mark right after it makes lazy. -/
def readLoop (kind : Repetition) : List Char → PatternToken × List Char
  | '?' :: rest => (.loop kind false, rest)
  | rest => (.loop kind true, rest)

/-- The token for an opening parenthesis, which `?:` right after it keeps from being remembered. -/
def readOpen : List Char → PatternToken × List Char
  | '?' :: ':' :: rest => (.openGroup false, rest)
  | rest => (.openGroup true, rest)

/-- Reads the token that begins with `c` at `position`. -/
def PatternToken.read (position : Nat) (c : Char) (rest : List Char) :
    Except PatternError (PatternToken × List Char) :=
  match c with
  | '\\' => readEscape rest
  | '[' => readClass rest
  | '.' => .ok (.oneOf .dot, rest)
  | '^' => .ok (.assert .beginLine, rest)
  | '$' => .ok (.assert .endLine, rest)
  | '*' => .ok (readLoop .zeroOrMore rest)
  | '+' => .ok (readLoop .oneOrMore rest)
  | '?' => .ok (readLoop .zeroOrOne rest)
  | '(' => .ok (readOpen rest)
  | ')' => .ok (.closeGroup position, rest)
  | '|' => .ok (.bar, rest)
  | _ => .ok (.char c, rest)

/-- Reading the members of a class puts no text back. -/
theorem length_of_readClassItems {chars rest : List Char} {items : List ClassItem}
    (h : readClassItems chars = .ok (items, rest)) : rest.length ≤ chars.length := by
  fun_induction readClassItems chars generalizing items rest with
  | case1 => simp at h
  | case2 =>
    obtain ⟨_, rfl⟩ := by simpa using h
    simp
  | case3 => simp at h
  | case4 c tail _ item after hitem hle ih =>
    match hrest : readClassItems after, h with
    | .ok (more, last), h =>
      obtain ⟨_, rfl⟩ := by simpa [Except.map] using h
      have := ih hrest
      simp only [List.length_cons]
      omega

/-- Reading a class puts no text back. -/
theorem length_of_readClass {chars rest : List Char} {token : PatternToken}
    (h : readClass chars = .ok (token, rest)) : rest.length ≤ chars.length := by
  unfold readClass at h
  split at h
  · match hitems : readClassItems _, h with
    | .ok (items, after), h =>
      obtain ⟨_, rfl⟩ := by simpa [Except.map] using h
      have := length_of_readClassItems hitems
      simp only [List.length_cons]
      omega
  · match hitems : readClassItems _, h with
    | .ok (items, after), h =>
      obtain ⟨_, rfl⟩ := by simpa [Except.map] using h
      exact length_of_readClassItems hitems

/-- Reading a repetition puts no text back. -/
theorem length_of_readLoop (kind : Repetition) (chars : List Char) :
    (readLoop kind chars).2.length ≤ chars.length := by
  unfold readLoop
  split <;> simp

/-- Reading an opening parenthesis puts no text back. -/
theorem length_of_readOpen (chars : List Char) : (readOpen chars).2.length ≤ chars.length := by
  unfold readOpen
  split
  · simp only [List.length_cons]
    omega
  · simp

/-- Reading a token never puts text back. -/
theorem PatternToken.length_of_read {position : Nat} {c : Char} {chars rest : List Char}
    {token : PatternToken} (h : PatternToken.read position c chars = .ok (token, rest)) :
    rest.length ≤ chars.length := by
  unfold PatternToken.read at h
  split at h
  case h_1 => exact length_of_readEscape h
  case h_2 => exact length_of_readClass h
  case h_6 => simpa [Except.ok.inj h] using length_of_readLoop .zeroOrMore chars
  case h_7 => simpa [Except.ok.inj h] using length_of_readLoop .oneOrMore chars
  case h_8 => simpa [Except.ok.inj h] using length_of_readLoop .zeroOrOne chars
  case h_9 => simpa [Except.ok.inj h] using length_of_readOpen chars
  all_goals
    obtain ⟨_, rfl⟩ := by simpa using h
    exact Nat.le_refl _

namespace PatternToken

/-- The tokens of a text that begins at `position`. -/
def tokens (position : Nat) (chars : List Char) : List PatternToken :=
  match chars with
  | [] => []
  | c :: rest =>
    match h : PatternToken.read position c rest with
    | .error error => [.invalid error]
    | .ok (token, after) =>
      have := PatternToken.length_of_read h
      token :: tokens (position + (rest.length + 1 - after.length)) after
termination_by chars.length

end PatternToken

end Emend
