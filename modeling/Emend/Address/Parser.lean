import Emend.Command.Reading

/-!
# Reading addresses

The text of an address is cut into tokens: signs, separators, and marks that name a place. The
separators divide the tokens into chains, and each chain becomes a simple address or a list of
them. A mark that follows another without a sign is added to it, and a sign without a mark counts
one line.
-/

namespace Emend

/-- What a token names, with the count written after it if there is one. -/
inductive Mark where
  /-- The range itself, written `.`. -/
  | dot
  /-- The end of the text, written `$`. -/
  | last
  /-- A line, written as its number. -/
  | line (count : Nat)
  /-- A place between characters, written `#`. -/
  | char (count : Option Nat)
  /-- A word, written `#w`. -/
  | word (count : Option Nat)
  /-- The end of a line, written `#?`. -/
  | lineEnd (count : Option Nat)
  /-- A pattern to look for, written between slashes, or between question marks for the other
  direction. -/
  | search (pattern : String) (reverse : Bool)
  deriving DecidableEq, Repr

/-- A token of a chain of places. -/
inductive ChainToken where
  /-- A sign. -/
  | sign (sign : Sign)
  /-- A mark. -/
  | mark (mark : Mark)
  deriving DecidableEq, Repr

/-- A token of an address. -/
inductive AddressToken where
  /-- A separator between chains. -/
  | separator (separator : Separator)
  /-- A token of a chain. -/
  | part (token : ChainToken)
  deriving DecidableEq, Repr

/-- The place that a mark names, where `count` stands for a count that is not written. -/
def Mark.place (count : Nat) : Mark → Except RegexError Place
  | .dot => .ok .dot
  | .last => .ok .last
  | .line written => .ok (.line written)
  | .char written => .ok (.char (written.getD count))
  | .word written => .ok (.word (written.getD count))
  | .lineEnd written => .ok (.lineEnd (written.getD count))
  | .search pattern reverse => (Search.compile pattern reverse).map .search

/-- The sign that a mark without one has at the beginning of a chain: patterns are looked for
after the range, and all else is counted from the beginning of the text. -/
def Mark.leadingSign : Mark → Option Sign
  | .search _ _ => some .plus
  | _ => none

namespace Address

/-- The places of a chain after its first, each with its sign. -/
def followers : List ChainToken → Except RegexError (List SimpleAddress)
  | [] => .ok []
  | .sign sign :: .mark mark :: rest => do
    let place ← mark.place 1
    let others ← followers rest
    return ⟨some sign, place⟩ :: others
  | .sign sign :: rest => do
    let others ← followers rest
    return ⟨some sign, .line 1⟩ :: others
  | .mark mark :: rest => do
    let place ← mark.place 1
    let others ← followers rest
    return ⟨some .plus, place⟩ :: others

/-- The address that a chain writes; no tokens write none. A chain that begins with a sign begins
at the range itself. -/
def ofChain? (tokens : List ChainToken) : Except RegexError (Option Address) :=
  match tokens with
  | [] => .ok none
  | .mark mark :: rest => do
    let place ← mark.place 0
    let leading : SimpleAddress := ⟨mark.leadingSign, place⟩
    let others ← followers rest
    return some (if others.isEmpty then .simple leading else .chain (leading :: others))
  | .sign _ :: _ => do
    -- The sign belongs to the first follower, not to the range that it starts from.
    let others ← followers tokens
    return some (.chain (.dot :: others))

/-- Divides tokens at the separators: the first chain, and each further chain with the separator
before it. -/
def splitChains : List AddressToken → List ChainToken × List (Separator × List ChainToken)
  | [] => ([], [])
  | .part token :: rest =>
    let (first, others) := splitChains rest
    (token :: first, others)
  | .separator separator :: rest =>
    let (first, others) := splitChains rest
    ([], (separator, first) :: others)

/-- Joins further chains to an address, the leftmost separator first. A missing left side is the
beginning of the text, and a missing right side its end. -/
def join (left : Option Address) :
    List (Separator × List ChainToken) → Except RegexError (Option Address)
  | [] => .ok left
  | (separator, tokens) :: rest => do
    let right ← ofChain? tokens
    join (some (.between (left.getD .first) separator (right.getD .last))) rest

/-- The address that tokens write; no tokens write the range itself. -/
def ofTokens (tokens : List AddressToken) : Except RegexError Address := do
  let (tokens, others) := splitChains tokens
  let left ← ofChain? tokens
  return (← join left others).getD .dot

end Address

namespace AddressToken

/-- Whether a character begins a token of an address. -/
def starts (c : Char) : Bool :=
  c == '+' || c == '-' || c == ',' || c == ';' || c == '.' || c == '$' || c == '/' || c == '?' ||
    c == '#' || c.isDigit

/-- The token for a mark. -/
def ofMark (mark : Mark) : AddressToken :=
  .part (.mark mark)

/-- Reads what follows `#`: a letter tells words and line ends from characters. -/
def readCounted : List Char → Except ParseError (AddressToken × List Char)
  | 'w' :: rest => (readNumber rest).map (Prod.map (ofMark ∘ .word) id)
  | '?' :: rest => (readNumber rest).map (Prod.map (ofMark ∘ .lineEnd) id)
  | rest => (readNumber rest).map (Prod.map (ofMark ∘ .char) id)

/-- Reads the token that begins with `c`. -/
def read (c : Char) (rest : List Char) : Except ParseError (AddressToken × List Char) :=
  match c with
  | '+' => .ok (.part (.sign .plus), rest)
  | '-' => .ok (.part (.sign .minus), rest)
  | ',' => .ok (.separator .comma, rest)
  | ';' => .ok (.separator .semicolon, rest)
  | '.' => .ok (ofMark .dot, rest)
  | '$' => .ok (ofMark .last, rest)
  | '/' => (readDelimited '/' false rest).map (Prod.map (ofMark <| .search · false) id)
  | '?' => (readDelimited '?' false rest).map (Prod.map (ofMark <| .search · true) id)
  | '#' => readCounted rest
  | _ =>
    if c.isDigit then
      (readNumber (c :: rest)).map (Prod.map (fun count => ofMark (.line (count.getD 0))) id)
    else .error (.notAnAddress c)

/-- A reader that is mapped over its result leaves the same text. -/
theorem length_of_map {α β : Type} {bound : Nat} {result : Except ParseError (α × List Char)}
    {f : α → β} {value : β} {rest : List Char}
    (h : result.map (Prod.map f id) = .ok (value, rest))
    (hbound : ∀ a rest, result = .ok (a, rest) → rest.length ≤ bound) : rest.length ≤ bound := by
  match result, h, hbound with
  | .ok (a, after), h, hbound =>
    obtain ⟨_, rfl⟩ := by simpa [Except.map] using h
    exact hbound a after rfl

/-- Reading a counted mark puts no text back. -/
theorem length_of_readCounted {chars rest : List Char} {token : AddressToken}
    (h : readCounted chars = .ok (token, rest)) : rest.length ≤ chars.length := by
  unfold readCounted at h
  split at h
  · exact length_of_map h fun _ _ hread => Nat.le_succ_of_le (length_of_readNumber hread)
  · exact length_of_map h fun _ _ hread => Nat.le_succ_of_le (length_of_readNumber hread)
  · exact length_of_map h fun _ _ hread => length_of_readNumber hread

/-- Reading a token takes at least its first character. -/
theorem length_of_read {c : Char} {chars rest : List Char} {token : AddressToken}
    (h : read c chars = .ok (token, rest)) : rest.length ≤ chars.length := by
  unfold read at h
  split at h
  case h_7 => exact length_of_map h fun _ _ hread => Nat.le_of_lt (length_of_readDelimited hread)
  case h_8 => exact length_of_map h fun _ _ hread => Nat.le_of_lt (length_of_readDelimited hread)
  case h_9 => exact length_of_readCounted h
  case h_10 =>
    split at h
    · next hdigit =>
      refine length_of_map h fun count after hread => ?_
      simp only [readNumber, List.takeWhile_cons, hdigit, List.dropWhile_cons, ↓reduceIte] at hread
      split at hread
      · obtain ⟨_, rfl⟩ := by simpa using hread
        exact length_dropWhile_le _ _
      · simp at hread
    · simp at h
  all_goals
    obtain ⟨_, rfl⟩ := by simpa using h
    exact Nat.le_refl _

/-- Reads tokens as long as one begins, with blanks before each, and leaves the rest of the text
without the blanks before it. -/
def readAll (blank : Char → Bool) (chars : List Char) :
    Except ParseError (List AddressToken × List Char) :=
  match _ : chars.dropWhile blank with
  | [] => .ok ([], [])
  | c :: rest =>
    if starts c then
      match _ : read c rest with
      | .error error => .error error
      | .ok (token, after) =>
        (readAll blank after).map fun (tokens, rest) => (token :: tokens, rest)
    else .ok ([], c :: rest)
termination_by chars.length
decreasing_by
  rename_i hchars _ hread
  have hle := length_dropWhile_le blank chars
  have := length_of_read hread
  rw [hchars, List.length_cons] at hle
  omega

end AddressToken

/-- A token comes before those that are read behind it. -/
theorem AddressToken.readAll_cons {blank : Char → Bool} {c : Char} {rest after : List Char}
    {token : AddressToken} (hblank : blank c = false) (hstarts : starts c = true)
    (hread : read c rest = .ok (token, after)) :
    readAll blank (c :: rest) =
      (readAll blank after).map fun (tokens, rest) => (token :: tokens, rest) := by
  have hdrop : (c :: rest).dropWhile blank = c :: rest := by
    rw [List.dropWhile_cons, hblank, if_neg Bool.false_ne_true]
  rw [readAll]
  split
  · next hnil =>
    rw [hdrop] at hnil
    cases hnil
  · next c rest hcons =>
    rw [hdrop] at hcons
    obtain ⟨rfl, rfl⟩ := List.cons.inj hcons
    rw [if_pos hstarts]
    split
    · next error herror =>
      rw [hread] at herror
      cases herror
    · next token after hok =>
      rw [hread] at hok
      obtain ⟨rfl, rfl⟩ := Prod.mk.inj (Except.ok.inj hok)
      rfl

/-- Reads a whole text as an address. -/
def Address.parse (text : String) : Except EditError Address :=
  match AddressToken.readAll isBlank text.toList with
  | .error error => .error (.parse error)
  | .ok (_, c :: _) => .error (.parse (.notAnAddress c))
  | .ok (tokens, []) => (Address.ofTokens tokens).mapError .pattern

end Emend
