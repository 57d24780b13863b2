import Emend.Yaml.Token
import Emend.Yaml.Value

/-!
# Reading YAML values

The tokens of a text are read as one value. Collections have brackets in the tokens, so a value is
read by its first token, and what a key or a dash stands before may be left out. A text holds one
document; marks may stand before it and after it.
-/

namespace Emend.Yaml.Value

/-- A value and the tokens after it, fewer than there were. -/
abbrev Parsed (α : Type) (tokens : List Token) :=
  Option (α × { rest : List Token // rest.length < tokens.length })

/-- A value that may be left out, and the tokens after it. -/
abbrev ParsedAny (α : Type) (tokens : List Token) :=
  Option (α × { rest : List Token // rest.length ≤ tokens.length })

/-- Whether tokens begin with one of `ends`. -/
def beginWith (ends : List Token) : List Token → Bool
  | [] => false
  | token :: _ => ends.contains token

mutual

/-- Reads a value. -/
def node : (tokens : List Token) → Parsed Value tokens
  | .scalar text plain :: rest => some (.scalar text plain, ⟨rest, by simp⟩)
  | .openSequence :: rest => do
    let (items, ⟨rest', h⟩) ← flowItems rest
    return (.sequence items, ⟨rest', by simp only [List.length_cons]; omega⟩)
  | .openMapping :: rest => do
    let (entries, ⟨rest', h⟩) ← flowEntries rest
    return (.mapping entries, ⟨rest', by simp only [List.length_cons]; omega⟩)
  | .openBlockSequence :: rest => do
    let (items, ⟨rest', h⟩) ← blockItems rest
    return (.sequence items, ⟨rest', by simp only [List.length_cons]; omega⟩)
  | .openBlockMapping :: rest => do
    let (entries, ⟨rest', h⟩) ← blockEntries rest
    return (.mapping entries, ⟨rest', by simp only [List.length_cons]; omega⟩)
  | _ => none
termination_by tokens => (tokens.length, 0)

/-- Reads a value that is left out if one of `ends` stands in its place. -/
def nodeUnless (ends : List Token) (tokens : List Token) : ParsedAny Value tokens :=
  if beginWith ends tokens then some (.empty, ⟨tokens, Nat.le_refl _⟩)
  else do
    let (value, ⟨rest, h⟩) ← node tokens
    return (value, ⟨rest, Nat.le_of_lt h⟩)
termination_by (tokens.length, 1)

/-- Reads the items of a block sequence, and its end. -/
def blockItems : (tokens : List Token) → Parsed (List Value) tokens
  | .closeBlock :: rest => some ([], ⟨rest, by simp⟩)
  | .dash :: rest => do
    let (item, ⟨rest₁, h₁⟩) ← nodeUnless [.dash, .closeBlock] rest
    let (items, ⟨rest₂, h₂⟩) ← blockItems rest₁
    return (item :: items, ⟨rest₂, by simp only [List.length_cons]; omega⟩)
  | _ => none
termination_by tokens => (tokens.length, 0)

/-- Reads the items of a block sequence that stands in the column of the mapping around it. It has
no brackets, and ends where no dash follows. -/
def bareItems : (tokens : List Token) → ParsedAny (List Value) tokens
  | .dash :: rest => do
    let (item, ⟨rest₁, h₁⟩) ← nodeUnless [.dash, .key, .value, .closeBlock] rest
    let (items, ⟨rest₂, h₂⟩) ← bareItems rest₁
    return (item :: items, ⟨rest₂, by simp only [List.length_cons]; omega⟩)
  | tokens => some ([], ⟨tokens, Nat.le_refl _⟩)
termination_by tokens => (tokens.length, 0)

/-- Reads a key or a value of a block mapping, which may be left out. -/
def blockPart (tokens : List Token) : ParsedAny Value tokens :=
  if beginWith [.dash] tokens then do
    let (items, ⟨rest, h⟩) ← bareItems tokens
    return (.sequence items, ⟨rest, h⟩)
  else nodeUnless [.key, .value, .closeBlock] tokens
termination_by (tokens.length, 2)

/-- Reads a value behind its mark; both may be left out. -/
def blockValue (tokens : List Token) : ParsedAny Value tokens :=
  match tokens with
  | .value :: rest => do
    let (value, ⟨rest', h⟩) ← blockPart rest
    return (value, ⟨rest', by simp only [List.length_cons]; omega⟩)
  | tokens => some (.empty, ⟨tokens, Nat.le_refl _⟩)
termination_by (tokens.length, 0)

/-- Reads the entries of a block mapping, and its end. -/
def blockEntries : (tokens : List Token) → Parsed (List (Value × Value)) tokens
  | .closeBlock :: rest => some ([], ⟨rest, by simp⟩)
  | .key :: rest => do
    let (key, ⟨rest₁, h₁⟩) ← blockPart rest
    let (value, ⟨rest₂, h₂⟩) ← blockValue rest₁
    let (entries, ⟨rest₃, h₃⟩) ← blockEntries rest₂
    return ((key, value) :: entries, ⟨rest₃, by simp only [List.length_cons]; omega⟩)
  | _ => none
termination_by tokens => (tokens.length, 0)

/-- Reads the value of an entry of a flow collection behind its mark; both may be left out. The
collection ends with `close`. -/
def flowValue (close : Token) (tokens : List Token) : ParsedAny Value tokens :=
  match tokens with
  | .value :: rest => do
    let (value, ⟨rest', h⟩) ← nodeUnless [.comma, close] rest
    return (value, ⟨rest', by simp only [List.length_cons]; omega⟩)
  | tokens => some (.empty, ⟨tokens, Nat.le_refl _⟩)
termination_by (tokens.length, 0)

/-- Reads an entry of a mapping that is an item of a flow sequence, behind the mark before its key.
Where the key is left out, the token in its place is taken for it. -/
def flowPair (tokens : List Token) : ParsedAny Value tokens :=
  match tokens with
  | [] => none
  | token :: rest =>
    if [Token.value, .comma, .closeSequence].contains token then do
      let (value, ⟨rest', h⟩) ← flowValue .closeSequence rest
      return (.mapping [(.empty, value)], ⟨rest', by simp only [List.length_cons]; omega⟩)
    else do
      let (key, ⟨rest₁, h₁⟩) ← node (token :: rest)
      let (value, ⟨rest₂, h₂⟩) ← flowValue .closeSequence rest₁
      return (.mapping [(key, value)], ⟨rest₂, by omega⟩)
termination_by (tokens.length, 1)

/-- Reads the items of a flow sequence, and its end. -/
def flowItems : (tokens : List Token) → Parsed (List Value) tokens
  | .closeSequence :: rest => some ([], ⟨rest, by simp⟩)
  | .key :: rest => do
    let (item, ⟨rest₁, h₁⟩) ← flowPair rest
    let (items, ⟨rest₂, h₂⟩) ← flowMoreItems rest₁
    return (item :: items, ⟨rest₂, by simp only [List.length_cons]; omega⟩)
  | tokens => do
    let (item, ⟨rest₁, h₁⟩) ← node tokens
    let (items, ⟨rest₂, h₂⟩) ← flowMoreItems rest₁
    return (item :: items, ⟨rest₂, by omega⟩)
termination_by tokens => (tokens.length, 1)

/-- Reads what follows an item of a flow sequence. -/
def flowMoreItems : (tokens : List Token) → Parsed (List Value) tokens
  | .closeSequence :: rest => some ([], ⟨rest, by simp⟩)
  | .comma :: rest => do
    let (items, ⟨rest', h⟩) ← flowItems rest
    return (items, ⟨rest', by simp only [List.length_cons]; omega⟩)
  | _ => none
termination_by tokens => (tokens.length, 0)

/-- Reads the entries of a flow mapping, and its end. -/
def flowEntries : (tokens : List Token) → Parsed (List (Value × Value)) tokens
  | .closeMapping :: rest => some ([], ⟨rest, by simp⟩)
  | .key :: rest => do
    let (key, ⟨rest₁, h₁⟩) ← nodeUnless [.value, .comma, .closeMapping] rest
    let (value, ⟨rest₂, h₂⟩) ← flowValue .closeMapping rest₁
    let (entries, ⟨rest₃, h₃⟩) ← flowMoreEntries rest₂
    return ((key, value) :: entries, ⟨rest₃, by simp only [List.length_cons]; omega⟩)
  -- A value without a mark is a key alone.
  | tokens => do
    let (key, ⟨rest₁, h₁⟩) ← node tokens
    let (entries, ⟨rest₂, h₂⟩) ← flowMoreEntries rest₁
    return ((key, .empty) :: entries, ⟨rest₂, by omega⟩)
termination_by tokens => (tokens.length, 1)

/-- Reads what follows an entry of a flow mapping. -/
def flowMoreEntries : (tokens : List Token) → Parsed (List (Value × Value)) tokens
  | .closeMapping :: rest => some ([], ⟨rest, by simp⟩)
  | .comma :: rest => do
    let (entries, ⟨rest', h⟩) ← flowEntries rest
    return (entries, ⟨rest', by simp only [List.length_cons]; omega⟩)
  | _ => none
termination_by tokens => (tokens.length, 0)

end

/-- The value of the one document that tokens hold. A text without a document has the empty
value. -/
def ofTokens? (tokens : List Token) : Option Value :=
  let parsed : Option (Value × List Token) :=
    match tokens with
    | [] => some (.empty, [])
    | .documentStart :: [] => some (.empty, [])
    | .documentStart :: rest =>
      (nodeUnless [.documentStart, .documentEnd] rest).map fun (value, ⟨rest, _⟩) => (value, rest)
    | tokens => (node tokens).map fun (value, ⟨rest, _⟩) => (value, rest)
  match parsed with
  | some (value, rest) => if rest.all (· == .documentEnd) then some value else none
  | none => none

/-- The value of a text. -/
def read? (text : List Char) : Option Value :=
  (tokensOf? text).bind ofTokens?

end Emend.Yaml.Value
