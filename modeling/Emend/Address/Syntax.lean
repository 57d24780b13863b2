import Emend.Pattern.Regex

/-!
# Addresses

An address names a range of a text: a line, a character, a word, the next match of a pattern, or
what lies between two other addresses. Simple addresses that follow each other form a chain, in
which each is taken relative to the range that the ones before it name. This module holds the
addresses and how they are listed; reading and evaluating them come later.
-/

namespace Emend

/-- The side of a range on which a relative address looks. -/
inductive Sign where
  /-- After the end of the range. -/
  | plus
  /-- Before its start. -/
  | minus
  deriving DecidableEq, Repr

/-- How a sign is written. -/
def Sign.symbol : Sign → String
  | .plus => "+"
  | .minus => "-"

/-- What joins two addresses to a range. -/
inductive Separator where
  /-- Both addresses are taken relative to the same range. -/
  | comma
  /-- The second address is taken relative to what the first one names. -/
  | semicolon
  deriving DecidableEq, Repr

/-- How a separator is written. -/
def Separator.symbol : Separator → String
  | .comma => ","
  | .semicolon => ";"

/-- A pattern to look for. It is compiled for both directions, since the sign before it decides
on the direction together with its delimiters. -/
structure Search where
  /-- The pattern as written, with its leading `@` if it has one. -/
  pattern : String
  /-- Whether it is written between question marks. -/
  reverse : Bool
  /-- The pattern for looking forward. -/
  ahead : Regex
  /-- The pattern for looking backward. -/
  back : Regex
  deriving DecidableEq, Repr

namespace Search

/-- Whether a failed search leaves the range as it is. A leading `@` asks for that. -/
def isLenient (search : Search) : Bool :=
  search.pattern.startsWith "@"

/-- The part of a written pattern that is looked for. -/
def body (pattern : String) : String :=
  match pattern.toList with
  | '@' :: rest => String.ofList rest
  | _ => pattern

/-- Compiles a written pattern for both directions. -/
def compile (pattern : String) (reverse : Bool) : Except RegexError Search := do
  let ahead ← Regex.compile (body pattern) true false
  let back ← Regex.compile (body pattern) true true
  return ⟨pattern, reverse, ahead, back⟩

end Search

/-- What a simple address counts or looks for. -/
inductive Place where
  /-- The range that the address is relative to. -/
  | dot
  /-- The end of the text. -/
  | last
  /-- A line. -/
  | line (count : Nat)
  /-- The place between two characters. -/
  | char (count : Nat)
  /-- A word. -/
  | word (count : Nat)
  /-- The end of a line without its line end. -/
  | lineEnd (count : Nat)
  /-- A match of a pattern. -/
  | search (wanted : Search)
  deriving DecidableEq, Repr

/-- How a place is listed. -/
def Place.render : Place → String
  | .dot => "."
  | .last => "$"
  | .line count => toString count
  | .char count => s!"#{count}"
  | .word count => s!"#w{count}"
  | .lineEnd count => s!"#?{count}"
  | .search wanted => (if wanted.reverse then "?" else "/") ++ wanted.pattern

/-- A place, counted from the beginning of the text or, with a sign, from a side of a range. -/
structure SimpleAddress where
  /-- The side to count from, if any. -/
  sign : Option Sign
  /-- What is counted or looked for. -/
  place : Place
  deriving DecidableEq, Repr

/-- How a simple address is listed. -/
def SimpleAddress.render (address : SimpleAddress) : String :=
  (match address.sign with | none => "" | some sign => sign.symbol) ++ address.place.render

/-- The range itself. -/
def SimpleAddress.dot : SimpleAddress :=
  ⟨none, .dot⟩

/-- A way to name a range of a text. -/
inductive Address where
  /-- One place. -/
  | simple (address : SimpleAddress)
  /-- Places that are each relative to the one before. -/
  | chain (addresses : List SimpleAddress)
  /-- From the start of one range to the end of another. -/
  | between (left : Address) (separator : Separator) (right : Address)
  deriving Repr

namespace Address

/-- The range itself. -/
def dot : Address :=
  .simple .dot

/-- The beginning of the text, the left end of a range that names none. -/
def first : Address :=
  .simple ⟨none, .line 0⟩

/-- The end of the text, the right end of a range that names none. -/
def last : Address :=
  .simple ⟨none, .last⟩

/-- How an address is listed. -/
def render : Address → String
  | .simple address => address.render
  | .chain addresses => "List<" ++ String.join (addresses.map (·.render ++ " ")) ++ ">"
  | .between left separator right =>
    "Op<" ++ left.render ++ " " ++ separator.symbol ++ " " ++ right.render ++ ">"

end Address

end Emend
