import Emend.Error

/-!
# Replacements

What a program does to a text is a list of replacements, each in positions of the text as it was
before any of them. They are applied together: in the order of their ranges, those that overlap an
earlier one left out, each at the place to which the ones before it have moved it.

This module also holds what the patterns of a program are for: the successive matches in a range,
the gaps between them, and the texts that replace them.
-/

namespace Emend

/-- A text to put in place of a range. -/
structure Replacement where
  /-- The range. -/
  range : Selection
  /-- The text. -/
  text : List Char
  deriving DecidableEq, Repr

namespace Replacement

/-- Whether a replacement comes no later than another in the order of their ranges. -/
def comesBefore (a b : Replacement) : Bool :=
  a.range.start < b.range.start ||
    (a.range.start == b.range.start && a.range.stop ≤ b.range.stop)

/-- The replacements of a list that begin at or after the end of the one kept before them, and at
or after `bound`. -/
def dropOverlaps (bound : Nat) : List Replacement → List Replacement
  | [] => []
  | replacement :: rest =>
    -- Two empty ranges at one place do not overlap.
    if replacement.range.start < bound then dropOverlaps bound rest
    else replacement :: dropOverlaps replacement.range.stop rest

/-- Replacements in the order in which they are applied. Of those with one range the order stays as
it was. -/
def arrange (replacements : List Replacement) : List Replacement :=
  dropOverlaps 0 (replacements.mergeSort comesBefore)

/-- By how much a replacement moves the text after it. -/
def shift (replacement : Replacement) : Int :=
  (replacement.text.length : Int) - replacement.range.length

/-- A replacement in a text in which the earlier ones have moved it by `offset`. -/
def moved (replacement : Replacement) (offset : Int) : Replacement :=
  let start := (replacement.range.start + offset).toNat
  { replacement with range := ⟨start, start + replacement.range.length⟩ }

/-- Arranged replacements, each at its place in the text that the ones before it leave. -/
def inTurn (offset : Int) : List Replacement → List Replacement
  | [] => []
  | replacement :: rest =>
    replacement.moved offset :: inTurn (offset + replacement.shift) rest

end Replacement

/-- Where the search goes on after a match: at its end, or one further after an empty match. -/
def Captures.resumeAt (captures : Captures) : Nat :=
  if captures.start = captures.stop then captures.stop + 1 else captures.stop

namespace Regex

/-- The successive matches of a pattern from `position` up to `stop`: each is looked for where the
one before it ends, or one further if that one was empty. -/
def successive (regex : Regex) (text : Source) (position stop : Nat) : List Captures :=
  if position ≤ stop then
    match regex.matchAt text position stop .forward with
    | none => []
    | some found =>
      if position < found.resumeAt then found :: regex.successive text found.resumeAt stop
      else [found]
  else []
termination_by stop + 1 - position

end Regex

namespace Captures

/-- The range of the whole match. -/
def range (captures : Captures) : Selection :=
  ⟨captures.start, captures.stop⟩

/-- The ranges between successive matches from `start` up to `stop`. The last one is left out if it
is empty. -/
def gaps (start stop : Nat) : List Captures → List Selection
  | [] => if start < stop then [⟨start, stop⟩] else []
  | found :: rest => ⟨start, found.start⟩ :: gaps found.stop stop rest

/-- What a replacement text writes for a match: a backslash and a digit stand for the text of a
group, other escapes for line ends, tabs, or the escaped character itself. -/
def expand (captures : Captures) (text : Source) : List Char → Except EditError (List Char)
  | [] => .ok []
  | ['\\'] => .ok ['\\']
  | '\\' :: c :: rest => do
    let written ←
      if c.isDigit then
        let number := c.toNat - '0'.toNat
        if captures.groupCount ≤ number then throw (.unknownGroup number)
        else
          match captures.group? number with
          | some (start, stop) => pure (text.slice start stop)
          | none => pure []
      else if c = 'n' then pure ['\n']
      else if c = 't' then pure ['\t']
      else pure [c]
    return written ++ (← expand captures text rest)
  | c :: rest => do
    return c :: (← expand captures text rest)

end Captures

/-- The matches that a substitution replaces: all of them, or the one with the number `nth`. -/
def substituted (nth : Nat) (all : Bool) (found : List Captures) : List Captures :=
  if nth = 0 || all then found else (found.drop (nth - 1)).take 1

/-- The replacements of a substitution in a range. A match that begins at the end of the range is
not replaced, and ends the search. -/
def substitutions (text : Source) (range : Selection) (nth : Nat) (regex : Regex)
    (replacement : String) (all : Bool) : Except EditError (List Replacement) :=
  let found := regex.successive text range.start range.stop
  (substituted nth all (found.takeWhile (·.start < range.stop))).mapM fun captures => do
    return ⟨captures.range, ← captures.expand text replacement.toList⟩

end Emend
