import Emend.Highlight.Rules

/-!
# Scanning for regions

A text is scanned token by token from a place outside all regions. A token is a delimiter, or one
character of the text between delimiters, or an escape with the character that it hides. After each
token the scan is at a later place, outside all regions or inside one of them.
-/

namespace Emend

/-- What opens or closes a region. -/
inductive Delimiter where
  /-- This text. -/
  | text (chars : List Char)
  /-- A match of this pattern. -/
  | pattern (regex : Regex)
  deriving DecidableEq, Repr

namespace Delimiter

/-- The delimiter that a rule writes. -/
def compile (written : String) (isPattern : Bool) : Except RegexError Delimiter :=
  if isPattern then (Regex.compile written false false).map .pattern
  else .ok (.text written.toList)

/-- Whether a text holds these characters from a position on. -/
def occursAt (text : Source) (position : Nat) : List Char → Bool
  | [] => true
  | c :: rest => text.charAt? position == some c && occursAt text (position + 1) rest

/-- Where the delimiter ends that begins at a position. An empty delimiter does not count. -/
def endAt? (text : Source) (position : Nat) : Delimiter → Option Nat
  | .text chars =>
    if !chars.isEmpty && occursAt text position chars then some (position + chars.length) else none
  | .pattern regex =>
    match regex.matchAt text position text.size .forward with
    | some found => if position < found.stop then some found.stop else none
    | none => none

/-- A delimiter ends after the place where it begins. -/
theorem lt_of_endAt? {text : Source} {position stop : Nat} {delimiter : Delimiter}
    (h : delimiter.endAt? text position = some stop) : position < stop := by
  match delimiter with
  | .text [] => simp [endAt?] at h
  | .text (c :: rest) =>
    simp only [endAt?, List.isEmpty_cons, Bool.not_false, Bool.true_and, List.length_cons] at h
    split at h
    · simp only [Option.some.injEq] at h
      omega
    · simp at h
  | .pattern regex =>
    simp only [endAt?] at h
    split at h
    · split at h
      · simp only [Option.some.injEq] at h
        omega
      · simp at h
    · simp at h

end Delimiter

/-- A region that a scan looks for. -/
structure Region where
  /-- What opens it. -/
  opening : Delimiter
  /-- What closes it. -/
  closing : Delimiter
  /-- A character that keeps the next one from closing it. -/
  escape : Option Char
  /-- The tag of its text. -/
  tag : Nat
  /-- The tag of its delimiters. -/
  delimiterTag : Nat
  deriving DecidableEq, Repr

/-- The region that a rule describes. -/
def Region.ofRule (rule : RegionRule) : Except RegexError Region := do
  let opening ← Delimiter.compile rule.opening rule.isPattern
  let closing ← Delimiter.compile rule.closing rule.isPattern
  return ⟨opening, closing, rule.escape, rule.kind.tag,
    if rule.isPattern then plainTag else rule.kind.tag⟩

/-- How far a scan has come. -/
structure ScanState where
  /-- The next position to look at. -/
  position : Nat
  /-- The number of the region that the position lies in, if any. -/
  region : Option Nat
  deriving DecidableEq, Repr

namespace ScanState

/-- The beginning of a text. -/
def origin : ScanState :=
  ⟨0, none⟩

/-- The first region that opens at a position: its number, where its delimiter ends, and the tag of
the delimiter. -/
def openedAt? (text : Source) (position : Nat) :
    List Region → (number : Nat) → Option (Nat × Nat × Nat)
  | [], _ => none
  | region :: rest, number =>
    match region.opening.endAt? text position with
    | some stop => some (number, stop, region.delimiterTag)
    | none => openedAt? text position rest (number + 1)

/-- How many characters a token of a region's text has: two for an escape, else one. -/
def width (text : Source) (position : Nat) (region : Region) : Nat :=
  if region.escape.isSome && text.charAt? position == region.escape then 2 else 1

/-- The state after the next token, and the tag of the token. -/
def next (regions : List Region) (text : Source) (state : ScanState) : ScanState × Nat :=
  match state.region.bind (regions[·]?) with
  | none =>
    match openedAt? text state.position regions 0 with
    | some (number, stop, tag) => (⟨stop, some number⟩, tag)
    | none => (⟨state.position + 1, none⟩, plainTag)
  | some region =>
    match region.closing.endAt? text state.position with
    -- The closing delimiter is looked for before an escape.
    | some stop => (⟨stop, none⟩, region.delimiterTag)
    | none => (⟨state.position + width text state.position region, state.region⟩, region.tag)

/-- The delimiter that opens a region ends after the place where it begins. -/
theorem lt_of_openedAt? {text : Source} {position number found stop tag : Nat}
    {regions : List Region} (h : openedAt? text position regions number = some (found, stop, tag)) :
    position < stop := by
  induction regions generalizing number with
  | nil => simp [openedAt?] at h
  | cons region rest ih =>
    unfold openedAt? at h
    split at h
    · next hend =>
      simp only [Option.some.injEq, Prod.mk.injEq] at h
      obtain ⟨_, rfl, _⟩ := h
      exact Delimiter.lt_of_endAt? hend
    · exact ih h

/-- Every token has at least one character. -/
theorem lt_next (regions : List Region) (text : Source) (state : ScanState) :
    state.position < (state.next regions text).1.position := by
  unfold next
  split
  · split
    · next h => exact lt_of_openedAt? h
    · exact Nat.lt_succ_self _
  · split
    · next h => exact Delimiter.lt_of_endAt? h
    · simp only [width]
      split <;> omega

end ScanState

end Emend
