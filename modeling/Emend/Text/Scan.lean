import Emend.Text.Property
import Emend.Text.Source

/-!
# Scans for boundaries

Where does the line, the word, the path or the bracket end that lies at a position? Each scan walks
the text from there, in one of the two directions, and answers a position of the text, its size
included. Lines are found by two searches, for the first character at or after a position and for
the last one before it that satisfy a condition. Runs of characters and pairs of brackets are walked
by one loop each, which serves both directions.
-/

namespace Emend

/-- A character of a word as scans see it: a letter, a number or the underscore. -/
def isWordChar (c : Char) : Bool :=
  isAlphanumeric c || c == '_'

/-- A character that a path may hold. -/
def isFilenameChar (c : Char) : Bool :=
  isWordChar c || "-+/=~!:,.".contains c

namespace Direction

/-- The position that a scan looks at after another one, unless it has reached the beginning of the
text. -/
def after? : Direction → Nat → Option Nat
  | .forward, position => some (position + 1)
  | .backward, 0 => none
  | .backward, position + 1 => some position

/-- A bound for how many positions of a text of `size` characters a scan can still look at. -/
def remaining (size position : Nat) : Direction → Nat
  | .forward => size - position
  | .backward => position

/-- A scan comes closer to the end of the text that it walks to. -/
theorem remaining_lt {direction : Direction} {size position next : Nat} (h : position < size)
    (hnext : direction.after? position = some next) :
    direction.remaining size next < direction.remaining size position := by
  cases direction with
  | forward =>
    cases hnext
    exact Nat.sub_succ_lt_self _ _ h
  | backward =>
    cases position with
    | zero => cases hnext
    | succ position =>
      cases hnext
      exact Nat.lt_succ_self _

end Direction

/-- What a scan for a matching bracket comes to. -/
inductive BracketScan where
  /-- The position of the matching bracket. -/
  | found (position : Nat)
  /-- There is none. -/
  | unmatched
  /-- A bracket that would end a pair which the scan has not begun. -/
  | underflow
  deriving DecidableEq, Repr

/-- The position of the matching bracket. -/
def BracketScan.found? : BracketScan → Option Nat
  | found position => some position
  | unmatched => none
  | underflow => none

/-- A scan gives the position that it has found. -/
theorem BracketScan.found?_eq_some_iff {scan : BracketScan} {position : Nat} :
    scan.found? = some position ↔ scan = .found position := by
  cases scan with
  | found other => rw [found?, Option.some.injEq, found.injEq]
  | unmatched => exact iff_of_false nofun nofun
  | underflow => exact iff_of_false nofun nofun

namespace Source

/-- The first position at or after `position` whose character satisfies `p`. -/
def findFrom? (text : Source) (p : Char → Bool) (position : Nat) : Option Nat :=
  if position < text.size then
    if p (text.get position) then some position else text.findFrom? p (position + 1)
  else none
termination_by text.size - position

/-- The last position before `position` whose character satisfies `p`. The position must not lie
after the end of the text. -/
def findBefore? (text : Source) (p : Char → Bool) : Nat → Option Nat
  | 0 => none
  | position + 1 =>
    if p (text.get position) then some position else text.findBefore? p position

/-- A search forward finds the first position that satisfies the condition. -/
theorem findFrom?_eq_some_iff {text : Source} {p : Char → Bool} {position found : Nat} :
    text.findFrom? p position = some found ↔
      position ≤ found ∧ found < text.size ∧ p (text.get found) = true ∧
        ∀ other, position ≤ other → other < found → p (text.get other) = false := by
  fun_induction findFrom? text p position with
  | case1 position hinside hhere =>
    rw [Option.some.injEq]
    constructor
    · rintro rfl
      exact ⟨Nat.le_refl _, hinside, hhere, fun other hle hlt => by omega⟩
    · rintro ⟨hle, _, _, hbefore⟩
      refine (Nat.eq_or_lt_of_le hle).resolve_right fun hlt => ?_
      rw [hbefore position (Nat.le_refl _) hlt] at hhere
      cases hhere
  | case2 position hinside hhere ih =>
    rw [ih]
    constructor
    · rintro ⟨hle, hlt, hfound, hbefore⟩
      refine ⟨Nat.le_of_succ_le hle, hlt, hfound, fun other hother => ?_⟩
      rcases Nat.eq_or_lt_of_le hother with rfl | hbehind
      · exact fun _ => Bool.eq_false_iff.2 hhere
      · exact hbefore other hbehind
    · rintro ⟨hle, hlt, hfound, hbefore⟩
      refine ⟨Nat.lt_of_le_of_ne hle ?_, hlt, hfound,
        fun other hother => hbefore other (Nat.le_of_succ_le hother)⟩
      rintro rfl
      exact hhere hfound
  | case3 position houtside =>
    refine iff_of_false nofun ?_
    rintro ⟨hle, hlt, _⟩
    exact houtside (Nat.lt_of_le_of_lt hle hlt)

/-- A search forward finds nothing if no position satisfies the condition. -/
theorem findFrom?_eq_none_iff {text : Source} {p : Char → Bool} {position : Nat} :
    text.findFrom? p position = none ↔
      ∀ other, position ≤ other → other < text.size → p (text.get other) = false := by
  constructor
  · intro hnone
    fun_induction findFrom? text p position with
    | case1 => cases hnone
    | case2 position hinside hhere ih =>
      intro other hother
      rcases Nat.eq_or_lt_of_le hother with rfl | hbehind
      · exact fun _ => Bool.eq_false_iff.2 hhere
      · exact ih hnone other hbehind
    | case3 position houtside =>
      exact fun other hother hlt => absurd (Nat.lt_of_le_of_lt hother hlt) houtside
  · intro hnowhere
    rw [Option.eq_none_iff_forall_ne_some]
    intro found hfound
    obtain ⟨hle, hlt, hhere, _⟩ := findFrom?_eq_some_iff.1 hfound
    rw [hnowhere found hle hlt] at hhere
    cases hhere

/-- A search forward for a character finds its first occurrence. -/
theorem findFrom?_char_eq_some_iff {text : Source} {c : Char} {position found : Nat} :
    text.findFrom? (· == c) position = some found ↔
      position ≤ found ∧ text.charAt? found = some c ∧
        ∀ other, position ≤ other → other < found → text.charAt? other ≠ some c := by
  rw [findFrom?_eq_some_iff]
  constructor
  · rintro ⟨hposition, hsize, hhere, hbefore⟩
    refine ⟨hposition, ?_, fun other hother hlt heq => ?_⟩
    · rw [charAt?, if_pos hsize, beq_iff_eq.1 hhere]
    · exact beq_eq_false_iff_ne.1 (hbefore other hother hlt) (get_of_charAt? heq).2
  · rintro ⟨hposition, hhere, hbefore⟩
    obtain ⟨hsize, hget⟩ := get_of_charAt? hhere
    refine ⟨hposition, hsize, beq_iff_eq.2 hget, fun other hother hlt => ?_⟩
    refine beq_eq_false_iff_ne.2 fun heq => hbefore other hother hlt ?_
    rw [charAt?, if_pos (Nat.lt_trans hlt hsize), heq]

/-- A search backward finds the last position that satisfies the condition. -/
theorem findBefore?_eq_some_iff {text : Source} {p : Char → Bool} {position found : Nat} :
    text.findBefore? p position = some found ↔
      found < position ∧ p (text.get found) = true ∧
        ∀ other, found < other → other < position → p (text.get other) = false := by
  induction position with
  | zero => exact iff_of_false nofun fun h => Nat.not_lt_zero _ h.1
  | succ position ih =>
    rw [findBefore?]
    split
    · next hhere =>
      rw [Option.some.injEq]
      constructor
      · rintro rfl
        exact ⟨Nat.lt_succ_self _, hhere, fun other hlt hle => by omega⟩
      · rintro ⟨hlt, _, hbehind⟩
        refine ((Nat.eq_or_lt_of_le (Nat.le_of_lt_succ hlt)).resolve_right fun hbefore => ?_).symm
        rw [hbehind position hbefore (Nat.lt_succ_self _)] at hhere
        cases hhere
    · next hhere =>
      rw [ih]
      constructor
      · rintro ⟨hlt, hfound, hbehind⟩
        refine ⟨Nat.lt_succ_of_lt hlt, hfound, fun other hother hle => ?_⟩
        rcases Nat.eq_or_lt_of_le (Nat.le_of_lt_succ hle) with rfl | hbefore
        · exact Bool.eq_false_iff.2 hhere
        · exact hbehind other hother hbefore
      · rintro ⟨hlt, hfound, hbehind⟩
        refine ⟨Nat.lt_of_le_of_ne (Nat.le_of_lt_succ hlt) ?_, hfound,
          fun other hother hbefore => hbehind other hother (Nat.lt_succ_of_lt hbefore)⟩
        rintro rfl
        exact hhere hfound

/-- A search backward finds nothing if no position satisfies the condition. -/
theorem findBefore?_eq_none_iff {text : Source} {p : Char → Bool} {position : Nat} :
    text.findBefore? p position = none ↔
      ∀ other, other < position → p (text.get other) = false := by
  induction position with
  | zero => exact iff_of_true rfl fun other hlt => absurd hlt (Nat.not_lt_zero _)
  | succ position ih =>
    rw [findBefore?, Nat.forall_lt_succ_right, ← ih]
    split
    · next hhere => exact iff_of_false nofun fun h => by rw [hhere] at h; exact absurd h.2 nofun
    · next hhere => exact ⟨fun h => ⟨h, Bool.eq_false_iff.2 hhere⟩, fun h => h.1⟩

/-- Just after the nearest line end in a direction, the character at `position` included, or the
end of the text that lies there. -/
def pastNewline (text : Source) (position : Nat) : Direction → Nat
  | .forward =>
    match text.findFrom? (· == '\n') position with
    | some found => found + 1
    | none => text.size
  | .backward =>
    match text.findBefore? (· == '\n') (min (position + 1) text.size) with
    | some found => found + 1
    | none => 0

/-- Where the line begins that holds a position. -/
def lineStart (text : Source) : Nat → Nat
  | 0 => 0
  | position + 1 => text.pastNewline position .backward

/-- Follows the characters that satisfy `inside`, and answers the position of the first one that does
not. With `later` and `force` set it is the position after that one. The first step of a walk turns
`later` around: on the way forward only a walk that has not moved goes one position on, and on the
way backward only one that has moved, which goes back into the run. -/
def scanRun (text : Source) (inside : Char → Bool) (force : Bool) (direction : Direction)
    (later : Bool) (position : Nat) : Nat :=
  if position < text.size then
    if inside (text.get position) then
      match _ : direction.after? position with
      | none => position
      | some next => text.scanRun inside force direction (direction == .backward) next
    else if later && force then position + 1
    else position
  else position
termination_by direction.remaining text.size position
decreasing_by exact Direction.remaining_lt ‹_› ‹_›

/-- The end of the run of characters that satisfy `inside`, seen from `position`. A forward scan
answers the first position past the run; one that begins outside a run steps over one character
when `force` is set. A backward scan that begins inside a run answers where the run starts when
`force` is set, and the position before that otherwise, as long as there is one; one that begins
outside stays. -/
def pastRun (text : Source) (inside : Char → Bool) (force : Bool) (position : Nat)
    (direction : Direction) : Nat :=
  text.scanRun inside force direction (direction == .forward) (min position text.size)

/-- The boundary of the word at a position. -/
def wordBoundary (text : Source) (force : Bool) (position : Nat) (direction : Direction) : Nat :=
  text.pastRun isWordChar force position direction

/-- The nearest position whose character satisfies `stop`, as a run of the others ends. -/
def boundary (text : Source) (stop : Char → Bool) (position : Nat) (direction : Direction) : Nat :=
  text.pastRun (!stop ·) true position direction

/-- The boundary of the stretch without white space at a position. -/
def spaceBoundary (text : Source) (position : Nat) (direction : Direction) : Nat :=
  text.boundary isWhiteSpace position direction

/-- The boundary of what looks like a path at a position. -/
def filenameBoundary (text : Source) (position : Nat) (direction : Direction) : Nat :=
  text.pastRun isFilenameChar true position direction

/-- The closing bracket for an opening one. -/
def closingBracket? : Char → Option Char
  | '(' => some ')'
  | '[' => some ']'
  | '\x7b' => some '\x7d'
  | '<' => some '>'
  | _ => none

/-- The opening bracket for a closing one. -/
def openingBracket? : Char → Option Char
  | ')' => some '('
  | ']' => some '['
  | '\x7d' => some '\x7b'
  | '>' => some '<'
  | _ => none

/-- How deep a scan is after a character: `deeper` goes in and `shallower` comes out. A scan that is
not in any bracket cannot come out of one. -/
def depthAfter? (deeper shallower c : Char) (depth : Nat) : Option Nat :=
  if c = deeper then some (depth + 1)
  else if c = shallower then if depth = 0 then none else some (depth - 1)
  else some depth

/-- Counts how deep a scan is from `position` on, until it is in no bracket any more. -/
def scanDepth (text : Source) (deeper shallower : Char) (direction : Direction)
    (position depth : Nat) : BracketScan :=
  if position < text.size then
    match depthAfter? deeper shallower (text.get position) depth with
    | none => .underflow
    | some 0 => .found position
    | some (depth + 1) =>
      match _ : direction.after? position with
      | none => .unmatched
      | some next => text.scanDepth deeper shallower direction next (depth + 1)
  else .unmatched
termination_by direction.remaining text.size position
decreasing_by exact Direction.remaining_lt ‹_› ‹_›

/-- Looks for the bracket that matches the one at a position: forward for an opening bracket,
backward for a closing one. -/
def scanBracket (text : Source) (position : Nat) (direction : Direction) : BracketScan :=
  match text.charAt? position with
  | none => .unmatched
  | some c =>
    let other? :=
      match direction with
      | .forward => closingBracket? c
      | .backward => openingBracket? c
    match other? with
    | none => .unmatched
    | some other => text.scanDepth c other direction position 0

/-- The bracket that matches the one at a position: forward for an opening bracket, backward for a
closing one. -/
def matchingBracket? (text : Source) (position : Nat) (direction : Direction) : Option Nat :=
  (text.scanBracket position direction).found?

/-- The line, counted from one, and the column that follow these characters, for characters as
wide as `width` says. -/
def lineColumn (width : Char → Nat) : List Char → Nat × Nat :=
  List.foldl (fun (line, column) c =>
    if c = '\n' then (line + 1, 0) else (line, column + width c)) (1, 0)

/-- The line and the column of a position. A column counts characters, or units of UTF-16. -/
def lineOf (text : Source) (position : Nat) (utf16 : Bool) : Nat × Nat :=
  let width (c : Char) : Nat := if utf16 && 0x10000 ≤ c.toNat then 2 else 1
  lineColumn width (text.slice 0 position)

/-- How many bytes of UTF-8 come before a position. -/
def byteOffset (text : Source) (position : Nat) : Nat :=
  (text.slice 0 position).foldl (fun bytes c => bytes + c.utf8Size) 0

end Source

end Emend
