import Emend.Address.Evaluate
import Emend.Command.Replacement
import Emend.Proofs.Pattern.Backward
import Mathlib

/-!
# Searches as addresses

An address can name the next match of a pattern, after a range or before it. The search begins at
the end of the range that it leaves, goes on one further if all it finds there is the empty match
at that place, and begins anew from the other end of the text if nothing lies ahead. So it fails
just if the pattern occurs nowhere in the text, and it stays at its own place only if there is no
other one (`nearest?_some`, `nearest?_none`). Both directions are one proof, in terms of the places
where a walk enters a range and where it leaves it.

A search is written as its pattern between slashes, or between question marks to look the other
way; a minus sign turns it around as well. `parse_write` reads all four forms.
-/

namespace Emend

variable {text : Source} {pattern : String} {regex : Regex} {direction : Direction}
  {position : Nat} {range : Selection}

namespace Direction

/-- The end of a range that a walk comes to first. -/
def enters : Direction → Selection → Nat
  | .forward, range => range.start
  | .backward, range => range.stop

/-- The end of a range that a walk comes to last. -/
def leaves : Direction → Selection → Nat
  | .forward, range => range.stop
  | .backward, range => range.start

/-- The other direction. -/
def opposite : Direction → Direction
  | .forward => .backward
  | .backward => .forward

/-- An empty range is entered where it lies. -/
@[simp]
theorem enters_point (direction : Direction) (position : Nat) :
    direction.enters (.point position) = position := by
  cases direction <;> rfl

/-- A walk from one end of the text to the other enters every range of the text. -/
theorem ahead_enters (direction : Direction) (h : range.IsWithin text.size) :
    direction.Ahead (text.limit direction.opposite) (direction.enters range) := by
  cases direction with
  | forward => exact Nat.zero_le _
  | backward => exact h.2

/-- A walk leaves a range of the text in the text. -/
theorem leaves_le (direction : Direction) (h : range.IsWithin text.size) :
    direction.leaves range ≤ text.size := by
  cases direction with
  | forward => exact h.2
  | backward => exact Nat.le_trans h.1 h.2

/-- The limit of a walk is a place of the text. -/
theorem limit_le (direction : Direction) (text : Source) : text.limit direction ≤ text.size := by
  cases direction with
  | forward => exact Nat.le_refl _
  | backward => exact Nat.zero_le _

end Direction

/-- The range is one of the text, and the pattern matches it. -/
structure Pattern.Occurs (pattern : String) (text : Source) (range : Selection) : Prop where
  /-- It is a range of the text. -/
  within : range.IsWithin text.size
  /-- It is a match. -/
  matched : Pattern.MatchesRange pattern text range.start range.stop

open Pattern (Occurs)

/-! ## Searching to the end of the text -/

/-- What a search finds is nowhere behind a match that lies ahead. -/
theorem occurs_of_matchAt (hcompile : Regex.compile pattern true direction.isBackward = .ok regex)
    (hposition : position ≤ text.size) {found : Captures}
    (hfound : regex.matchAt text position (text.limit direction) direction = some found) :
    Occurs pattern text found.range ∧ direction.Ahead position (direction.enters found.range) ∧
      ∀ other, Occurs pattern text other → direction.Ahead position (direction.enters other) →
        direction.Ahead (direction.enters found.range) (direction.enters other) := by
  cases direction with
  | forward =>
    obtain ⟨_, hfirst, hle, hsize, hmatches, hleast⟩ :=
      leftmost_of_matchAt hcompile hposition (Nat.le_refl _) hfound
    exact ⟨⟨⟨hle, hsize⟩, hmatches⟩, hfirst, fun other hother hahead =>
      hleast other.start other.stop hahead hother.within.2 hother.matched⟩
  | backward =>
    obtain ⟨_, _, hle, hlast, hmatches, hgreatest⟩ :=
      rightmost_of_matchAt hcompile (Nat.zero_le _) hposition hfound
    exact ⟨⟨⟨hle, Nat.le_trans hlast hposition⟩, hmatches⟩, hlast, fun other hother hahead =>
      hgreatest other.start other.stop (Nat.zero_le _) hahead hother.matched⟩

/-- A search that finds nothing has no match ahead. -/
theorem not_ahead_of_matchAt
    (hcompile : Regex.compile pattern true direction.isBackward = .ok regex)
    (hposition : position ≤ text.size)
    (hnone : regex.matchAt text position (text.limit direction) direction = none)
    (hoccurs : Occurs pattern text range) :
    ¬direction.Ahead position (direction.enters range) := by
  intro hahead
  obtain ⟨⟨hle, hsize⟩, hmatches⟩ := hoccurs
  have hsome : (regex.matchAt text position (text.limit direction) direction).isSome = true := by
    cases direction with
    | forward =>
      exact (isSome_matchAt_iff hcompile hposition (Nat.le_refl _)).2
        ⟨_, _, hahead, hle, hsize, hmatches⟩
    | backward =>
      exact (isSome_matchAt_backward_iff hcompile (Nat.zero_le _) hposition).2
        ⟨_, _, Nat.zero_le _, hle, hahead, hmatches⟩
  rw [hnone] at hsome
  cases hsome

namespace Search

/-! ## Searching on from an empty match -/

/-- Another try finds a match, which is not the empty one at the place where the first began. -/
theorem occurs_of_retry (hcompile : Regex.compile pattern true direction.isBackward = .ok regex)
    (hposition : position ≤ text.size) {found : Captures}
    (hfound : retry regex text position direction = some found) :
    Occurs pattern text found.range ∧ found.range ≠ .point position := by
  unfold retry at hfound
  split at hfound
  · cases hfound
  · next hlimit =>
    have hstep : direction.step position ≤ text.size ∧ direction.step position ≠ position := by
      cases direction with
      | forward => exact ⟨Nat.lt_of_le_of_ne hposition hlimit, Nat.succ_ne_self _⟩
      | backward =>
        have hpos : 0 < position := Nat.pos_of_ne_zero hlimit
        simp only [Direction.step]
        omega
    obtain ⟨hoccurs, hahead, _⟩ := occurs_of_matchAt hcompile hstep.1 hfound
    refine ⟨hoccurs, fun hpoint => hstep.2 ?_⟩
    rw [hpoint, direction.enters_point] at hahead
    exact hahead.antisymm (direction.ahead_step position)

/-- If another try finds nothing, what lies ahead of the place where the first began is entered
there. -/
theorem enters_of_retry (hcompile : Regex.compile pattern true direction.isBackward = .ok regex)
    (hposition : position ≤ text.size) (hnone : retry regex text position direction = none)
    (hoccurs : Occurs pattern text range)
    (hahead : direction.Ahead position (direction.enters range)) :
    direction.enters range = position := by
  obtain heq | hbeyond := hahead.eq_or_step
  · exact heq.symm
  · unfold retry at hnone
    split at hnone
    · next hlimit =>
      -- Nothing lies beyond the end of the text.
      obtain ⟨hle, hsize⟩ := hoccurs.within
      cases direction with
      | forward =>
        simp only [Direction.step, Direction.Ahead, Direction.enters, Source.limit] at *
        omega
      | backward =>
        simp only [Direction.step, Direction.Ahead, Direction.enters, Source.limit] at *
        omega
    · next hlimit =>
      have hstep : direction.step position ≤ text.size := by
        cases direction with
        | forward => exact Nat.lt_of_le_of_ne hposition hlimit
        | backward => exact Nat.le_trans (Nat.sub_le _ _) hposition
      exact absurd hbeyond (not_ahead_of_matchAt hcompile hstep hnone hoccurs)

/-! ## The nearest match -/

/-- The text has no match from the place on but one that is entered at it, and the search begins
anew from the other end. -/
theorem nearest?_of_again {found : Captures}
    (hcompile : Regex.compile pattern true direction.isBackward = .ok regex)
    (hahead : ∀ other, Occurs pattern text other →
      direction.Ahead position (direction.enters other) → direction.enters other = position)
    (hfound : regex.matchAt text (text.limit direction.opposite) (text.limit direction) direction =
      some found) :
    Occurs pattern text found.range ∧ (found.range = .point position →
      ∀ other, Occurs pattern text other → direction.enters other = position) := by
  obtain ⟨hoccurs, _, hfirst⟩ :=
    occurs_of_matchAt hcompile (direction.opposite.limit_le text) hfound
  refine ⟨hoccurs, fun hpoint other hother => hahead other hother ?_⟩
  have hbehind := hfirst other hother (direction.ahead_enters hother.within)
  rwa [hpoint, direction.enters_point] at hbehind

/-- The empty match at a place, as the search tests for it. -/
theorem isEmptyAt_iff {found : Captures} :
    isEmptyAt found position = true ↔ found.range = .point position := by
  simp only [isEmptyAt, Bool.and_eq_true, beq_iff_eq, Captures.range, Selection.point,
    Selection.mk.injEq]
  omega

/-- Where a search begins anew. -/
theorem nearest?_eq (regex : Regex) (text : Source) (position : Nat) (direction : Direction) :
    nearest? regex text position direction =
      ((regex.matchAt text position (text.limit direction) direction).bind fun found =>
        if isEmptyAt found position then retry regex text position direction
        else some found).or
      (regex.matchAt text (text.limit direction.opposite) (text.limit direction) direction) := by
  have hor : ∀ first second : Option Captures, (first <|> second) = first.or second := by
    intro first second
    cases first <;> rfl
  unfold nearest?
  rw [hor]
  cases regex.matchAt text position (text.limit direction) direction <;> cases direction <;> rfl

/-- **A search fails only if the pattern occurs nowhere.** -/
theorem nearest?_none (hcompile : Regex.compile pattern true direction.isBackward = .ok regex)
    (hnone : nearest? regex text position direction = none) : ¬Occurs pattern text range := by
  intro hoccurs
  rw [nearest?_eq, Option.or_eq_none_iff] at hnone
  have hlimit := direction.opposite.limit_le text
  exact not_ahead_of_matchAt hcompile hlimit hnone.2 hoccurs
    (direction.ahead_enters hoccurs.within)

/-- **A search finds a match**, and the empty one at the place where it begins only if the walk
enters every match there. -/
theorem nearest?_some (hcompile : Regex.compile pattern true direction.isBackward = .ok regex)
    (hposition : position ≤ text.size) {found : Captures}
    (hfound : nearest? regex text position direction = some found) :
    Occurs pattern text found.range ∧ (found.range = .point position →
      ∀ other, Occurs pattern text other → direction.enters other = position) := by
  rw [nearest?_eq] at hfound
  cases hfirst : regex.matchAt text position (text.limit direction) direction with
  | none =>
    -- Nothing lies ahead.
    rw [hfirst] at hfound
    refine nearest?_of_again hcompile (fun other hother hahead => ?_) hfound
    exact absurd hahead (not_ahead_of_matchAt hcompile hposition hfirst hother)
  | some first =>
    rw [hfirst, Option.bind_some] at hfound
    obtain ⟨hoccurs, _⟩ := occurs_of_matchAt hcompile hposition hfirst
    split at hfound
    · cases hretry : retry regex text position direction with
      | none =>
        rw [hretry] at hfound
        exact nearest?_of_again hcompile
          (fun other => enters_of_retry hcompile hposition hretry) hfound
      | some second =>
        rw [hretry] at hfound
        obtain rfl : second = found := Option.some.inj hfound
        obtain ⟨hsecond, hne⟩ := occurs_of_retry hcompile hposition hretry
        exact ⟨hsecond, fun hpoint => absurd hpoint hne⟩
    · next hempty =>
      obtain rfl : first = found := Option.some.inj hfound
      exact ⟨hoccurs, fun hpoint => absurd (isEmptyAt_iff.2 hpoint) hempty⟩

/-! ## Evaluating a search -/

/-- The sign of a search that looks before the range, or after it. -/
def sideSign (before : Bool) : Sign :=
  if before then .minus else .plus

/-- The direction of a search: a minus sign and question marks cancel out. -/
def directionOf (before reverse : Bool) : Direction :=
  if before = reverse then .forward else .backward

/-- Without a leading `@` the whole pattern is looked for. -/
theorem body_eq (hstrict : pattern.toList.head? ≠ some '@') : body pattern = pattern := by
  unfold body
  split
  · next rest hpattern =>
    rw [hpattern] at hstrict
    exact absurd rfl hstrict
  · rfl

/-- Without a leading `@` a failure of the search is a failure. -/
theorem isLenient_eq_false {search : Search} (hstrict : search.pattern.toList.head? ≠ some '@') :
    search.isLenient = false := by
  rw [Bool.eq_false_iff]
  intro hstarts
  obtain ⟨rest, hrest⟩ := String.startsWith_string_iff.1 hstarts
  rw [← hrest] at hstrict
  exact hstrict rfl

/-- The programs of a search are those of its pattern for the two directions. -/
theorem compile_ok {node : Node} (hstrict : pattern.toList.head? ≠ some '@')
    (hparse : Pattern.parse pattern = .ok node) (reverse : Bool) :
    compile pattern reverse = .ok ⟨pattern, reverse,
      .ofProgram pattern (Regex.programOf node true false) false,
      .ofProgram pattern (Regex.programOf node true true) true⟩ := by
  unfold compile
  rw [body_eq hstrict, compile_of_parse hparse, compile_of_parse hparse]
  rfl

/-- A pattern that cannot be read is no search. -/
theorem compile_error {error : RegexError} (hstrict : pattern.toList.head? ≠ some '@')
    (herror : Regex.compile pattern true false = .error error) (reverse : Bool) :
    compile pattern reverse = .error error := by
  unfold compile
  rw [body_eq hstrict, herror]
  rfl

/-- A search looks from the end of the range at which it leaves it. -/
theorem evaluate_eq {node : Node} (hstrict : pattern.toList.head? ≠ some '@')
    (before reverse : Bool) (text : Source) (dot : Selection) :
    Search.evaluate ⟨pattern, reverse, .ofProgram pattern (Regex.programOf node true false) false,
        .ofProgram pattern (Regex.programOf node true true) true⟩ text dot
        (some (sideSign before)) =
      match nearest? (.ofProgram pattern
          (Regex.programOf node true (directionOf before reverse).isBackward)
          (directionOf before reverse).isBackward) text
        ((directionOf before reverse).leaves dot) (directionOf before reverse) with
      | some found => .ok found.range
      | none => .error (.noMatch pattern) := by
  have hlenient : isLenient ⟨pattern, reverse,
      .ofProgram pattern (Regex.programOf node true false) false,
      .ofProgram pattern (Regex.programOf node true true) true⟩ = false :=
    isLenient_eq_false hstrict
  unfold evaluate
  rw [hlenient]
  cases before <;> cases reverse <;> rfl

/-! ## Written searches -/

/-- The delimiter of a search. -/
def mark (reverse : Bool) : Char :=
  if reverse then '?' else '/'

/-- A search as it is written. -/
def write (before reverse : Bool) (written : List Char) : String :=
  String.ofList ((if before then ['-'] else []) ++ mark reverse :: (written ++ [mark reverse]))

/-- The address that a written search is read as. -/
def address (before : Bool) (search : Search) : Address :=
  if before then .chain [.dot, ⟨some .minus, .search search⟩]
  else .simple ⟨some .plus, .search search⟩

end Search

/-- A text is written between delimiters: a backslash before the delimiter is left out, and one
before another character is kept. -/
inductive Delimited (delimiter : Char) : List Char → List Char → Prop where
  /-- Nothing. -/
  | nil : Delimited delimiter [] []
  /-- A character that means itself. -/
  | plain {c : Char} {written text : List Char} (hdelimiter : c ≠ delimiter) (hslash : c ≠ '\\')
    (rest : Delimited delimiter written text) : Delimited delimiter (c :: written) (c :: text)
  /-- The delimiter. -/
  | delimiter {written text : List Char} (rest : Delimited delimiter written text) :
    Delimited delimiter ('\\' :: delimiter :: written) (delimiter :: text)
  /-- Another character with a backslash. -/
  | escape {c : Char} {written text : List Char} (hdelimiter : c ≠ delimiter)
    (rest : Delimited delimiter written text) :
    Delimited delimiter ('\\' :: c :: written) ('\\' :: c :: text)

/-- What is written between delimiters is read up to the second one. -/
theorem Delimited.split {delimiter : Char} {written text : List Char}
    (h : Delimited delimiter written text) (hslash : delimiter ≠ '\\') (rest : List Char) :
    splitDelimited delimiter false (written ++ delimiter :: rest) = some (text, rest) := by
  induction h with
  | nil =>
    rw [List.nil_append, splitDelimited.eq_def]
    exact if_pos rfl
  | plain hne hplain _ ih =>
    rw [List.cons_append, splitDelimited.eq_def]
    dsimp only
    rw [if_neg hne, if_neg hplain, ih]
    rfl
  | delimiter _ ih =>
    simp only [List.cons_append, splitDelimited, if_neg hslash.symm, ↓reduceIte, ih, escaped]
    rfl
  | escape hne _ ih =>
    simp only [List.cons_append, splitDelimited, if_neg hslash.symm, ↓reduceIte, ih, escaped,
      if_neg hne]
    rfl

namespace Search

/-- The delimiter of a search is not the character that escapes it. -/
theorem mark_ne_slash (reverse : Bool) : mark reverse ≠ '\\' := by
  cases reverse <;> decide

variable {written chars : List Char}

/-- The tokens of a search without its sign. -/
theorem readAll_search {reverse : Bool} (h : Delimited (mark reverse) written chars) :
    AddressToken.readAll isBlank (mark reverse :: (written ++ [mark reverse])) =
      .ok ([.ofMark (.search (String.ofList chars) reverse)], []) := by
  have hblank : isBlank (mark reverse) = false := by
    cases reverse <;> rfl
  have hstarts : AddressToken.starts (mark reverse) = true := by
    cases reverse <;> rfl
  have hread : AddressToken.read (mark reverse) (written ++ [mark reverse]) =
      .ok (.ofMark (.search (String.ofList chars) reverse), []) := by
    have hsplit := h.split (mark_ne_slash reverse) []
    cases reverse with
    | false =>
      show (readDelimited '/' false _).map _ = _
      rw [readDelimited, show splitDelimited '/' false _ = _ from hsplit]
      rfl
    | true =>
      show (readDelimited '?' false _).map _ = _
      rw [readDelimited, show splitDelimited '?' false _ = _ from hsplit]
      rfl
  rw [AddressToken.readAll_cons hblank hstarts hread, AddressToken.readAll]
  rfl

/-- A minus sign is a token of its own. -/
theorem readAll_minus (chars : List Char) :
    AddressToken.readAll isBlank ('-' :: chars) = (AddressToken.readAll isBlank chars).map
      fun (tokens, rest) => (.part (.sign .minus) :: tokens, rest) :=
  AddressToken.readAll_cons rfl rfl rfl

/-- The tokens of a search make up its address. -/
theorem ofTokens_search (before : Bool) (pattern : String) (reverse : Bool) :
    Address.ofTokens ((if before then [.part (.sign .minus)] else []) ++
        [.ofMark (.search pattern reverse)]) = (compile pattern reverse).map (address before) := by
  cases before with
  | false =>
    simp only [Bool.false_eq_true, ↓reduceIte, List.nil_append, Address.ofTokens,
      AddressToken.ofMark, Address.splitChains, Address.ofChain?, Address.followers, Mark.place]
    cases compile pattern reverse <;> rfl
  | true =>
    simp only [↓reduceIte, List.singleton_append, Address.ofTokens, AddressToken.ofMark,
      Address.splitChains, Address.ofChain?, Address.followers, Mark.place]
    cases compile pattern reverse <;> rfl

/-- **A written search is read as the search.** -/
theorem parse_write {reverse : Bool} (h : Delimited (mark reverse) written chars)
    (before : Bool) : Address.parse (write before reverse written) =
      ((compile (String.ofList chars) reverse).map (address before)).mapError .pattern := by
  rw [← ofTokens_search]
  unfold Address.parse write
  rw [String.toList_ofList]
  cases before with
  | false =>
    rw [if_neg Bool.false_ne_true, List.nil_append, readAll_search h]
    rfl
  | true =>
    rw [if_pos rfl, List.singleton_append, readAll_minus, readAll_search h]
    rfl

/-- What a search as an address names: it is evaluated relative to dot, brought into the text. -/
theorem evaluate_address (search : Search) (before : Bool) (text : Source) (dot : Selection) :
    (address before search).evaluate text dot =
      (search.evaluate text (dot.clamp text.size) (some (sideSign before))).map
        (·.clamp text.size) := by
  have hclamp : (dot.clamp text.size).clamp text.size = dot.clamp text.size :=
    Selection.clamp_of_isWithin (Selection.clamp_isWithin dot text.size)
  cases before with
  | false =>
    show (search.evaluate text (dot.clamp text.size) (some .plus) >>= _) =
      (search.evaluate text (dot.clamp text.size) (some .plus)).map _
    cases search.evaluate text (dot.clamp text.size) (some .plus) <;> rfl
  | true =>
    show ((search.evaluate text ((dot.clamp text.size).clamp text.size) (some .minus) >>= _)
      >>= _) = (search.evaluate text (dot.clamp text.size) (some .minus)).map _
    rw [hclamp]
    cases search.evaluate text (dot.clamp text.size) (some .minus) <;> rfl

/-- A written search names the nearest match. -/
theorem evaluateAddress_write {reverse : Bool} (hwritten : Delimited (mark reverse) written chars)
    (hstrict : chars.head? ≠ some '@') {node : Node}
    (hparse : Pattern.parse (String.ofList chars) = .ok node) (before : Bool) (text : Source)
    (dot : Selection) :
    evaluateAddress (write before reverse written) text dot =
      match nearest? (.ofProgram (String.ofList chars)
          (Regex.programOf node true (directionOf before reverse).isBackward)
          (directionOf before reverse).isBackward) text
        ((directionOf before reverse).leaves (dot.clamp text.size))
        (directionOf before reverse) with
      | some found => .ok (found.range.clamp text.size)
      | none => .error (.noMatch (String.ofList chars)) := by
  rw [← String.toList_ofList (l := chars)] at hstrict
  unfold evaluateAddress
  rw [parse_write hwritten, compile_ok hstrict hparse]
  show (address before _).evaluate text dot = _
  rw [evaluate_address, evaluate_eq hstrict]
  generalize nearest? _ text _ _ = found
  cases found <;> rfl

end Search

open Search in
/-- **A search succeeds whenever its pattern occurs anywhere.** The four forms are a pattern between
slashes or between question marks, with a minus sign or without. A search fails just if the pattern
matches no range of the text. Otherwise it names a range of the text that the pattern matches; and
if that is the empty range where the search began, which is an end of dot, then every match in the
text begins there for a search forward, and ends there for a search backward. A pattern that cannot
be read is reported as such. -/
theorem evaluateAddress_search (before reverse : Bool) {written chars : List Char}
    (hwritten : Delimited (mark reverse) written chars) (hstrict : chars.head? ≠ some '@')
    (text : Source) (dot : Selection) :
    (∀ error, Regex.compile (String.ofList chars) true false = .error error →
      evaluateAddress (write before reverse written) text dot = .error (.pattern error)) ∧
    ∀ node, Pattern.parse (String.ofList chars) = .ok node →
      (evaluateAddress (write before reverse written) text dot =
          .error (.noMatch (String.ofList chars)) ↔
        ∀ range, ¬Occurs (String.ofList chars) text range) ∧
      ((∃ range, Occurs (String.ofList chars) text range) →
        ∃ range, evaluateAddress (write before reverse written) text dot = .ok range ∧
          Occurs (String.ofList chars) text range ∧
          (range = .point ((directionOf before reverse).leaves (dot.clamp text.size)) →
            ∀ other, Occurs (String.ofList chars) text other →
              (directionOf before reverse).enters other =
                (directionOf before reverse).leaves (dot.clamp text.size))) := by
  refine ⟨fun error herror => ?_, fun node hparse => ?_⟩
  · rw [← String.toList_ofList (l := chars)] at hstrict
    unfold evaluateAddress
    rw [parse_write hwritten, compile_error hstrict herror]
    rfl
  · rw [evaluateAddress_write hwritten hstrict hparse]
    have hcompile := compile_of_parse hparse true (directionOf before reverse).isBackward
    have hposition := (directionOf before reverse).leaves_le (dot.clamp_isWithin text.size)
    cases hfound : nearest? _ text _ _ with
    | none =>
      have hnowhere : ∀ range, ¬Occurs (String.ofList chars) text range :=
        fun range => nearest?_none hcompile hfound
      exact ⟨⟨fun _ => hnowhere, fun _ => rfl⟩, fun ⟨range, hoccurs⟩ =>
        absurd hoccurs (hnowhere range)⟩
    | some found =>
      obtain ⟨hoccurs, hall⟩ := nearest?_some hcompile hposition hfound
      refine ⟨⟨nofun, fun hnowhere => absurd hoccurs (hnowhere _)⟩, fun _ => ?_⟩
      exact ⟨found.range, congrArg _ (Selection.clamp_of_isWithin hoccurs.within), hoccurs, hall⟩

/-- A pattern that matches the empty text everywhere, looked for before the end of the text: the
empty match there does not count, and the next one holds the slash. -/
theorem evaluateAddress_search_slash :
    Delimited '/' "\\/*".toList "/*".toList ∧
      evaluateAddress "-/\\/*/" (.ofList "a/b".toList) (.point 3) = .ok ⟨1, 2⟩ ∧
      Pattern.Occurs "/*" (.ofList "a/b".toList) ⟨1, 2⟩ := by
  have hwritten : Delimited '/' "\\/*".toList "/*".toList :=
    .delimiter (.plain (by decide) (by decide) .nil)
  have hparse : Pattern.parse "/*" =
      .ok (.group (some 0) [[.loop .zeroOrMore true (.char '/')]]) := by
    cbv
  have hslash : Pattern.Occurs "/*" (.ofList "a/b".toList) ⟨1, 2⟩ :=
    ⟨⟨by decide, by decide⟩, _, hparse, .group List.mem_cons_self (.cons (.once (.char rfl)) .nil)⟩
  have hnamed : evaluateAddress "-/\\/*/" (.ofList "a/b".toList) (.point 3) = .ok ⟨1, 2⟩ := by
    cbv
  obtain ⟨_, hsearch⟩ := evaluateAddress_search true false hwritten (by decide)
    (.ofList "a/b".toList) (.point 3)
  obtain ⟨_, hfound⟩ := hsearch _ hparse
  obtain ⟨range, hrange, hoccurs, _⟩ := hfound ⟨_, hslash⟩
  obtain rfl : range = ⟨1, 2⟩ := Except.ok.inj (hrange.symm.trans hnamed)
  exact ⟨hwritten, hnamed, hoccurs⟩

end Emend
