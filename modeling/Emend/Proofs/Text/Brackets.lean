import Emend.Text.Brackets
import Emend.Text.Scan

/-!
# Matching brackets

A scan for a matching bracket counts how many brackets of one kind it is in. The texts that bring
the count from zero to zero are the balanced ones (`depthBehind?_eq_zero_iff`), so what lies between
a bracket and the one that a scan finds for it is balanced, and where balanced text ends the scan
ends as well: `scanDepth_eq_found_iff`. Read from the other end, balanced text is balanced with the
brackets exchanged. So the scans forward and backward find the same pairs, those that
`Source.BracketPair` describes.
-/

namespace Emend

namespace Source

variable {deeper shallower c : Char} {depth : Nat} {chars : List Char}

/-! ## Counting -/

/-- A bracket that leads deeper is counted up. -/
@[simp]
theorem depthAfter?_deeper : depthAfter? deeper shallower deeper depth = some (depth + 1) :=
  if_pos rfl

/-- A bracket that leads out again is counted down. -/
theorem depthAfter?_shallower (h : shallower ≠ deeper) :
    depthAfter? deeper shallower shallower (depth + 1) = some depth := by
  rw [depthAfter?, if_neg h, if_pos rfl]
  rfl

/-- No other character is counted. -/
theorem depthAfter?_other (hdeeper : c ≠ deeper) (hshallower : c ≠ shallower) :
    depthAfter? deeper shallower c depth = some depth := by
  rw [depthAfter?, if_neg hdeeper, if_neg hshallower]

/-- Only a scan in no bracket can be unable to count. -/
theorem depthAfter?_succ_ne_none : depthAfter? deeper shallower c (depth + 1) ≠ none := by
  intro heq
  unfold depthAfter? at heq
  split at heq
  · cases heq
  · split at heq
    · cases heq
    · cases heq

/-- A scan that is in one bracket more counts as the scan without it, as long as it stays in it. -/
theorem depthAfter?_of_succ {after : Nat}
    (h : depthAfter? deeper shallower c (depth + 1) = some (after + 1)) :
    depthAfter? deeper shallower c depth = some after := by
  unfold depthAfter? at h ⊢
  split
  · next hdeeper =>
    rw [if_pos hdeeper] at h
    cases h
    rfl
  · next hdeeper =>
    rw [if_neg hdeeper] at h
    split
    · next hshallower =>
      rw [if_pos hshallower] at h
      cases h
      rfl
    · next hshallower =>
      rw [if_neg hshallower] at h
      cases h
      rfl

/-- A scan comes out of its last bracket only at the one that ends it. -/
theorem eq_shallower_of_depthAfter? (h : depthAfter? deeper shallower c (depth + 1) = some 0) :
    c = shallower ∧ c ≠ deeper ∧ depth = 0 := by
  unfold depthAfter? at h
  split at h
  · cases h
  · next hdeeper =>
    split at h
    · next hshallower =>
      cases h
      exact ⟨hshallower, hdeeper, rfl⟩
    · cases h

/-- How deep a scan is behind these characters. -/
def depthBehind? (deeper shallower : Char) : List Char → Nat → Option Nat
  | [], depth => some depth
  | c :: rest, depth =>
    (depthAfter? deeper shallower c depth).bind (depthBehind? deeper shallower rest)

/-- The depth behind two texts is that behind the second one, begun behind the first. -/
@[simp]
theorem depthBehind?_append (first rest : List Char) (depth : Nat) :
    depthBehind? deeper shallower (first ++ rest) depth =
      (depthBehind? deeper shallower first depth).bind
        (depthBehind? deeper shallower rest) := by
  induction first generalizing depth with
  | nil => rfl
  | cons c first ih =>
    rw [List.cons_append, depthBehind?, depthBehind?]
    cases depthAfter? deeper shallower c depth with
    | none => rfl
    | some after => exact ih after

/-- Behind balanced text a scan is as deep as before it. -/
theorem depthBehind?_of_balanced (hne : shallower ≠ deeper)
    (h : Balanced deeper shallower chars) (depth : Nat) :
    depthBehind? deeper shallower chars depth = some depth := by
  induction h generalizing depth with
  | nil => rfl
  | other notDeeper notShallower _ ih =>
    rw [depthBehind?, depthAfter?_other notDeeper notShallower]
    exact ih depth
  | @pair inside rest _ _ ihInside ihRest =>
    rw [depthBehind?, depthAfter?_deeper, Option.bind_some, depthBehind?_append,
      ihInside (depth + 1), Option.bind_some, depthBehind?, depthAfter?_shallower hne]
    exact ihRest depth

/-- Characters that lead out of a bracket hold the one that ends it, behind balanced text. -/
theorem exists_balanced_of_depthBehind?
    (h : depthBehind? deeper shallower chars (depth + 1) = some 0) :
    ∃ inside rest, chars = inside ++ shallower :: rest ∧ Balanced deeper shallower inside ∧
      depthBehind? deeper shallower rest depth = some 0 := by
  induction hlength : chars.length using Nat.strongRecOn generalizing chars depth with
  | ind length ih =>
    cases chars with
    | nil => cases h
    | cons c rest =>
      have hrest : rest.length < length := hlength ▸ Nat.lt_succ_self _
      rw [depthBehind?] at h
      by_cases hdeeper : c = deeper
      · -- The scan comes out of the new bracket first, and then out of the old one.
        subst hdeeper
        rw [depthAfter?_deeper] at h
        obtain ⟨inner, middle, rfl, hinner, hmiddle⟩ := ih _ hrest h rfl
        rw [List.length_append, List.length_cons] at hrest
        obtain ⟨outer, after, rfl, houter, hafter⟩ := ih middle.length (by omega) hmiddle rfl
        exact ⟨c :: (inner ++ shallower :: outer), after, by simp, .pair hinner houter, hafter⟩
      · by_cases hshallower : c = shallower
        · subst hshallower
          rw [depthAfter?_shallower hdeeper] at h
          exact ⟨[], rest, rfl, .nil, h⟩
        · rw [depthAfter?_other hdeeper hshallower] at h
          obtain ⟨inside, after, rfl, hinside, hafter⟩ := ih _ hrest h rfl
          exact ⟨c :: inside, after, rfl, .other hdeeper hshallower hinside, hafter⟩

/-- **The texts that bring a count from zero to zero are the balanced ones.** -/
theorem depthBehind?_eq_zero_iff (hne : shallower ≠ deeper) :
    depthBehind? deeper shallower chars 0 = some 0 ↔ Balanced deeper shallower chars := by
  refine ⟨fun h => ?_, fun h => depthBehind?_of_balanced hne h 0⟩
  induction hlength : chars.length using Nat.strongRecOn generalizing chars with
  | ind length ih =>
    cases chars with
    | nil => exact .nil
    | cons c rest =>
      have hrest : rest.length < length := hlength ▸ Nat.lt_succ_self _
      rw [depthBehind?] at h
      by_cases hdeeper : c = deeper
      · subst hdeeper
        rw [depthAfter?_deeper] at h
        obtain ⟨inside, after, rfl, hinside, hafter⟩ := exists_balanced_of_depthBehind? h
        rw [List.length_append, List.length_cons] at hrest
        exact .pair hinside (ih after.length (by omega) hafter rfl)
      · by_cases hshallower : c = shallower
        · subst hshallower
          rw [depthAfter?, if_neg hdeeper, if_pos rfl] at h
          cases h
        · rw [depthAfter?_other hdeeper hshallower] at h
          exact .other hdeeper hshallower (ih _ hrest h rfl)

/-! ## Scanning -/

variable {text : Source} {direction : Direction} {position next found first last : Nat}
  {opening closing : Char}

/-- What lies ahead of a position is the position itself or lies ahead of the next one. -/
theorem ahead_iff_of_after? (h : direction.after? position = some next) :
    direction.Ahead position found ↔ position = found ∨ direction.Ahead next found := by
  cases direction with
  | forward =>
    obtain rfl := Option.some.inj h
    show position ≤ found ↔ position = found ∨ position + 1 ≤ found
    omega
  | backward =>
    cases position with
    | zero => cases h
    | succ position =>
      obtain rfl := Option.some.inj h
      show found ≤ position + 1 ↔ position + 1 = found ∨ found ≤ position
      omega

/-- Where a scan ends, nothing else lies ahead. -/
theorem eq_of_after?_eq_none (h : direction.after? position = none)
    (hahead : direction.Ahead position found) : position = found := by
  cases direction with
  | forward => cases h
  | backward =>
    cases position with
    | zero => exact (Nat.le_zero.1 hahead).symm
    | succ position => cases h

/-- The characters that a scan passes before it comes to a position, in its own order. -/
def passed (text : Source) : Direction → Nat → Nat → List Char
  | .forward, position, found => text.slice position found
  | .backward, position, found => (text.slice (found + 1) (position + 1)).reverse

/-- Between a position and itself nothing is passed. -/
@[simp]
theorem passed_self (text : Source) (direction : Direction) (position : Nat) :
    text.passed direction position position = [] := by
  cases direction with
  | forward => exact text.slice_self position
  | backward => rw [passed, slice_self, List.reverse_nil]

/-- A scan passes a character and then those that it passes from the next position on. -/
theorem passed_of_after? (hhere : text.charAt? position = some c)
    (h : direction.after? position = some next) (hahead : direction.Ahead next found) :
    text.passed direction position found = c :: text.passed direction next found := by
  cases direction with
  | forward =>
    cases h
    rw [passed, ← text.slice_append (Nat.le_succ position) hahead, slice_singleton hhere]
    rfl
  | backward =>
    cases position with
    | zero => cases h
    | succ next =>
      cases h
      rw [passed, ← text.slice_append (Nat.succ_le_succ hahead) (Nat.le_succ (next + 1)),
        slice_singleton hhere, List.reverse_append]
      rfl

/-- A scan in a bracket counts without failure. -/
theorem scanDepth_ne_underflow (text : Source) (direction : Direction) (position depth : Nat) :
    text.scanDepth deeper shallower direction position (depth + 1) ≠ .underflow := by
  generalize hcount : depth + 1 = count
  fun_induction scanDepth text deeper shallower direction position count generalizing depth with
  | case1 position count hinside hnone =>
    rw [← hcount] at hnone
    exact absurd hnone depthAfter?_succ_ne_none
  | case2 =>
    intro heq
    cases heq
  | case3 =>
    intro heq
    cases heq
  | case4 position count hinside after hafter next hnext ih => exact ih after rfl
  | case5 =>
    intro heq
    cases heq

/-- **What a scan finds**: it is in `depth` brackets more than the one that it comes out of, and
comes out of these on its way. -/
theorem scanDepth_eq_found_iff (hne : shallower ≠ deeper)
    (hposition : direction = .backward → position < text.size) :
    text.scanDepth deeper shallower direction position (depth + 1) = .found found ↔
      direction.Ahead position found ∧ text.charAt? found = some shallower ∧
        depthBehind? deeper shallower (text.passed direction position found) depth = some 0 := by
  generalize hcount : depth + 1 = count
  -- Still in a bracket, a scan is not at the one that it finds.
  have hnot {position depth after : Nat} (hhere : text.charAt? position = some (text.get position))
      (hafter : depthAfter? deeper shallower (text.get position) (depth + 1) = some (after + 1)) :
      position = found → text.charAt? found = some shallower →
        depthBehind? deeper shallower (text.passed direction position found) depth ≠ some 0 := by
    rintro rfl hfound hpassed
    rw [passed_self] at hpassed
    cases hpassed
    rw [Option.some.inj (hhere.symm.trans hfound), depthAfter?_shallower hne] at hafter
    cases hafter
  fun_induction scanDepth text deeper shallower direction position count generalizing depth with
  | case1 position count hinside hnone =>
    rw [← hcount] at hnone
    exact absurd hnone depthAfter?_succ_ne_none
  | case2 position count hinside hzero =>
    have hhere : text.charAt? position = some (text.get position) := if_pos hinside
    rw [← hcount] at hzero
    obtain ⟨hshallower, hdeeper, rfl⟩ := eq_shallower_of_depthAfter? hzero
    rw [BracketScan.found.injEq]
    constructor
    · rintro rfl
      exact ⟨.refl _ _, hhere.trans (congrArg some hshallower), by rw [passed_self]; rfl⟩
    · rintro ⟨hahead, _, hpassed⟩
      cases hnext : direction.after? position with
      | none => exact eq_of_after?_eq_none hnext hahead
      | some next =>
        refine ((ahead_iff_of_after? hnext).1 hahead).resolve_right fun hahead => ?_
        -- Behind the bracket that ends the pair the count would go below zero.
        rw [passed_of_after? hhere hnext hahead, depthBehind?, depthAfter?, if_neg hdeeper,
          if_pos hshallower] at hpassed
        cases hpassed
  | case3 position count hinside after hafter hnext =>
    refine iff_of_false (fun heq => by cases heq) ?_
    rintro ⟨hahead, hfound, hpassed⟩
    exact hnot (if_pos hinside) (hcount ▸ hafter) (eq_of_after?_eq_none hnext hahead) hfound hpassed
  | case4 position count hinside after hafter next hnext ih =>
    have hhere : text.charAt? position = some (text.get position) := if_pos hinside
    rw [← hcount] at hafter
    have hnext_lt (hback : direction = .backward) : next < text.size := by
      subst hback
      exact Nat.lt_trans (Direction.remaining_lt hinside hnext) hinside
    refine (ih hnext_lt rfl).trans ?_
    rw [ahead_iff_of_after? hnext]
    constructor
    · rintro ⟨hahead, hfound, hpassed⟩
      refine ⟨.inr hahead, hfound, ?_⟩
      rw [passed_of_after? hhere hnext hahead, depthBehind?, depthAfter?_of_succ hafter]
      exact hpassed
    · rintro ⟨hahead, hfound, hpassed⟩
      have hahead := hahead.resolve_left fun heq => hnot hhere hafter heq hfound hpassed
      refine ⟨hahead, hfound, ?_⟩
      rw [passed_of_after? hhere hnext hahead, depthBehind?, depthAfter?_of_succ hafter] at hpassed
      exact hpassed
  | case5 position count houtside =>
    refine iff_of_false (fun heq => by cases heq) ?_
    rintro ⟨hahead, hfound, _⟩
    cases direction with
    | forward => exact houtside (Nat.lt_of_le_of_lt hahead (lt_size_of_charAt? hfound))
    | backward => exact houtside (hposition rfl)

/-- A scan that begins at a bracket is in it when it goes on. -/
theorem scanDepth_of_charAt? (h : text.charAt? position = some deeper) :
    text.scanDepth deeper shallower direction position 0 =
      match direction.after? position with
      | none => .unmatched
      | some next => text.scanDepth deeper shallower direction next 1 := by
  obtain ⟨hinside, hhere⟩ := get_of_charAt? h
  rw [scanDepth, if_pos hinside, hhere, depthAfter?_deeper]
  dsimp only
  split <;> simp only [*]

/-! ## Pairs of brackets -/

/-- The closing bracket that a scan finds for an opening one. -/
theorem scanDepth_forward_iff (hne : closing ≠ opening)
    (hopens : text.charAt? first = some opening) :
    text.scanDepth opening closing .forward first 0 = .found last ↔
      text.BracketPair opening closing first last := by
  rw [scanDepth_of_charAt? hopens]
  show text.scanDepth opening closing .forward (first + 1) (0 + 1) = .found last ↔ _
  rw [scanDepth_eq_found_iff hne (fun h => by cases h), depthBehind?_eq_zero_iff hne]
  constructor
  · rintro ⟨hlt, hcloses, hbetween⟩
    exact ⟨hlt, hopens, hcloses, hbetween⟩
  · rintro ⟨hlt, _, hcloses, hbetween⟩
    exact ⟨hlt, hcloses, hbetween⟩

/-- The opening bracket that a scan finds for a closing one. -/
theorem scanDepth_backward_iff (hne : opening ≠ closing)
    (hcloses : text.charAt? last = some closing) :
    text.scanDepth closing opening .backward last 0 = .found first ↔
      text.BracketPair opening closing first last := by
  rw [scanDepth_of_charAt? hcloses]
  cases last with
  | zero => exact iff_of_false (fun heq => by cases heq) fun h => Nat.not_lt_zero _ h.lt
  | succ last =>
    have hinside := Nat.lt_of_succ_lt (lt_size_of_charAt? hcloses)
    show text.scanDepth closing opening .backward last (0 + 1) = .found first ↔ _
    rw [scanDepth_eq_found_iff hne fun _ => hinside, depthBehind?_eq_zero_iff hne]
    constructor
    · rintro ⟨hle, hopens, hbetween⟩
      have hbetween := hbetween.reverse
      rw [passed, List.reverse_reverse] at hbetween
      exact ⟨Nat.lt_succ_of_le hle, hopens, hcloses, hbetween⟩
    · rintro ⟨hlt, hopens, _, hbetween⟩
      exact ⟨Nat.le_of_lt_succ hlt, hopens, hbetween.reverse⟩

/-- A bracket closes what opens it. -/
theorem openingBracket?_eq_some_iff :
    openingBracket? closing = some opening ↔ closingBracket? opening = some closing := by
  constructor
  · intro h
    unfold openingBracket? at h
    split at h <;> cases h <;> rfl
  · intro h
    unfold closingBracket? at h
    split at h <;> cases h <;> rfl

/-- No bracket closes itself. -/
theorem closing_ne_opening (h : closingBracket? opening = some closing) : closing ≠ opening := by
  rintro rfl
  unfold closingBracket? at h
  split at h <;> cases h

/-- Two positions hold a bracket and the one that closes it, whichever of the four kinds it is. -/
def IsBracketPair (text : Source) (first last : Nat) : Prop :=
  ∃ opening closing, closingBracket? opening = some closing ∧
    text.BracketPair opening closing first last

/-- The search forward finds the closing bracket of a pair. -/
theorem matchingBracket?_forward_iff :
    text.matchingBracket? first .forward = some last ↔ text.IsBracketPair first last := by
  rw [matchingBracket?, BracketScan.found?_eq_some_iff]
  constructor
  · intro h
    unfold scanBracket at h
    split at h
    · cases h
    · next opening hopens =>
      dsimp only at h
      split at h
      · cases h
      · next closing hclosing =>
        have hne := closing_ne_opening hclosing
        exact ⟨opening, closing, hclosing, (scanDepth_forward_iff hne hopens).1 h⟩
  · rintro ⟨opening, closing, hclosing, hpair⟩
    rw [scanBracket, hpair.opens]
    dsimp only
    rw [hclosing]
    exact (scanDepth_forward_iff (closing_ne_opening hclosing) hpair.opens).2 hpair

/-- The search backward finds the opening one. -/
theorem matchingBracket?_backward_iff :
    text.matchingBracket? last .backward = some first ↔ text.IsBracketPair first last := by
  rw [matchingBracket?, BracketScan.found?_eq_some_iff]
  constructor
  · intro h
    unfold scanBracket at h
    split at h
    · cases h
    · next closing hcloses =>
      dsimp only at h
      split at h
      · cases h
      · next opening hopening =>
        have hclosing := openingBracket?_eq_some_iff.1 hopening
        have hne := (closing_ne_opening hclosing).symm
        exact ⟨opening, closing, hclosing, (scanDepth_backward_iff hne hcloses).1 h⟩
  · rintro ⟨opening, closing, hclosing, hpair⟩
    rw [scanBracket, hpair.closes]
    dsimp only
    rw [openingBracket?_eq_some_iff.2 hclosing]
    exact (scanDepth_backward_iff (closing_ne_opening hclosing).symm hpair.closes).2 hpair

/-- A scan for a matching bracket counts without failure, wherever it begins. -/
theorem scanBracket_ne_underflow (text : Source) (position : Nat) (direction : Direction) :
    text.scanBracket position direction ≠ .underflow := by
  intro heq
  unfold scanBracket at heq
  split at heq
  · cases heq
  · next c hhere =>
    dsimp only at heq
    split at heq
    · cases heq
    · next other _ =>
      rw [scanDepth_of_charAt? hhere] at heq
      split at heq
      · cases heq
      · next next _ => exact scanDepth_ne_underflow text direction next 0 heq

/-- **Bracket matching is symmetric.** A scan forward from one position finds another exactly if a
scan backward from there finds the first, and exactly if the two hold an opening bracket and the
closing one of its kind, in this order, with text between them that is balanced in that kind. No
scan comes out of a bracket that it is not in. -/
theorem matchingBracket_symmetric (text : Source) (first last : Nat) :
    (text.matchingBracket? first .forward = some last ↔
        text.matchingBracket? last .backward = some first) ∧
      (text.matchingBracket? first .forward = some last ↔ text.IsBracketPair first last) ∧
      ∀ position direction, text.scanBracket position direction ≠ .underflow := by
  refine ⟨?_, matchingBracket?_forward_iff, text.scanBracket_ne_underflow⟩
  rw [matchingBracket?_forward_iff, matchingBracket?_backward_iff]

/-- Brackets of other kinds do not count. -/
example : (ofList ['(', '[', '(', ')', ')', ']']).matchingBracket? 0 .forward = some 4 := by
  decide +kernel

end Source

end Emend
