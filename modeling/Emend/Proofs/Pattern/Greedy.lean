import Emend.Pattern.Preference
import Mathlib.Data.List.Basic

/-!
# Repetitions of a class

Where a stretch of a text belongs to a class and what follows does not, a greedy repetition of the
class matches every beginning of the stretch, a longer one before a shorter one (`ways_zeroOrMore`,
`ways_oneOrMore`), and a lazy one matches them the other way round (`ways_zeroOrMore_lazy`). The
three are one induction along the stretch (`ways_oneOrMore_oneOf`), since any number of rounds that
move on is one round or more, or none (`Way.rounds_eq_order`). If a character comes next in the
pattern that the class lacks, only the whole stretch is left of these ways
(`waysOfRow_zeroOrMore_char`).
-/

namespace Emend

/-- A dot stands for any character but a line end. -/
@[simp]
theorem CharClass.contains_dot (c : Char) : CharClass.dot.contains c = (c != '\n') := by
  simp only [contains, dot, having, ClassItem.covers, CharPredicate.holds, List.any_cons,
    List.any_nil, Bool.or_false, Bool.bne_false]

/-- From a position on so many characters of a text belong to a class, and no more. -/
structure CharClass.Covers (set : CharClass) (text : Source) (start count : Nat) : Prop where
  /-- They belong to the class. -/
  inside : ∀ position, start ≤ position → position < start + count →
    (text.charAt? position).any set.contains = true
  /-- What follows, if anything, does not. -/
  ends : (text.charAt? (start + count)).any set.contains = false

namespace CharClass.Covers

variable {set : CharClass} {text : Source} {start count : Nat}

/-- The first of the characters stands in the text, and the others come behind it. -/
theorem next (h : set.Covers text start (count + 1)) :
    (text.charAt? start).any set.contains = true ∧ start + 1 ≤ text.size ∧
      set.Covers text (start + 1) count := by
  have hhere := h.inside start (Nat.le_refl _) (Nat.lt_add_of_pos_right (Nat.succ_pos count))
  obtain ⟨c, hc, _⟩ := (Option.any_eq_true _ _).1 hhere
  refine ⟨hhere, Source.lt_size_of_charAt? hc, fun position hposition hlt => ?_, ?_⟩
  · exact h.inside position (Nat.le_of_succ_le hposition) (by omega)
  · rw [Nat.add_right_comm]
    exact h.ends

end CharClass.Covers

/-- A stretch of the class begins everywhere, if only an empty one. -/
theorem CharClass.exists_covers (set : CharClass) (text : Source) (start : Nat) :
    ∃ count, set.Covers text start count := by
  induction hleft : text.size - start generalizing start with
  | zero =>
    refine ⟨0, fun position hposition hlt => absurd hlt (Nat.not_lt.2 hposition), ?_⟩
    rw [Nat.add_zero, Source.charAt?, if_neg (by omega)]
    rfl
  | succ left ih =>
    cases hhere : (text.charAt? start).any set.contains with
    | false =>
      exact ⟨0, fun position hposition hlt => absurd hlt (Nat.not_lt.2 hposition), hhere⟩
    | true =>
      obtain ⟨count, hcount⟩ := ih (start + 1) (by omega)
      refine ⟨count + 1, fun position hposition hlt => ?_, ?_⟩
      · rcases Nat.eq_or_lt_of_le hposition with rfl | hbehind
        · exact hhere
        · exact hcount.inside position hbehind (by omega)
      · rw [← Nat.add_assoc, Nat.add_right_comm]
        exact hcount.ends

/-- If each round moves on within the text, then any number of rounds is one round or more, or
none. -/
theorem Way.rounds_eq_order {size : Nat} {greedy : Bool} {round : Way → List Way}
    (hmoves : ∀ way, ∀ next ∈ round way, way.position < next.position ∧ next.position ≤ size)
    (way : Way) :
    rounds size greedy round way =
      order greedy (roundsFromOne size greedy round way) way := by
  induction hleft : size - way.position using Nat.strongRecOn generalizing way with
  | ind left ih =>
    rw [rounds, roundsFromOne]
    refine congrArg (order greedy · way) (List.flatMap_congr fun next hnext => ?_)
    obtain ⟨hlt, hle⟩ := hmoves way next hnext
    rw [if_pos ⟨hlt, hle⟩, if_pos ⟨hlt, hle⟩]
    exact ih (size - next.position) (by omega) next rfl

namespace Node

variable {set : CharClass} {text : Source} {start count : Nat} {slots : List (Option Nat)}

/-- The ways that end at several places, the last place first. -/
def endingDown (start count : Nat) (slots : List (Option Nat)) : List Way :=
  (List.range' start count).reverse.map (⟨·, slots⟩)

/-- The last place comes first. -/
theorem endingDown_succ (start count : Nat) (slots : List (Option Nat)) :
    endingDown start (count + 1) slots = ⟨start + count, slots⟩ :: endingDown start count slots := by
  rw [endingDown, List.range'_1_concat, List.reverse_concat, List.map_cons]
  rfl

/-- The ways that end at several places, in the order that greed or its lack prefers. -/
def ending (greedy : Bool) (start count : Nat) (slots : List (Option Nat)) : List Way :=
  if greedy then endingDown start count slots else (List.range' start count).map (⟨·, slots⟩)

/-- There are no places, and no ways. -/
@[simp]
theorem ending_zero (greedy : Bool) (start : Nat) (slots : List (Option Nat)) :
    ending greedy start 0 slots = [] := by
  cases greedy <;> rfl

/-- The first place is the one to stop at, and the others are those to go on to. -/
theorem order_ending (greedy : Bool) (start count : Nat) (slots : List (Option Nat)) :
    Way.order greedy (ending greedy (start + 1) count slots) ⟨start, slots⟩ =
      ending greedy start (count + 1) slots := by
  unfold Way.order ending
  cases greedy with
  | true =>
    simp only [if_true, endingDown, List.range'_succ, List.reverse_cons, List.map_append]
    rfl
  | false => rfl

/-- A class ends at the next place, if its character stands here. -/
theorem moves_on_ways_oneOf (set : CharClass) (text : Source) (way next : Way)
    (hnext : next ∈ (Node.oneOf set).ways text way) :
    way.position < next.position ∧ next.position ≤ text.size := by
  rw [ways] at hnext
  split at hnext
  · next hhere =>
    cases List.mem_singleton.1 hnext
    obtain ⟨c, hc, _⟩ := (Option.any_eq_true _ _).1 hhere
    exact ⟨Nat.lt_succ_self _, Source.lt_size_of_charAt? hc⟩
  · cases hnext

/-- At the end of a stretch there is no way to go on. -/
theorem ways_oneOf_end (h : set.Covers text start 0) (slots : List (Option Nat)) :
    (Node.oneOf set).ways text ⟨start, slots⟩ = [] := by
  have hends : (text.charAt? start).any set.contains = false := h.ends
  rw [ways]
  dsimp only
  rw [hends, if_neg Bool.false_ne_true]

/-- In a stretch the next character is the only way to go on. -/
theorem ways_oneOf_inside (h : set.Covers text start (count + 1)) (slots : List (Option Nat)) :
    (Node.oneOf set).ways text ⟨start, slots⟩ = [⟨start + 1, slots⟩] := by
  rw [ways]
  dsimp only
  rw [h.next.1, if_pos rfl]

/-- **One round or more over a stretch** end at each place in it behind the first, in the order that
greed or its lack prefers. -/
theorem ways_oneOrMore_oneOf (h : set.Covers text start count) (greedy : Bool)
    (slots : List (Option Nat)) :
    (Node.loop .oneOrMore greedy (.oneOf set)).ways text ⟨start, slots⟩ =
      ending greedy (start + 1) count slots := by
  rw [ways]
  induction count generalizing start with
  | zero =>
    rw [Way.roundsFromOne, ways_oneOf_end h, List.flatMap_nil, ending_zero]
  | succ count ih =>
    obtain ⟨_, hsize, hrest⟩ := h.next
    rw [Way.roundsFromOne, ways_oneOf_inside h, List.flatMap_singleton]
    dsimp only
    rw [if_pos ⟨Nat.lt_succ_self _, hsize⟩, ih hrest, order_ending]

/-- So do any number of rounds, but for the place where they begin, which is one of theirs. -/
theorem ways_zeroOrMore_oneOf (h : set.Covers text start count) (greedy : Bool)
    (slots : List (Option Nat)) :
    (Node.loop .zeroOrMore greedy (.oneOf set)).ways text ⟨start, slots⟩ =
      ending greedy start (count + 1) slots := by
  have hmore := ways_oneOrMore_oneOf h greedy slots
  rw [ways] at hmore
  rw [ways, Way.rounds_eq_order (moves_on_ways_oneOf set text), hmore, order_ending]

/-- **A greedy repetition takes as much as it can**, and then one character less at a time. -/
theorem ways_zeroOrMore (h : set.Covers text start count) (slots : List (Option Nat)) :
    (Node.loop .zeroOrMore true (.oneOf set)).ways text ⟨start, slots⟩ =
      endingDown start (count + 1) slots :=
  ways_zeroOrMore_oneOf h true slots

/-- The same, but for the beginning without a character. -/
theorem ways_oneOrMore (h : set.Covers text start count) (slots : List (Option Nat)) :
    (Node.loop .oneOrMore true (.oneOf set)).ways text ⟨start, slots⟩ =
      endingDown (start + 1) count slots :=
  ways_oneOrMore_oneOf h true slots

/-- **A lazy repetition takes as little as it can**, and then one character more at a time. -/
theorem ways_zeroOrMore_lazy (h : set.Covers text start count) (slots : List (Option Nat)) :
    (Node.loop .zeroOrMore false (.oneOf set)).ways text ⟨start, slots⟩ =
      (List.range' start (count + 1)).map (⟨·, slots⟩) :=
  ways_zeroOrMore_oneOf h false slots

/-- The ways to match a row of one node are those of the node. -/
theorem waysOfRow_singleton (text : Source) (node : Node) (way : Way) :
    waysOfRow text [node] way = node.ways text way := by
  have hlast : waysOfRow text [] = fun way => [way] := funext fun way => waysOfRow.eq_1 ..
  rw [waysOfRow, hlast, List.flatMap_singleton']

/-- The ways to match a single character. -/
theorem waysOfRow_char (text : Source) (c : Char) (way : Way) :
    waysOfRow text [.char c] way =
      if text.charAt? way.position = some c then [{ way with position := way.position + 1 }]
      else [] := by
  rw [waysOfRow_singleton, ways]

/-- A character that the class lacks can only follow the whole stretch. -/
theorem waysOfRow_zeroOrMore_char (h : set.Covers text start count) {c : Char}
    (hc : set.contains c = false) (slots : List (Option Nat)) :
    waysOfRow text [.loop .zeroOrMore true (.oneOf set), .char c] ⟨start, slots⟩ =
      if text.charAt? (start + count) = some c then [⟨start + count + 1, slots⟩] else [] := by
  have hshorter : (endingDown start count slots).flatMap (waysOfRow text [.char c]) = [] := by
    refine List.flatMap_eq_nil_iff.2 fun way hway => ?_
    obtain ⟨position, hposition, rfl⟩ := List.mem_map.1 hway
    obtain ⟨hle, hlt⟩ := List.mem_range'_1.1 (List.mem_reverse.1 hposition)
    rw [waysOfRow_char, if_neg]
    intro hhere
    have hinside := h.inside position hle hlt
    rw [hhere, Option.any_some, hc] at hinside
    cases hinside
  rw [waysOfRow, ways_zeroOrMore h, endingDown_succ, List.flatMap_cons, hshorter, List.append_nil,
    waysOfRow_char]

end Node

end Emend
