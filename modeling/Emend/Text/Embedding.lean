import Emend.Text.Scan

/-!
# Embeddings

A text is embedded in another if its characters occur there in order, with gaps between them. Here
a gap must not reach over a line end. Taking the first occurrence of each character in turn gives
the earliest embedding.
-/

namespace Emend

/-- The characters stand at these positions in order, the first at or after `start`, with no line
end before the first or between two. -/
inductive Source.Embeds (text : Source) : Nat → List Char → List Nat → Prop where
  /-- No characters stand at no positions. -/
  | nil {start : Nat} : Embeds text start [] []
  /-- The first character stands at the first position, and the others after it. -/
  | cons {start position : Nat} {c : Char} {needle : List Char} {positions : List Nat}
    (after : start ≤ position) (here : text.charAt? position = some c)
    (gap : ∀ between, start ≤ between → between < position →
      text.charAt? between ≠ some '\n')
    (rest : Embeds text (position + 1) needle positions) :
    Embeds text start (c :: needle) (position :: positions)

/-- The positions of the first occurrence of each character in turn, each after the one before. -/
def Source.firstOccurrences? (text : Source) (start : Nat) : List Char → Option (List Nat)
  | [] => some []
  | c :: needle => do
    let position ← text.findFrom? (· == c) start
    return position :: (← text.firstOccurrences? (position + 1) needle)

/-- An embedding has a position for each character. -/
theorem Source.Embeds.length_eq {text : Source} {start : Nat} {needle : List Char}
    {positions : List Nat} (h : text.Embeds start needle positions) :
    positions.length = needle.length := by
  induction h with
  | nil => rfl
  | cons _ _ _ _ ih => rw [List.length_cons, List.length_cons, ih]

namespace Source

variable {text : Source} {start first found position : Nat} {c : Char} {needle : List Char}
  {positions : List Nat}

/-- The first gap may begin earlier in the line. -/
theorem Embeds.fromBefore (h : text.Embeds start needle positions) (hfirst : first ≤ start)
    (hplain : ∀ between, first ≤ between → between < start →
      text.charAt? between ≠ some '\n') : text.Embeds first needle positions := by
  cases h with
  | nil => exact .nil
  | cons after here gap rest =>
    refine .cons (Nat.le_trans hfirst after) here (fun between hbetween hlt => ?_) rest
    rcases Nat.lt_or_ge between start with hbefore | hbehind
    · exact hplain between hbetween hbefore
    · exact gap between hbehind hlt

/-- **The first occurrence of the first character is never the wrong choice.** Whatever comes behind
another occurrence comes behind this one, with no line end between: the other occurrence is none
itself, or a line end would lie before it. -/
theorem Embeds.commit (h : text.Embeds start (c :: needle) (position :: positions))
    (hfound : text.findFrom? (· == c) start = some found) :
    text.Embeds start (c :: needle) (found :: positions) := by
  obtain ⟨hstart, hhere, hbefore⟩ := findFrom?_char_eq_some_iff.1 hfound
  cases h with
  | cons after here gap rest =>
    have hle : found ≤ position :=
      Nat.le_of_not_lt fun hlt => hbefore position after hlt here
    refine .cons hstart hhere (fun between hbetween hlt => ?_) ?_
    · exact gap between hbetween (Nat.lt_of_lt_of_le hlt hle)
    · refine rest.fromBefore (Nat.succ_le_succ hle) fun between hbetween hlt => ?_
      rcases Nat.eq_or_lt_of_le (Nat.le_of_lt_succ hlt) with rfl | hinside
      · have hgap := gap found hstart hbetween
        rw [hhere] at hgap
        rwa [here]
      · exact gap between (Nat.le_trans hstart (Nat.le_of_succ_le hbetween)) hinside

/-- If the characters can be embedded at all, their first occurrences embed them. -/
theorem Embeds.exists_firstOccurrences (h : text.Embeds start needle positions) :
    ∃ places, text.firstOccurrences? start needle = some places ∧
      text.Embeds start needle places := by
  induction needle generalizing start positions with
  | nil => exact ⟨[], rfl, .nil⟩
  | cons c needle ih =>
    cases h with
    | @cons _ position _ _ _ after here gap rest =>
      have h := Embeds.cons after here gap rest
      cases hfound : text.findFrom? (· == c) start with
      | none =>
        obtain ⟨hsize, hget⟩ := get_of_charAt? here
        have hnone := findFrom?_eq_none_iff.1 hfound position after hsize
        exact absurd hget (beq_eq_false_iff_ne.1 hnone)
      | some found =>
        cases h.commit hfound with
        | cons hstart hhere hgap hrest =>
          obtain ⟨places, hplaces, hembeds⟩ := ih hrest
          refine ⟨found :: places, ?_, .cons hstart hhere hgap hembeds⟩
          rw [firstOccurrences?, hfound, Option.bind_eq_bind, Option.bind_some, hplaces]
          rfl

end Source

end Emend
