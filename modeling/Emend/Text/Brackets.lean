import Emend.Text.Source

/-!
# Balanced text

A text is balanced in a kind of brackets if they come in pairs that nest. Characters of no such kind
may stand anywhere. A pair of positions matches if it holds an opening and a closing bracket with
balanced text between them.
-/

namespace Emend

/-- The brackets of one kind come in pairs that nest. -/
inductive Balanced (opening closing : Char) : List Char → Prop where
  /-- The empty text is balanced. -/
  | nil : Balanced opening closing []
  /-- Other characters may come first. -/
  | other {c : Char} {rest : List Char} (notOpening : c ≠ opening) (notClosing : c ≠ closing)
    (after : Balanced opening closing rest) : Balanced opening closing (c :: rest)
  /-- A pair with balanced text in it may come first. -/
  | pair {inside rest : List Char} (within : Balanced opening closing inside)
    (after : Balanced opening closing rest) :
    Balanced opening closing (opening :: (inside ++ closing :: rest))

/-- Two positions hold brackets of one kind that belong together. -/
structure Source.BracketPair (text : Source) (opening closing : Char) (first last : Nat) :
    Prop where
  /-- The first comes before the last. -/
  lt : first < last
  /-- The first position holds the opening bracket. -/
  opens : text.charAt? first = some opening
  /-- The last position holds the closing bracket. -/
  closes : text.charAt? last = some closing
  /-- The text between them is balanced. -/
  between : Balanced opening closing (text.slice (first + 1) last)

/-- Balanced texts in a row are balanced. -/
theorem Balanced.append {opening closing : Char} {first second : List Char}
    (h₁ : Balanced opening closing first) (h₂ : Balanced opening closing second) :
    Balanced opening closing (first ++ second) := by
  induction h₁ with
  | nil => exact h₂
  | other notOpening notClosing _ ih => exact .other notOpening notClosing ih
  | pair within _ _ ih =>
    rw [List.cons_append, List.append_assoc, List.cons_append]
    exact .pair within ih

/-- Balanced text read backward is balanced, with the two brackets exchanged. -/
theorem Balanced.reverse {opening closing : Char} {chars : List Char}
    (h : Balanced opening closing chars) : Balanced closing opening chars.reverse := by
  induction h with
  | nil => exact .nil
  | other notOpening notClosing _ ih =>
    rw [List.reverse_cons]
    exact ih.append (.other notClosing notOpening .nil)
  | @pair inside rest _ _ ihInside ihRest =>
    have hpair : Balanced closing opening (closing :: (inside.reverse ++ [opening])) :=
      .pair ihInside .nil
    have hreverse : (opening :: (inside ++ closing :: rest)).reverse =
        rest.reverse ++ closing :: (inside.reverse ++ [opening]) := by simp
    rw [hreverse]
    exact ihRest.append hpair

end Emend
