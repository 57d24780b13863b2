import Emend.Command.Replacement

/-!
# Replacing several ranges together

What it means to apply arranged replacements to a text: between the texts that are put in, what
lies between their ranges stays, in its order. No positions are moved, since each range is looked
up in the text as it was.
-/

namespace Emend.Replacement

/-- The text from `position` on with all replacements made. -/
def together (content : List Char) (position : Nat) : List Replacement → List Char
  | [] => content.drop position
  | replacement :: rest =>
    (content.take replacement.range.start).drop position ++ replacement.text ++
      together content replacement.range.stop rest

/-- The ranges come one after the other, the first at or after `position`, and all lie in a text of
`size` characters. -/
def InOrder (size : Nat) (position : Nat) : List Replacement → Prop
  | [] => True
  | replacement :: rest =>
    position ≤ replacement.range.start ∧ replacement.range.IsWithin size ∧
      InOrder size replacement.range.stop rest

/-- Without replacements the text from there on stays as it is. -/
@[simp]
theorem together_nil (content : List Char) (position : Nat) :
    together content position [] = content.drop position :=
  rfl

/-- What lies in front of the first replacement stays, its text is put in, and the others are made
behind its range. -/
@[simp]
theorem together_cons (content : List Char) (position : Nat) (replacement : Replacement)
    (rest : List Replacement) :
    together content position (replacement :: rest) =
      (content.take replacement.range.start).drop position ++ replacement.text ++
        together content replacement.range.stop rest :=
  rfl

end Emend.Replacement
