import Emend.Pattern.Parser

/-!
# The ways to match, in order of preference

A tree can match at a place in several ways: another branch, one more round or one fewer. This
module lists them, the preferred ones first, each with the place where it ends and the bounds of
the groups that it went through. It follows the tree and nothing else, so it says which of several
matches is meant, where a program only finds one.

A round of `*` that matches nothing is not a way to go on; one of `+` ends the repetition.
-/

namespace Emend

/-- A way to match: where it ends, and the places noted for the bounds of groups. -/
structure Way where
  /-- Where the match ends. -/
  position : Nat
  /-- The places noted: slots `2n` and `2n + 1` bound group `n`. -/
  slots : List (Option Nat)
  deriving DecidableEq, Repr

namespace Way

/-- The way with its end noted in a slot. -/
def note (way : Way) (slot : Nat) : Way :=
  { way with slots := way.slots.set slot (some way.position) }

/-- The ways to go on and the way to stop, in the order that greed or its lack prefers. -/
def order (greedy : Bool) (again : List Way) (leave : Way) : List Way :=
  if greedy then again ++ [leave] else leave :: again

/-- The ways to match any number of rounds in a text of `size` characters, for the ways to match
one. A round has to move on. -/
def rounds (size : Nat) (greedy : Bool) (round : Way → List Way) (way : Way) : List Way :=
  order greedy
    ((round way).flatMap fun next =>
      if way.position < next.position ∧ next.position ≤ size then rounds size greedy round next
      else [])
    way
termination_by size - way.position

/-- The ways to match one more round or more in a text of `size` characters, for the ways to match
one. A round that does not move on is the last. -/
def roundsFromOne (size : Nat) (greedy : Bool) (round : Way → List Way) (way : Way) : List Way :=
  (round way).flatMap fun next =>
    if way.position < next.position ∧ next.position ≤ size then
      order greedy (roundsFromOne size greedy round next) next
    else [next]
termination_by size - way.position

end Way

namespace Node

mutual

/-- The ways to match a node from the place that a way has reached. -/
def ways (text : Source) : Node → Way → List Way
  | .char c, way =>
    if text.charAt? way.position = some c then [{ way with position := way.position + 1 }] else []
  | .oneOf set, way =>
    if (text.charAt? way.position).any set.contains then
      [{ way with position := way.position + 1 }]
    else []
  | .assert assertion, way => if assertion.holds text way.position then [way] else []
  | .loop .zeroOrMore greedy child, way => way.rounds text.size greedy (child.ways text)
  | .loop .oneOrMore greedy child, way => way.roundsFromOne text.size greedy (child.ways text)
  | .loop .zeroOrOne greedy child, way => Way.order greedy (child.ways text way) way
  | .group none branches, way => waysOfBranches text branches way
  | .group (some index) branches, way =>
    (waysOfBranches text branches (way.note (2 * index))).map (·.note (2 * index + 1))

/-- The ways to match one of several branches. -/
def waysOfBranches (text : Source) : List (List Node) → Way → List Way
  | [], _ => []
  | branch :: rest, way => waysOfRow text branch way ++ waysOfBranches text rest way

/-- The ways to match nodes in a row. -/
def waysOfRow (text : Source) : List Node → Way → List Way
  | [], way => [way]
  | node :: rest, way => (node.ways text way).flatMap (waysOfRow text rest)

end

/-- The preferred way to match a node right at a place, with room for `slotCount` bounds. -/
def preferredAt? (node : Node) (text : Source) (slotCount position : Nat) : Option Way :=
  (node.ways text ⟨position, List.replicate slotCount none⟩).head?

/-- The preferred way to match a node at the first place where it matches at all. -/
def preferred? (node : Node) (text : Source) (slotCount : Nat) : Option Way :=
  (List.range (text.size + 1)).findSome? (node.preferredAt? text slotCount)

end Node

end Emend
