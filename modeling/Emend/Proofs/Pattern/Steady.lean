import Emend.Pattern.Node

/-!
# Patterns whose repetitions do not disturb each other

A thread does not come to an address twice at one place. For a repetition that is what ends a round
that takes no character. But a thread that has passed part of a round may leave it without a
character, begin the next round, and come to an address of the first one again; there it is dropped
too, although this round is not an empty one. That does no harm if the thread has tried before
whatever the address leads to.

`leavesLast` says, from the shape of a node alone, that a thread leaves the node only after it has
tried all else. A node is `steady` if each of its repetitions is of one of two kinds: a round takes
a character, so that no round comes to an address of the one before, or the repetition is one of `*`
over a node that is left last.
-/

namespace Emend

namespace Node

mutual

/-- Whether a thread may pass the node without taking a character, if all assertions hold. -/
def nullable : Node → Bool
  | .char _ | .oneOf _ => false
  | .assert _ => true
  | .loop .oneOrMore _ child => child.nullable
  | .loop .zeroOrMore _ _ | .loop .zeroOrOne _ _ => true
  | .group _ branches => nullableBranches branches

/-- Whether one of the branches may be passed without taking a character. -/
def nullableBranches : List (List Node) → Bool
  | [] => false
  | branch :: rest => nullableRow branch || nullableBranches rest

/-- Whether all of the nodes may be passed without taking a character. -/
def nullableRow : List Node → Bool
  | [] => true
  | node :: rest => node.nullable && nullableRow rest

end

mutual

/-- Whether a thread that leaves the node has tried before whatever the node could still match from
the addresses through which the thread has come at this place. `moved` says whether it has taken a
character in the node; if not, all its addresses in the node count, and otherwise those since the
last character. -/
def leavesLast (moved : Bool) : Node → Bool
  | .char _ | .oneOf _ | .assert _ => true
  -- A lazy repetition is left first, and another round tried then.
  | .loop .zeroOrMore greedy child => greedy && (!moved || child.leavesLast true)
  | .loop .oneOrMore greedy child => !moved || greedy && child.leavesLast true
  | .loop .zeroOrOne greedy child => (greedy || moved) && child.leavesLast moved
  | .group _ branches => branchesLeaveLast moved branches

/-- The same for a choice between branches. If it is passed without a character, no branch is left
to be tried. -/
def branchesLeaveLast (moved : Bool) : List (List Node) → Bool
  | [] => true
  | branch :: rest =>
    rowLeavesLast moved branch && (moved || rest.isEmpty || !nullableRow branch) &&
      branchesLeaveLast moved rest

/-- The same for nodes in a row. The first node counts only if the thread may come from it to the
end of the row without taking a character. -/
def rowLeavesLast (moved : Bool) : List Node → Bool
  | [] => true
  | node :: rest =>
    if moved then
      rowLeavesLast true rest &&
        (!nullableRow rest || node.leavesLast true && rowLeavesLast false rest)
    else
      !(node.nullable && nullableRow rest) || node.leavesLast false && rowLeavesLast false rest

end

mutual

/-- Whether every round of every repetition takes a character, apart from those of `*` over a node
that is left only after all else has been tried. -/
def steady : Node → Bool
  | .char _ | .oneOf _ | .assert _ => true
  | .loop .zeroOrMore _ child => (!child.nullable || child.leavesLast true) && child.steady
  | .loop .oneOrMore _ child => !child.nullable && child.steady
  | .loop .zeroOrOne _ child => child.steady
  | .group _ branches => steadyBranches branches

/-- Whether all branches are steady. -/
def steadyBranches : List (List Node) → Bool
  | [] => true
  | branch :: rest => steadyRow branch && steadyBranches rest

/-- Whether all nodes of a row are steady. -/
def steadyRow : List Node → Bool
  | [] => true
  | node :: rest => node.steady && steadyRow rest

end

end Node

end Emend
