import Emend.Pattern.Assertion
import Emend.Pattern.Class

/-!
# The tree of a pattern

A pattern is a choice between branches, and a branch is a sequence of nodes: characters, classes,
assertions, repetitions, and groups that hold a choice of their own. A group that is remembered
after a match carries its number; the whole pattern is the group with number 0.
-/

namespace Emend

/-- How often a repeated node may occur. -/
inductive Repetition where
  /-- Any number of times, written `*`. -/
  | zeroOrMore
  /-- At least once, written `+`. -/
  | oneOrMore
  /-- At most once, written `?`. -/
  | zeroOrOne
  deriving DecidableEq, Repr

/-- How a repetition is written. -/
def Repetition.symbol : Repetition → String
  | .zeroOrMore => "*"
  | .oneOrMore => "+"
  | .zeroOrOne => "?"

/-- A part of a pattern. -/
inductive Node where
  /-- Just this character. -/
  | char (c : Char)
  /-- Any one character of a class. -/
  | oneOf (set : CharClass)
  /-- A condition on the place. -/
  | assert (assertion : Assertion)
  /-- A repeated node; a greedy repetition prefers one more round to leaving. -/
  | loop (kind : Repetition) (greedy : Bool) (child : Node)
  /-- A choice between branches, the earlier preferred; remembered under `index` if it has one. -/
  | group (index : Option Nat) (branches : List (List Node))
  deriving Repr

namespace Node

mutual

/-- The listing of a node. -/
def render : Node → String
  | .char c => s!"char({c})"
  | .oneOf set => s!"class({set.name})"
  | .assert assertion => s!"assert({assertion.name})"
  | .loop kind greedy child =>
    "rep(" ++ kind.symbol ++ (if greedy then "" else "?") ++ " " ++ child.render ++ ")"
  | .group index branches =>
    "alt(" ++ (match index with | some n => toString n | none => "-1") ++ " " ++
      " | ".intercalate (renderBranches branches) ++ ")"

/-- The listings of the branches of a group. -/
def renderBranches : List (List Node) → List String
  | [] => []
  | branch :: rest =>
    ("branch(" ++ " ".intercalate (renderSequence branch) ++ ")") :: renderBranches rest

/-- The listings of the nodes of a branch. -/
def renderSequence : List Node → List String
  | [] => []
  | node :: rest => node.render :: renderSequence rest

end

end Node

end Emend
