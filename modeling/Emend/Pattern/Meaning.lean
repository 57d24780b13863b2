import Emend.Pattern.Parser
import Emend.Text.Source

/-!
# What a pattern matches

The meaning of a tree, without a program and without preferences: the ranges of a text that it
matches. Assertions look at the whole text, so a range of the middle of a text can be matched
because of what lies around it. A tree of groups also has a list of the groups in it, which says
which numbers are remembered and what each of them stands for.
-/

namespace Emend

namespace Node

mutual

/-- The node matches the text from the first position up to the second. -/
inductive Matches (text : Source) : Node → Nat → Nat → Prop where
  /-- A character matches itself. -/
  | char {c : Char} {start : Nat} (here : text.charAt? start = some c) :
    Matches text (.char c) start (start + 1)
  /-- A class matches each of its characters. -/
  | oneOf {set : CharClass} {c : Char} {start : Nat} (here : text.charAt? start = some c)
    (within : set.contains c = true) : Matches text (.oneOf set) start (start + 1)
  /-- An assertion matches nothing, where it holds. -/
  | assert {assertion : Assertion} {start : Nat} (holds : assertion.holds text start = true) :
    Matches text (.assert assertion) start start
  /-- A repetition other than `+` may be left out. -/
  | skip {kind : Repetition} {greedy : Bool} {child : Node} {start : Nat}
    (optional : kind ≠ .oneOrMore) : Matches text (.loop kind greedy child) start start
  /-- Every repetition matches what one round of it matches. -/
  | once {kind : Repetition} {greedy : Bool} {child : Node} {start stop : Nat}
    (round : Matches text child start stop) : Matches text (.loop kind greedy child) start stop
  /-- A repetition other than `?` goes on after a round. -/
  | again {kind : Repetition} {greedy : Bool} {child : Node} {start middle stop : Nat}
    (repeated : kind ≠ .zeroOrOne) (round : Matches text child start middle)
    (rest : Matches text (.loop kind greedy child) middle stop) :
    Matches text (.loop kind greedy child) start stop
  /-- A group matches what one of its branches matches. -/
  | group {index : Option Nat} {branches : List (List Node)} {branch : List Node}
    {start stop : Nat} (chosen : branch ∈ branches) (row : MatchesRow text branch start stop) :
    Matches text (.group index branches) start stop

/-- The nodes match consecutive pieces of the text between two positions. -/
inductive MatchesRow (text : Source) : List Node → Nat → Nat → Prop where
  /-- No nodes match the empty text. -/
  | nil {start : Nat} : MatchesRow text [] start start
  /-- The first node matches the first piece, and the others the rest. -/
  | cons {node : Node} {rest : List Node} {start middle stop : Nat}
    (first : Matches text node start middle) (others : MatchesRow text rest middle stop) :
    MatchesRow text (node :: rest) start stop

end

mutual

/-- The remembered groups of a node with their branches, an outer group before those inside it and
a left one before those to the right. -/
def groups : Node → List (Nat × List (List Node))
  | .char _ | .oneOf _ | .assert _ => []
  | .loop _ _ child => child.groups
  | .group none branches => groupsOfBranches branches
  | .group (some index) branches => (index, branches) :: groupsOfBranches branches

/-- The remembered groups of branches. -/
def groupsOfBranches : List (List Node) → List (Nat × List (List Node))
  | [] => []
  | branch :: rest => groupsOfRow branch ++ groupsOfBranches rest

/-- The remembered groups of nodes in a row. -/
def groupsOfRow : List Node → List (Nat × List (List Node))
  | [] => []
  | node :: rest => node.groups ++ groupsOfRow rest

end

/-- The numbers of the remembered groups. -/
def groupNumbers (node : Node) : List Nat :=
  node.groups.map (·.1)

/-- The node matches only ranges in order. -/
theorem Matches.le {text : Source} {node : Node} {start stop : Nat}
    (h : Matches text node start stop) : start ≤ stop :=
  h.rec (motive_1 := fun _ start stop _ => start ≤ stop)
    (motive_2 := fun _ start stop _ => start ≤ stop)
    (fun _ => Nat.le_succ _) (fun _ _ => Nat.le_succ _) (fun _ => Nat.le_refl _)
    (fun _ => Nat.le_refl _) (fun _ ih => ih) (fun _ _ _ h₁ h₂ => Nat.le_trans h₁ h₂)
    (fun _ _ ih => ih) (Nat.le_refl _) (fun _ _ h₁ h₂ => Nat.le_trans h₁ h₂)

end Node

/-- The pattern with this text can be read, and its tree matches the range. -/
def Pattern.MatchesRange (pattern : String) (text : Source) (start stop : Nat) : Prop :=
  ∃ node, Pattern.parse pattern = .ok node ∧ node.Matches text start stop

end Emend
