import Emend.Pattern.Token

/-!
# Reading a pattern

The tokens of a pattern are taken in one pass that keeps the groups still open on a stack. A frame
of the stack is a group under construction: the branches that a bar has ended, and the nodes of the
branch being written. Groups that are remembered get their numbers when they are opened, so the
numbers follow the opening parentheses.
-/

namespace Emend

/-- A group under construction. Both lists run backwards, the newest entry first. -/
structure GroupFrame where
  /-- The number under which the group is remembered. -/
  index : Option Nat
  /-- The branches already ended. -/
  branches : List (List Node)
  /-- The nodes of the branch being written. -/
  nodes : List Node

namespace GroupFrame

/-- A group that has just been opened. -/
def opened (index : Option Nat) : GroupFrame :=
  ⟨index, [], []⟩

/-- The group with one more node at the end of its last branch. -/
def push (frame : GroupFrame) (node : Node) : GroupFrame :=
  { frame with nodes := node :: frame.nodes }

/-- The group with its last branch ended and an empty one begun. -/
def endBranch (frame : GroupFrame) : GroupFrame :=
  { frame with branches := frame.nodes.reverse :: frame.branches, nodes := [] }

/-- The finished group. -/
def close (frame : GroupFrame) : Node :=
  .group frame.index frame.endBranch.branches.reverse

end GroupFrame

namespace Pattern

/-- Builds the tree from the tokens that are left. `next` is the number of the next remembered
group, `frame` the innermost open group, and `outer` those around it, innermost first. -/
def build (next : Nat) (frame : GroupFrame) (outer : List GroupFrame) :
    List PatternToken → Except PatternError Node
  | [] =>
    match outer with
    | [] => .ok frame.close
    | _ :: _ => .error .unclosedGroup
  | .invalid error :: _ => .error error
  | .char c :: rest => build next (frame.push (.char c)) outer rest
  | .oneOf set :: rest => build next (frame.push (.oneOf set)) outer rest
  | .assert assertion :: rest => build next (frame.push (.assert assertion)) outer rest
  | .loop kind greedy :: rest =>
    match frame.nodes with
    | [] => .error .nothingToRepeat
    | child :: before =>
      build next { frame with nodes := .loop kind greedy child :: before } outer rest
  | .bar :: rest => build next frame.endBranch outer rest
  | .openGroup true :: rest => build (next + 1) (.opened (some next)) (frame :: outer) rest
  | .openGroup false :: rest => build next (.opened none) (frame :: outer) rest
  | .closeGroup position :: rest =>
    match outer with
    | [] => .error (.unopenedGroup position)
    -- The finished group is the newest node of the group around it.
    | enclosing :: outer => build next (enclosing.push frame.close) outer rest

/-- The tree of a pattern, which is always the group with number 0. -/
def parse (pattern : String) : Except PatternError Node :=
  build 1 (.opened (some 0)) [] (PatternToken.tokens 0 pattern.toList)

end Pattern

end Emend
