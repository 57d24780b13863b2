import Emend.Pattern.Node

/-!
# Programs of a pattern

A pattern is run as a flat list of instructions. Most instructions test one character or one
condition and go on to the next; jumps and splits go elsewhere, a split to several places in order
of preference. `Node.code` lays out a node at a given address, so that every target is known when
the instruction is written. A program for walking a text backward holds the nodes of each sequence
in reverse; nothing else differs.
-/

namespace Emend

/-- One instruction of a program. -/
inductive Instr where
  /-- Takes this character. -/
  | char (c : Char)
  /-- Takes a character of the class. -/
  | oneOf (set : CharClass)
  /-- Goes on only where the condition holds. -/
  | assert (assertion : Assertion)
  /-- Ends the match. -/
  | accept
  /-- Goes on at another address. -/
  | jump (target : Nat)
  /-- Goes on at each of the addresses, the earlier preferred. -/
  | split (targets : List Nat)
  /-- Notes the place reached in a slot. -/
  | save (slot : Nat)
  deriving DecidableEq, Repr

namespace Instr

/-- The listing of an instruction. A control character is shown as a dash. -/
def render : Instr → String
  | .char c =>
    let shown := if isControl c then '-' else c
    s!"char {c.toNat} {shown}"
  | .oneOf set => "class " ++ set.name
  | .assert assertion => "assert " ++ assertion.name
  | .accept => "match"
  | .jump target => s!"jmp {target}"
  | .split targets => "split " ++ ", ".intercalate (targets.map toString)
  | .save slot => s!"save {slot}"

/-- Whether the instruction takes the character. -/
def takes : Instr → Char → Bool
  | .char x, c => x == c
  | .oneOf set, c => set.contains c
  | _, _ => false

end Instr

/-- A split between another round at `body` and leaving for `exit`. -/
def Instr.choice (greedy : Bool) (body exit : Nat) : Instr :=
  .split (if greedy then [body, exit] else [exit, body])

/-- The addresses at which pieces of code begin when the first is laid out at `base` and a jump
follows each. -/
def codeStarts (base : Nat) : List (List Instr) → List Nat
  | [] => []
  | code :: rest => base :: codeStarts (base + code.length + 1) rest

/-- Pieces of code in a row, each but the last followed by a jump to `exit`. -/
def joinCode (exit : Nat) : List (List Instr) → List Instr
  | [] => []
  | [code] => code
  | code :: rest => code ++ .jump exit :: joinCode exit rest

namespace Node

mutual

/-- The code of a node whose first instruction has the address `base`. -/
def code (backward : Bool) (base : Nat) : Node → List Instr
  | .char c => [.char c]
  | .oneOf set => [.oneOf set]
  | .assert assertion => [.assert assertion]
  | .loop .oneOrMore greedy child =>
    let body := child.code backward base
    body ++ [.choice greedy base (base + body.length + 1)]
  | .loop .zeroOrMore greedy child =>
    let body := child.code backward (base + 1)
    .choice greedy (base + 1) (base + body.length + 2) :: (body ++ [.jump base])
  | .loop .zeroOrOne greedy child =>
    let body := child.code backward (base + 1)
    .choice greedy (base + 1) (base + body.length + 1) :: body
  | .group none branches => choiceCode backward base branches
  | .group (some index) branches =>
    .save (2 * index) :: (choiceCode backward (base + 1) branches ++ [.save (2 * index + 1)])

/-- The code of a choice between branches. A single branch needs no split. -/
def choiceCode (backward : Bool) (base : Nat) : List (List Node) → List Instr
  | [] => []
  | [branch] => sequenceCode backward base branch
  | branch :: second :: rest =>
    -- The split stands at the base, and each branch but the last has a jump after it.
    let first := sequenceCode backward (base + 1) branch
    let pieces := first :: branchCodes backward (base + 1 + first.length + 1) (second :: rest)
    let exit := base + pieces.length + pieces.flatten.length
    .split (codeStarts (base + 1) pieces) :: joinCode exit pieces

/-- The codes of branches laid out one after the other from `base` on, with room for a jump after
each. -/
def branchCodes (backward : Bool) (base : Nat) : List (List Node) → List (List Instr)
  | [] => []
  | branch :: rest =>
    let first := sequenceCode backward base branch
    first :: branchCodes backward (base + first.length + 1) rest

/-- The code of the nodes of a branch, the last of them first in a backward program. -/
def sequenceCode (backward : Bool) (base : Nat) : List Node → List Instr
  | [] => []
  | node :: rest =>
    if backward then
      -- The last node of the branch comes first in the program.
      let later := sequenceCode backward base rest
      later ++ node.code backward (base + later.length)
    else
      let first := node.code backward base
      first ++ sequenceCode backward (base + first.length) rest

end

end Node

end Emend
