import Emend.Pattern.Machine
import Emend.Pattern.Parser

/-!
# Patterns ready to run

A `Regex` is a pattern with its program. A program for searching begins with a lazy loop over any
characters, so that a run finds the first match from its start on; without it a match has to begin
right there. A program for walking backward finds the nearest match that ends at or before its
start. The result of a run is a `Captures`: the places that bound the match and its groups.
-/

namespace Emend

/-- The places that bound a match and its groups: slots `2n` and `2n + 1` bound group `n`, and
group 0 is the whole match. -/
structure Captures where
  /-- The place noted in each slot, if any. -/
  slots : Slots
  deriving DecidableEq, Repr

namespace Captures

/-- The place noted in a slot. -/
def slot? (captures : Captures) (index : Nat) : Option Nat :=
  (captures.slots[index]?).join

/-- Where the whole match begins. -/
def start (captures : Captures) : Nat :=
  (captures.slot? 0).getD 0

/-- Where the whole match ends. -/
def stop (captures : Captures) : Nat :=
  (captures.slot? 1).getD 0

/-- The bounds of a group that took part in the match. -/
def group? (captures : Captures) (n : Nat) : Option (Nat × Nat) :=
  match captures.slot? (2 * n), captures.slot? (2 * n + 1) with
  | some start, some stop => some (start, stop)
  | _, _ => none

/-- How many groups the pattern has, the whole match included. -/
def groupCount (captures : Captures) : Nat :=
  captures.slots.size / 2

end Captures

/-- A pattern with its program. -/
structure Regex where
  /-- The text of the pattern. -/
  pattern : String
  /-- The instructions. -/
  program : Array Instr
  /-- How many slots a run fills. -/
  slotCount : Nat
  /-- Whether the program walks the text backward. -/
  backward : Bool
  deriving DecidableEq, Repr

/-- A text that is no pattern, and why. -/
structure RegexError where
  /-- The text. -/
  pattern : String
  /-- What is wrong with it. -/
  cause : PatternError
  deriving DecidableEq, Repr

/-- How the error is reported. -/
def RegexError.message (error : RegexError) : String :=
  "error compiling " ++ error.pattern ++ ": " ++ error.cause.message

namespace Regex

/-- The slots that a program needs: two for each group up to the highest, and two at least. -/
def slotsFor (program : List Instr) : Nat :=
  -- Slots come in pairs, so the count is rounded up to an even number.
  let highest := program.foldl (fun highest instr =>
    match instr with
    | .save slot => max highest slot
    | _ => highest) 1
  (highest + 2) / 2 * 2

/-- The pattern with this program. -/
def ofProgram (pattern : String) (program : List Instr) (backward : Bool) : Regex where
  pattern
  program := program.toArray
  slotCount := slotsFor program
  backward

/-- A lazy loop over any characters, which carries a match to its first possible start. -/
def searchLoop : Node :=
  .loop .zeroOrMore false (.oneOf .any)

/-- The program of a tree, with or without the loop that searches. -/
def programOf (node : Node) (search backward : Bool) : List Instr :=
  let lead := if search then searchLoop.code backward 0 else []
  lead ++ node.code backward lead.length ++ [.accept]

/-- Reads a pattern and writes its program. -/
def compile (pattern : String) (search backward : Bool) : Except RegexError Regex :=
  match Pattern.parse pattern with
  | .ok node => .ok (ofProgram pattern (programOf node search backward) backward)
  | .error cause => .error ⟨pattern, cause⟩

/-- The tree that matches the characters of a text in order with gaps between them, none of which
crosses a line end. Group `2i + 1` is the gap before character `i`, and group `2i + 2` the
character. -/
def fuzzyNode (needle : List Char) : Node :=
  .group (some 0) [needle.zipIdx.flatMap fun (c, i) =>
    [.group (some (2 * i + 1)) [[.loop .zeroOrMore false (.oneOf .dot)]],
      .group (some (2 * i + 2)) [[.char c]]]]

/-- The program that looks for the characters of a text in order, with gaps between them. -/
def fuzzy (needle : String) : Regex :=
  ofProgram needle (programOf (fuzzyNode needle.toList) false false) false

/-- Runs the program from `start` towards `bound`. Both are brought into the text first. -/
def matchAt (regex : Regex) (text : Source) (start bound : Nat) (direction : Direction) :
    Option Captures :=
  (Machine.run regex.program regex.slotCount text (min start text.size) (min bound text.size)
    direction).map (⟨·⟩)

/-- Runs the program in its own direction, from `start` to the end of the text that lies there. -/
def find (regex : Regex) (text : Source) (start : Nat) : Option Captures :=
  if regex.backward then regex.matchAt text start 0 .backward
  else regex.matchAt text start text.size .forward

/-- An address written with at least four digits. -/
def listingAddress (address : Nat) : String :=
  let digits := toString address
  String.ofList (List.replicate (4 - digits.length) '0') ++ digits

/-- The listing of the program, one instruction a line. -/
def listing (regex : Regex) : String :=
  String.join (regex.program.toList.zipIdx.map fun (instr, address) =>
    listingAddress address ++ "\t" ++ instr.render ++ "\n")

end Regex

end Emend
