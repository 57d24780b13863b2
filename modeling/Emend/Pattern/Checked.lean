import Emend.Pattern.Regex

/-!
# Checked runs

`Machine.run` passes over whatever it cannot look up. Here the same threads are run by a machine
that fails instead: where an address has no instruction or no mark, where a slot is noted that is
not there, where two threads wait at one address, and where the run is not over after a given number
of places. It goes on where the text has ended, and stops as soon as no thread is left or the bound
is reached.
-/

namespace Emend

/-- Why a checked run fails. -/
inductive Fault where
  /-- The program has no instruction at the address. -/
  | address (pc : Nat)
  /-- There is no mark for the address. -/
  | mark (pc : Nat)
  /-- The thread does not have the slot. -/
  | slot (index : Nat)
  /-- Several threads wait at one address at the place. -/
  | repeated (position : Nat)
  /-- The run goes on beyond the place. -/
  | unfinished (position : Nat)
  deriving DecidableEq, Repr

namespace Machine.Checked

/-- Follows threads at one place, as `Machine.follow` does. -/
def follow (program : Array Instr) (text : Source) (position : Nat) (list : ThreadList)
    (threads : List Thread) : Except Fault ThreadList :=
  match threads with
  | [] => .ok list
  | thread :: others =>
    match _ : list.seen[thread.pc]? with
    | none => .error (.mark thread.pc)
    | some true => follow program text position list others
    | some false =>
      let marked := list.mark thread.pc
      match program[thread.pc]? with
      | none => .error (.address thread.pc)
      | some (.assert assertion) =>
        if assertion.holds text position then
          follow program text position marked ({ thread with pc := thread.pc + 1 } :: others)
        else follow program text position marked others
      | some (.save slot) =>
        if slot < thread.slots.size then
          let noted := thread.slots.setIfInBounds slot (some position)
          follow program text position marked (⟨thread.pc + 1, noted⟩ :: others)
        else .error (.slot slot)
      | some (.jump target) =>
        follow program text position marked ({ thread with pc := target } :: others)
      | some (.split targets) =>
        follow program text position marked
          (targets.map (fun target => { thread with pc := target }) ++ others)
      | some (.char _) | some (.oneOf _) | some .accept =>
        follow program text position { marked with waiting := marked.waiting.push thread } others
termination_by (list.seen.count false, threads.length)
decreasing_by
  all_goals first
    | exact Prod.Lex.left _ _ (ThreadList.count_mark_lt ‹_›)
    | exact Prod.Lex.right _ (by simp)

/-- Goes on with the threads that wait at a place, up to the first that accepts: its slots, and the
threads at the next place. There is no character where the text has ended. -/
def advance (program : Array Instr) (text : Source) (position : Nat) (char : Option Char)
    (list : ThreadList) : List Thread → Except Fault (Option Slots × ThreadList)
  | [] => .ok (none, list)
  | thread :: others =>
    match program[thread.pc]? with
    | none => .error (.address thread.pc)
    | some .accept => .ok (some thread.slots, list)
    | some instr =>
      if char.any instr.takes then do
        let list ← follow program text position list [{ thread with pc := thread.pc + 1 }]
        advance program text position char list others
      else advance program text position char list others

/-- Runs the threads that wait at a place. The run must be over after `steps` places. -/
def loop (program : Array Instr) (text : Source) (bound : Nat) (direction : Direction) :
    (steps position : Nat) → List Thread → Option Slots → Except Fault (Option Slots)
  | 0, position, _, _ => .error (.unfinished position)
  | _ + 1, _, [], best => .ok best
  | steps + 1, position, thread :: others, best =>
    let threads := thread :: others
    if (threads.map (·.pc)).Nodup then do
      let atBound := position = bound
      let char := if atBound then none else text.next? direction position
      let next := direction.step position
      let (accepted, list) ← advance program text next char (.empty program.size) threads
      let best := accepted <|> best
      if atBound then return best
      else loop program text bound direction steps next list.waiting.toList best
    else .error (.repeated position)

/-- Runs a program from `start` towards `bound` in so many steps at most. -/
def run (program : Array Instr) (slotCount : Nat) (text : Source) (start bound : Nat)
    (direction : Direction) (steps : Nat) : Except Fault (Option Slots) := do
  let first : Thread := ⟨0, Array.replicate slotCount none⟩
  let list ← follow program text start (.empty program.size) [first]
  let best ← loop program text bound direction steps start list.waiting.toList none
  match direction with
  | .forward => return best
  | .backward => return best.map fun slots => (orderPairs slots.toList).toArray

end Machine.Checked

/-- Runs the program of a pattern from `start` towards `bound`, both brought into the text, in so
many steps at most. -/
def Regex.checkedMatchAt (regex : Regex) (text : Source) (start bound : Nat)
    (direction : Direction) (steps : Nat) : Except Fault (Option Captures) :=
  (Machine.Checked.run regex.program regex.slotCount text (min start text.size)
    (min bound text.size) direction steps).map fun best => best.map (⟨·⟩)

end Emend
