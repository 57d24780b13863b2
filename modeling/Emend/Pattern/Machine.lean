import Emend.Pattern.Program

/-!
# Running a program

All ways through a program are followed at once, one character of the text at a time, so no text
makes a match slow. Each way is a thread: the address that it has reached and the places that it
has noted. Threads are kept in order of preference, and of two threads at one address only the
preferred one goes on, since whatever the other could still reach, the first reaches as well. The
run ends when no thread is left or the bound of the text is reached; the answer is the last
thread to accept, which every later acceptance outranks.
-/

namespace Emend

/-- The places that a thread has noted: slots `2n` and `2n + 1` bound group `n`. -/
abbrev Slots := Array (Option Nat)

/-- A way through a program. -/
structure Thread where
  /-- The address reached. -/
  pc : Nat
  /-- The places noted on the way. -/
  slots : Slots

/-- The threads at one place of the text. -/
structure ThreadList where
  /-- Which addresses some thread has reached at this place. -/
  seen : Array Bool
  /-- The threads that wait for a character or accept, the preferred ones first. -/
  waiting : Array Thread

/-- No thread yet, for a program of `size` instructions. -/
def ThreadList.empty (size : Nat) : ThreadList :=
  ⟨Array.replicate size false, #[]⟩

/-- A thread list with one more address marked as reached. -/
def ThreadList.mark (list : ThreadList) (pc : Nat) : ThreadList :=
  { list with seen := list.seen.setIfInBounds pc true }

/-- Marking a new address leaves fewer addresses to reach. -/
theorem ThreadList.count_mark_lt {list : ThreadList} {pc : Nat}
    (h : list.seen[pc]? = some false) :
    (list.mark pc).seen.count false < list.seen.count false := by
  obtain ⟨hlt, hval⟩ := Array.getElem?_eq_some_iff.1 h
  have hpos : 0 < list.seen.count false :=
    Array.count_pos_iff.2 (hval ▸ Array.getElem_mem hlt)
  have hcount : (list.mark pc).seen.count false = list.seen.count false - 1 := by
    rw [mark, Array.setIfInBounds, dif_pos hlt, Array.count_set hlt, hval]
    rfl
  rw [hcount]
  exact Nat.sub_lt hpos Nat.one_pos

namespace Machine

/-- Follows threads at one place through every instruction that takes no character. A thread that
comes to wait joins the list; one that reaches an address reached before is dropped. The threads
are a stack: all that follows from the first is done before the second is looked at. -/
def follow (program : Array Instr) (text : Source) (position : Nat) (list : ThreadList)
    (threads : List Thread) : ThreadList :=
  match threads with
  | [] => list
  | thread :: others =>
    if _ : list.seen[thread.pc]? = some false then
      -- An address stays marked even if the thread ends here: a later thread would end here too.
      let marked := list.mark thread.pc
      match program[thread.pc]? with
      | none => follow program text position marked others
      | some (.assert assertion) =>
        if assertion.holds text position then
          follow program text position marked ({ thread with pc := thread.pc + 1 } :: others)
        else follow program text position marked others
      | some (.save slot) =>
        let noted := thread.slots.setIfInBounds slot (some position)
        follow program text position marked (⟨thread.pc + 1, noted⟩ :: others)
      | some (.jump target) =>
        follow program text position marked ({ thread with pc := target } :: others)
      | some (.split targets) =>
        follow program text position marked
          (targets.map (fun target => { thread with pc := target }) ++ others)
      -- The thread has come as far as it can without taking a character.
      | some (.char _) | some (.oneOf _) | some .accept =>
        follow program text position { marked with waiting := marked.waiting.push thread } others
    else follow program text position list others
termination_by (list.seen.count false, threads.length)
decreasing_by
  all_goals first
    | exact Prod.Lex.left _ _ (ThreadList.count_mark_lt ‹_›)
    | exact Prod.Lex.right _ (by simp)

/-- Whether a thread waits at the instruction that ends the match. -/
def accepts (program : Array Instr) (thread : Thread) : Bool :=
  program[thread.pc]? = some .accept

/-- The threads at the next place, for the waiting threads of this one and the character passed
between them. -/
def advance (program : Array Instr) (text : Source) (position : Nat) (c : Char)
    (threads : List Thread) : ThreadList :=
  threads.foldl (fun list thread =>
    if (program[thread.pc]?).any (·.takes c) then
      follow program text position list [{ thread with pc := thread.pc + 1 }]
    else list) (.empty program.size)

/-- The slots of the first thread that accepts. -/
def accepted (program : Array Instr) (threads : List Thread) : Option Slots :=
  (threads.find? (accepts program)).map (·.slots)

/-- Runs the threads that wait at `position` on to the place `bound` or the end of the text.
`best` holds the slots of the thread that accepted last. Threads that a thread accepting here
outranks are dropped. -/
def loop (program : Array Instr) (text : Source) (bound : Nat) (direction : Direction)
    (position : Nat) (threads : List Thread) (best : Option Slots) : Option Slots :=
  match threads with
  | [] => best
  | _ :: _ =>
    -- An acceptance further on outranks one before it, since every thread left is preferred to it.
    let best := accepted program threads <|> best
    if position = bound then best
    else
      match _ : text.next? direction position with
      | none => best
      | some c =>
        let next := direction.step position
        -- Threads behind the first that accepts are outranked.
        let going := threads.takeWhile (!accepts program ·)
        let list := advance program text next c going
        loop program text bound direction next list.waiting.toList best
termination_by
  match direction with
  | .forward => text.size - position
  | .backward => position
decreasing_by
  rename_i hchar
  cases direction with
  | forward =>
    have := Source.lt_size_of_charAt? hchar
    simp only [Direction.step]
    omega
  | backward =>
    cases position with
    | zero => simp [Source.next?] at hchar
    | succ n => simp [Direction.step]

/-- The two bounds of a group in increasing order. -/
def orderPair : Option Nat → Option Nat → Option Nat × Option Nat
  | some a, some b => if b < a then (some b, some a) else (some a, some b)
  | a, b => (a, b)

/-- Slots with the two bounds of each group in increasing order. -/
def orderPairs : List (Option Nat) → List (Option Nat)
  | a :: b :: rest =>
    let (low, high) := orderPair a b
    low :: high :: orderPairs rest
  | rest => rest

/-- Runs a program from `start` towards `bound`. A backward run notes the right end of a group
first, so its slots are put in order. -/
def run (program : Array Instr) (slotCount : Nat) (text : Source) (start bound : Nat)
    (direction : Direction) : Option Slots :=
  let first : Thread := ⟨0, Array.replicate slotCount none⟩
  let list := follow program text start (.empty program.size) [first]
  let best := loop program text bound direction start list.waiting.toList none
  match direction with
  | .forward => best
  | .backward => best.map fun slots => (orderPairs slots.toList).toArray

end Machine

end Emend
