import Emend.Pattern.Machine

/-!
# The steps of a single thread

A program is run by following all threads at once; what a single thread can do is said here,
without lists, marks and preferences. `Step` is one step of a thread with the places that it has
noted, and `Path` counts the steps of a way from one state to another. Whether a thread can still
reach an acceptance depends on its place and its address only, not on what it has noted: `Live`.

Both are stated for either direction and for any program.
-/

namespace Emend

namespace Direction

/-- Where a character is passed, the next place is another one. -/
theorem step_ne {direction : Direction} {text : Source} {position : Nat} {c : Char}
    (h : text.next? direction position = some c) : direction.step position ≠ position := by
  cases direction with
  | forward => exact Nat.succ_ne_self _
  | backward =>
    cases position with
    | zero => cases h
    | succ n => exact Nat.ne_of_lt (Nat.lt_succ_self n)

/-- Before the bound of a walk there is a character to pass. -/
theorem Ahead.exists_next {direction : Direction} {position bound : Nat}
    (h : direction.Ahead position bound) (hne : position ≠ bound) {text : Source}
    (hposition : position ≤ text.size) (hbound : bound ≤ text.size) :
    ∃ c, text.next? direction position = some c := by
  cases direction with
  | forward =>
    have hlt : position < text.size := Nat.lt_of_lt_of_le (Nat.lt_of_le_of_ne h hne) hbound
    exact ⟨_, if_pos hlt⟩
  | backward =>
    cases position with
    | zero => exact absurd (Nat.le_zero.1 h).symm hne
    | succ n => exact ⟨_, if_pos hposition⟩

/-- A step does not leave the text. -/
theorem step_le_size {direction : Direction} {text : Source} {position : Nat} {c : Char}
    (h : text.next? direction position = some c) (hposition : position ≤ text.size) :
    direction.step position ≤ text.size := by
  cases direction with
  | forward => exact Source.lt_size_of_charAt? h
  | backward => exact Nat.le_trans (Nat.sub_le _ _) hposition

end Direction

namespace Instr

/-- The instruction takes a character or ends the match: a thread waits there. -/
def isStop : Instr → Bool
  | .char _ | .oneOf _ | .accept => true
  | .assert _ | .save _ | .jump _ | .split _ => false

end Instr

namespace Machine

variable {program : Array Instr} {text : Source} {direction : Direction} {bound : Nat}

/-- The threads that one thread goes on as at the same place: none if it waits or its condition does
not hold, and several after a split. -/
def onward (program : Array Instr) (text : Source) (position : Nat) (thread : Thread) :
    List Thread :=
  match program[thread.pc]? with
  | some (.assert assertion) =>
    if assertion.holds text position then [{ thread with pc := thread.pc + 1 }] else []
  | some (.save slot) => [⟨thread.pc + 1, thread.slots.setIfInBounds slot (some position)⟩]
  | some (.jump target) => [{ thread with pc := target }]
  | some (.split targets) => targets.map fun target => { thread with pc := target }
  | some (.char _) | some (.oneOf _) | some .accept | none => []

/-- One step of a thread, from one place to the same or the next one. -/
inductive Step (program : Array Instr) (text : Source) (direction : Direction) (bound : Nat) :
    Nat → Thread → Nat → Thread → Prop where
  /-- A step that takes no character. -/
  | stay {position : Nat} {thread next : Thread}
    (goes : next ∈ onward program text position thread) :
    Step program text direction bound position thread position next
  /-- A step that takes a character, which a thread at the bound cannot do. -/
  | take {position : Nat} {thread : Thread} {instr : Instr} {c : Char}
    (here : program[thread.pc]? = some instr) (takes : instr.takes c = true)
    (inside : position ≠ bound) (char : text.next? direction position = some c) :
    Step program text direction bound position thread (direction.step position)
      { thread with pc := thread.pc + 1 }

/-- A way of so many steps from a thread at one place to a thread at another. -/
inductive Path (program : Array Instr) (text : Source) (direction : Direction) (bound : Nat) :
    Nat → Nat → Thread → Nat → Thread → Prop where
  /-- No steps. -/
  | refl {position : Nat} {thread : Thread} :
    Path program text direction bound 0 position thread position thread
  /-- One more step at the beginning. -/
  | step {count position : Nat} {thread : Thread} {middle : Nat} {next : Thread} {stop : Nat}
    {last : Thread} (first : Step program text direction bound position thread middle next)
    (rest : Path program text direction bound count middle next stop last) :
    Path program text direction bound (count + 1) position thread stop last

/-- From this place and address an acceptance can be reached. -/
inductive Live (program : Array Instr) (text : Source) (direction : Direction) (bound : Nat) :
    Nat → Nat → Prop where
  /-- Acceptance itself. -/
  | accept {position pc : Nat} (here : program[pc]? = some .accept) :
    Live program text direction bound position pc
  /-- After a step, with whatever the thread has noted. -/
  | step {position : Nat} {thread : Thread} {middle : Nat} {next : Thread}
    (first : Step program text direction bound position thread middle next)
    (rest : Live program text direction bound middle next.pc) :
    Live program text direction bound position thread.pc

/-- A path goes on from where another one ends. -/
theorem Path.trans {count more position : Nat} {thread : Thread} {middle : Nat} {next : Thread}
    {stop : Nat} {last : Thread}
    (h : Path program text direction bound count position thread middle next)
    (h' : Path program text direction bound more middle next stop last) :
    Path program text direction bound (count + more) position thread stop last := by
  induction h with
  | refl =>
    rw [Nat.zero_add]
    exact h'
  | step first _ ih =>
    rw [Nat.add_right_comm]
    exact .step first (ih h')

/-- A way of one step. -/
theorem Path.single {position : Nat} {thread : Thread} {stop : Nat} {last : Thread}
    (h : Step program text direction bound position thread stop last) :
    Path program text direction bound 1 position thread stop last :=
  .step h .refl

/-- What a thread has noted does not matter for where it can go. -/
theorem Step.withSlots {position : Nat} {thread : Thread} {middle : Nat} {next : Thread}
    (h : Step program text direction bound position thread middle next) (slots : Slots) :
    ∃ slots', Step program text direction bound position ⟨thread.pc, slots⟩ middle
      ⟨next.pc, slots'⟩ := by
  cases h with
  | take here takes inside char => exact ⟨slots, .take here takes inside char⟩
  | stay goes =>
    -- By the instruction; each goes on at addresses of its own.
    unfold onward at goes
    have hstay : ∀ other : Thread, other ∈ onward program text position ⟨thread.pc, slots⟩ →
        other.pc = next.pc → ∃ slots', Step program text direction bound position
          ⟨thread.pc, slots⟩ position ⟨next.pc, slots'⟩ := by
      rintro ⟨pc, slots'⟩ hmem rfl
      exact ⟨slots', .stay hmem⟩
    unfold onward at hstay
    split at goes
    · next assertion hinstr =>
      split at goes
      · next holds =>
        cases List.mem_singleton.1 goes
        exact hstay ⟨thread.pc + 1, slots⟩ (by simp [hinstr, holds]) rfl
      · cases goes
    · next slot hinstr =>
      cases List.mem_singleton.1 goes
      exact hstay ⟨thread.pc + 1, slots.setIfInBounds slot (some position)⟩ (by simp [hinstr]) rfl
    · next target hinstr =>
      cases List.mem_singleton.1 goes
      exact hstay ⟨target, slots⟩ (by simp [hinstr]) rfl
    · next targets hinstr =>
      obtain ⟨target, hmem, rfl⟩ := List.mem_map.1 goes
      exact hstay ⟨target, slots⟩ (by simp [hinstr, hmem]) rfl
    all_goals cases goes

/-- A live thread has a way to an acceptance. -/
theorem Live.exists_path {position pc : Nat}
    (h : Live program text direction bound position pc) (slots : Slots) :
    ∃ count stop last, Path program text direction bound count position ⟨pc, slots⟩ stop last ∧
      program[last.pc]? = some .accept := by
  induction h generalizing slots with
  | accept here => exact ⟨0, _, _, .refl, here⟩
  | step first rest ih =>
    obtain ⟨slots', hstep⟩ := first.withSlots slots
    obtain ⟨count, stop, last, hpath, haccept⟩ := ih slots'
    exact ⟨count + 1, stop, last, .step hstep hpath, haccept⟩

/-- A thread with a way to an acceptance is live. -/
theorem Path.live {count position : Nat} {thread : Thread} {stop : Nat} {last : Thread}
    (h : Path program text direction bound count position thread stop last)
    (haccept : program[last.pc]? = some .accept) :
    Live program text direction bound position thread.pc := by
  induction h with
  | refl => exact .accept haccept
  | step first _ ih => exact .step first (ih haccept)

/-- A thread that waits goes nowhere at its place. -/
theorem onward_of_stop {position : Nat} {thread : Thread} {instr : Instr}
    (hinstr : program[thread.pc]? = some instr) (hstop : instr.isStop = true) :
    onward program text position thread = [] := by
  unfold onward
  rw [hinstr]
  cases instr <;> first | rfl | cases hstop

/-- A live thread that waits either accepts or takes the next character and stays live. -/
theorem Live.cases_of_stop {position pc : Nat} {instr : Instr}
    (h : Live program text direction bound position pc) (hinstr : program[pc]? = some instr)
    (hstop : instr.isStop = true) :
    instr = .accept ∨ position ≠ bound ∧ ∃ c, text.next? direction position = some c ∧
      instr.takes c = true ∧
      Live program text direction bound (direction.step position) (pc + 1) := by
  cases h with
  | accept here =>
    rw [hinstr] at here
    exact .inl (Option.some.inj here)
  | step first rest =>
    cases first with
    | stay goes =>
      rw [onward_of_stop hinstr hstop] at goes
      cases goes
    | take here takes inside char =>
      rw [hinstr] at here
      cases Option.some.inj here
      exact .inr ⟨inside, _, char, takes, rest⟩

/-- A thread that takes a character waits. -/
theorem isStop_of_takes {instr : Instr} {c : Char} (h : instr.takes c = true) :
    instr.isStop = true := by
  cases instr <;> first | rfl | cases h

/-- A live address lies in the program. -/
theorem Live.lt_size {position pc : Nat} (h : Live program text direction bound position pc) :
    pc < program.size := by
  apply Classical.byContradiction
  intro hlt
  have hnone : program[pc]? = none := Array.getElem?_eq_none (Nat.le_of_not_lt hlt)
  cases h with
  | accept here =>
    rw [hnone] at here
    cases here
  | step first rest =>
    cases first with
    | stay goes =>
      unfold onward at goes
      rw [hnone] at goes
      cases goes
    | take here takes inside char =>
      rw [hnone] at here
      cases here

end Machine

end Emend
