import Emend.Proofs.Pattern.Follow

/-!
# All threads at once

`Machine.loop` takes the waiting threads of one place to the next, drops those that an accepting
thread outranks, and of several threads at one address keeps the first. What it answers is said here
in terms of single threads. Threads from which no acceptance can be reached change nothing
(`loop_congr`), the rest of a list counts only if its beginning comes to nothing
(`loop_append`), an answer is what some thread of the list has noted when it accepts
(`exists_path_of_loop`), and there is an answer if any thread of the list can accept at all
(`isSome_loop_iff`).

All inductions are on the text that is left in the direction of the walk (`loop_induction`).
-/

namespace Emend

namespace Machine

variable {program : Array Instr} {text : Source} {direction : Direction} {bound position : Nat}
  {c : Char} {thread : Thread} {threads others : List Thread} {best : Option Slots}

/-! ## One step -/

/-- Whether a thread waits at an instruction that takes the character. -/
def takes (program : Array Instr) (c : Char) (thread : Thread) : Bool :=
  (program[thread.pc]?).any (·.takes c)

/-- The threads that take a character, after they have. -/
def taken (program : Array Instr) (c : Char) (threads : List Thread) : List Thread :=
  (threads.filter (takes program c)).map fun thread => { thread with pc := thread.pc + 1 }

/-- The threads that wait at the next place. -/
def ahead (program : Array Instr) (text : Source) (position : Nat) (c : Char)
    (threads : List Thread) : List Thread :=
  (follow program text position (.empty program.size) (taken program c threads)).waiting.toList

/-- The threads that are not outranked by one that accepts here. -/
def going (program : Array Instr) (threads : List Thread) : List Thread :=
  threads.takeWhile (!accepts program ·)

/-- Threads take a character one by one. -/
@[simp]
theorem taken_append (threads others : List Thread) :
    taken program c (threads ++ others) = taken program c threads ++ taken program c others := by
  unfold taken
  rw [List.filter_append, List.map_append]

/-- Going on with threads one by one is following those that take the character. -/
theorem advance_eq_follow (threads : List Thread) :
    advance program text position c threads =
      follow program text position (.empty program.size) (taken program c threads) := by
  -- Following begins with no threads; for the induction it begins with any.
  suffices h : ∀ list : ThreadList, threads.foldl (fun list thread =>
      if takes program c thread then
        follow program text position list [{ thread with pc := thread.pc + 1 }]
      else list) list = follow program text position list (taken program c threads) from h _
  induction threads with
  | nil =>
    intro list
    exact follow_nil.symm
  | cons thread rest ih =>
    intro list
    rw [List.foldl_cons, ih]
    by_cases htakes : takes program c thread = true
    · rw [if_pos htakes, ← follow_append, taken, taken, List.filter_cons_of_pos htakes]
      rfl
    · rw [if_neg htakes, taken, taken, List.filter_cons_of_neg htakes]

/-- A step of the loop, which an empty list takes as well. -/
theorem loop_eq (threads : List Thread) (best : Option Slots) :
    loop program text bound direction position threads best =
      if position = bound then accepted program threads <|> best
      else match text.next? direction position with
        | none => accepted program threads <|> best
        | some c => loop program text bound direction (direction.step position)
            (ahead program text (direction.step position) c (going program threads))
            (accepted program threads <|> best) := by
  cases threads with
  | nil =>
    -- Without threads the loop ends at once, and there is nothing more to be found further on.
    have hnil : ∀ position, loop program text bound direction position [] best = best := by
      intro position
      rw [loop]
    have hahead : ∀ position c, ahead program text position c (going program []) = [] := by
      intro position c
      unfold ahead
      exact congrArg (fun list : ThreadList => list.waiting.toList) follow_nil
    rw [hnil]
    split
    · rfl
    · split
      · rfl
      · rw [hahead]
        exact (hnil _).symm
  | cons thread rest =>
    rw [loop]
    dsimp only
    split
    · rfl
    · split
      · next hnext =>
        rw [hnext]
      · next hnext =>
        rw [hnext]
        dsimp only
        rw [advance_eq_follow]
        rfl

/-- How many characters are left in the direction of the walk. -/
def left (text : Source) (position : Nat) : Direction → Nat
  | .forward => text.size - position
  | .backward => position

/-- With each character fewer are left. -/
theorem left_step_lt (h : text.next? direction position = some c) :
    left text (direction.step position) direction < left text position direction := by
  cases direction with
  | forward =>
    have hlt := Source.lt_size_of_charAt? h
    simp only [left, Direction.step]
    omega
  | backward =>
    cases position with
    | zero => cases h
    | succ n => exact Nat.lt_succ_self n

/-- Induction on the text that is left. -/
theorem loop_induction (text : Source) (direction : Direction) {motive : Nat → Prop}
    (step : ∀ position, (∀ c, text.next? direction position = some c →
      motive (direction.step position)) → motive position) (position : Nat) : motive position := by
  induction hleft : left text position direction using Nat.strongRecOn generalizing position with
  | ind count ih =>
    apply step
    intro c hnext
    have hlt := left_step_lt hnext
    rw [hleft] at hlt
    exact ih _ hlt _ rfl

/-! ## Threads that come to nothing -/

section Live

/-- A thread that accepts is live. -/
theorem live_of_accepts (h : accepts program thread = true) :
    Live program text direction bound position thread.pc :=
  .accept (of_decide_eq_true h)

/-- A thread that stays live when it takes a character was live before. -/
theorem live_of_takes (hinside : position ≠ bound)
    (hnext : text.next? direction position = some c)
    (htakes : takes program c thread = true)
    (hlive : Live program text direction bound (direction.step position) (thread.pc + 1)) :
    Live program text direction bound position thread.pc := by
  obtain ⟨instr, hinstr, hc⟩ := (Option.any_eq_true _ _).1 htakes
  exact .step (.take hinstr hc hinside hnext) hlive

/-- The threads that accept are among the live ones. -/
theorem accepted_liveThreads (threads : List Thread) :
    accepted program (liveThreads program text direction bound position threads) =
      accepted program threads := by
  unfold accepted liveThreads
  rw [List.find?_filter]
  congr 2
  funext thread
  have hlive : accepts program thread = true →
      Live program text direction bound position thread.pc :=
    live_of_accepts
  by_cases haccepts : accepts program thread = true
  · simp [haccepts, hlive haccepts]
  · simp [haccepts]

/-- Among the live threads the same ones are not outranked. -/
theorem going_liveThreads (threads : List Thread) :
    going program (liveThreads program text direction bound position threads) =
      liveThreads program text direction bound position (going program threads) := by
  induction threads with
  | nil => rfl
  | cons thread rest ih =>
    unfold going liveThreads at ih ⊢
    by_cases haccepts : accepts program thread = true
    · -- An accepting thread is live, so both lists end before it.
      have hlive : Live program text direction bound position thread.pc := live_of_accepts haccepts
      rw [List.filter_cons_of_pos (by simpa using hlive), List.takeWhile_cons_of_neg (by
        simp [haccepts]), List.takeWhile_cons_of_neg (by simp [haccepts]), List.filter_nil]
    · rw [List.takeWhile_cons_of_pos (a := thread) (l := rest) (by simp [haccepts])]
      by_cases hlive : Live program text direction bound position thread.pc
      · rw [List.filter_cons_of_pos (by simpa using hlive), List.filter_cons_of_pos (by
          simpa using hlive), List.takeWhile_cons_of_pos (by simp [haccepts]), ih]
      · rw [List.filter_cons_of_neg (by simpa using hlive), List.filter_cons_of_neg (by
          simpa using hlive), ih]

/-- Those that are live after a character come from those that were live before it. -/
theorem liveThreads_taken (hinside : position ≠ bound)
    (hnext : text.next? direction position = some c) (threads : List Thread) :
    liveThreads program text direction bound (direction.step position)
        (taken program c (liveThreads program text direction bound position threads)) =
      liveThreads program text direction bound (direction.step position)
        (taken program c threads) := by
  unfold taken liveThreads
  simp only [List.filter_map, List.filter_filter]
  congr 1
  apply List.filter_congr
  intro thread _
  have hlive : takes program c thread = true →
      Live program text direction bound (direction.step position) (thread.pc + 1) →
      Live program text direction bound position thread.pc := live_of_takes hinside hnext
  -- The condition that falls away is one that the others imply.
  rw [Bool.eq_iff_iff]
  simp only [Function.comp, Bool.and_eq_true, decide_eq_true_eq]
  constructor
  · rintro ⟨hafter, htakes, _⟩
    exact ⟨hafter, htakes⟩
  · rintro ⟨hafter, htakes⟩
    exact ⟨hafter, htakes, hlive htakes hafter⟩

/-- Following only the live threads leaves the same live threads to wait. -/
theorem sameLive_follow_liveThreads (list : ThreadList) (threads : List Thread) :
    SameLive program text direction bound position (follow program text position list threads)
      (follow program text position list
        (liveThreads program text direction bound position threads)) := by
  induction threads generalizing list with
  | nil => exact .refl _
  | cons thread rest ih =>
    -- The two lists differ after the first thread already, but not in what is live.
    rw [← List.singleton_append, follow_append, liveThreads_append, follow_append]
    refine (ih _).trans (SameLive.follow ?_ _)
    by_cases hlive : Live program text direction bound position thread.pc
    · have hone : liveThreads program text direction bound position [thread] = [thread] :=
        List.filter_cons_of_pos (by simpa using hlive)
      rw [hone]
      exact .refl _
    · have hdead : ∀ first ∈ [thread], ¬ Live program text direction bound position first.pc := by
        simpa using hlive
      rw [liveThreads_eq_nil hdead, follow_nil]
      exact sameLive_follow_dead hdead

/-- The live threads of the next place depend on the live ones of this place only. -/
theorem liveThreads_ahead (hinside : position ≠ bound)
    (hnext : text.next? direction position = some c)
    (h : liveThreads program text direction bound position threads =
      liveThreads program text direction bound position others) :
    liveThreads program text direction bound (direction.step position)
        (ahead program text (direction.step position) c (going program threads)) =
      liveThreads program text direction bound (direction.step position)
        (ahead program text (direction.step position) c (going program others)) := by
  -- Both sides can be written in terms of the live threads of this place.
  have hahead : ∀ threads, liveThreads program text direction bound (direction.step position)
      (ahead program text (direction.step position) c (going program threads)) =
      liveThreads program text direction bound (direction.step position)
        (follow program text (direction.step position) (.empty program.size)
          (liveThreads program text direction bound (direction.step position)
            (taken program c (going program
              (liveThreads program text direction bound position threads))))).waiting.toList := by
    intro threads
    rw [going_liveThreads, liveThreads_taken hinside hnext]
    exact (sameLive_follow_liveThreads _ _).waiting
  rw [hahead, hahead, h]

/-- **Only live threads count.** Two lists with the same live threads give the same answer. -/
theorem loop_congr
    (h : liveThreads program text direction bound position threads =
      liveThreads program text direction bound position others) (best : Option Slots) :
    loop program text bound direction position threads best =
      loop program text bound direction position others best := by
  induction position using loop_induction text direction generalizing threads others best with
  | step position ih =>
    have haccepted : accepted program threads = accepted program others := by
      rw [← accepted_liveThreads threads, h, accepted_liveThreads]
    rw [loop_eq threads, loop_eq others, haccepted]
    split
    · rfl
    · next hinside =>
      split
      · rfl
      · next c hnext => exact ih c hnext (liveThreads_ahead hinside hnext h) _

/-- A list without live threads changes nothing. -/
theorem loop_of_dead
    (h : ∀ thread ∈ threads, ¬ Live program text direction bound position thread.pc)
    (best : Option Slots) : loop program text bound direction position threads best = best := by
  have hnil : liveThreads program text direction bound position [] = [] := rfl
  rw [loop_congr ((liveThreads_eq_nil h).trans hnil.symm) best, loop]

end Live

/-! ## Threads that can accept -/

/-- Every thread waits. -/
def Waiting (program : Array Instr) (threads : List Thread) : Prop :=
  ∀ thread ∈ threads, (program[thread.pc]?).any Instr.isStop = true

/-- The threads that following finds wait. -/
theorem waiting_follow_empty (threads : List Thread) :
    Waiting program
      (follow program text position (.empty program.size) threads).waiting.toList := by
  intro thread hmem
  obtain ⟨added, hwaiting, hadded⟩ :=
    exists_waiting_follow .forward 0 (.empty program.size) threads
  rw [hwaiting] at hmem
  exact (hadded thread hmem).1

/-- What is followed after other threads comes after them. -/
theorem exists_ahead_append (threads others : List Thread) :
    ∃ added, ahead program text position c (threads ++ others) =
      ahead program text position c threads ++ added := by
  unfold ahead
  rw [taken_append, follow_append]
  obtain ⟨added, hwaiting, _⟩ := exists_waiting_follow .forward 0
    (follow program text position (.empty program.size) (taken program c threads))
    (taken program c others)
  exact ⟨added, hwaiting⟩

/-- If no thread accepts yet, a live one takes the next character and leaves a live one. -/
theorem exists_live_ahead (hwaiting : Waiting program threads)
    (hnone : ∀ thread ∈ threads, accepts program thread = false) (hmem : thread ∈ threads)
    (hlive : Live program text direction bound position thread.pc) :
    position ≠ bound ∧ ∃ c, text.next? direction position = some c ∧
      ∃ next ∈ ahead program text (direction.step position) c threads,
        Live program text direction bound (direction.step position) next.pc := by
  obtain ⟨instr, hinstr, hstop⟩ := (Option.any_eq_true _ _).1 (hwaiting thread hmem)
  rcases hlive.cases_of_stop hinstr hstop with rfl | ⟨hinside, c, hnext, htakes, hafter⟩
  · -- The thread would accept.
    have haccepts : accepts program thread = true := decide_eq_true hinstr
    rw [hnone thread hmem] at haccepts
    cases haccepts
  · have htaken : { thread with pc := thread.pc + 1 } ∈ taken program c threads := by
      apply List.mem_map_of_mem
      exact List.mem_filter.2 ⟨hmem, (Option.any_eq_true _ _).2 ⟨instr, hinstr, htakes⟩⟩
    exact ⟨hinside, c, hnext, exists_live_follow htaken hafter⟩

/-- Where no thread accepts there is nothing to accept. -/
theorem accepted_eq_none (h : ∀ thread ∈ threads, accepts program thread = false) :
    accepted program threads = none := by
  unfold accepted
  rw [List.find?_eq_none.2 (by simpa using h)]
  rfl

/-- Threads that do not accept outrank nothing. -/
theorem going_append (h : ∀ thread ∈ threads, accepts program thread = false)
    (others : List Thread) :
    going program (threads ++ others) = threads ++ going program others := by
  unfold going
  exact List.takeWhile_append_of_pos (by simpa using h)

/-- Without an acceptance all threads go on. -/
theorem going_eq_self (h : ∀ thread ∈ threads, accepts program thread = false) :
    going program threads = threads := by
  have happend := going_append h []
  rw [List.append_nil] at happend
  rw [happend]
  exact List.append_nil _

/-- The first accepting thread of a list, if not all others wait for a character. -/
theorem exists_accepting (h : ¬ ∀ thread ∈ threads, accepts program thread = false) :
    ∃ before thread rest, threads = before ++ thread :: rest ∧ accepts program thread = true ∧
      ∀ first ∈ before, accepts program first = false := by
  cases hfind : threads.find? (accepts program) with
  | none => exact absurd (by simpa using hfind) h
  | some thread =>
    obtain ⟨haccepts, before, rest, rfl, hbefore⟩ := List.find?_eq_some_iff_append.1 hfind
    exact ⟨before, thread, rest, rfl, haccepts, by simpa using hbefore⟩

/-- The first thread that accepts is the one that counts. -/
theorem accepted_of_accepts (haccepts : accepts program thread = true)
    (hbefore : ∀ first ∈ threads, accepts program first = false) (others : List Thread) :
    accepted program (threads ++ thread :: others) = some thread.slots := by
  have hnone : threads.find? (accepts program) = none :=
    List.find?_eq_none.2 (by simpa using hbefore)
  unfold accepted
  rw [List.find?_append, hnone, Option.none_or, List.find?_cons_of_pos haccepts]
  rfl

/-- A thread that accepts outranks all behind it. -/
theorem going_of_accepts (haccepts : accepts program thread = true)
    (hbefore : ∀ first ∈ threads, accepts program first = false) (others : List Thread) :
    going program (threads ++ thread :: others) = threads := by
  rw [going_append hbefore, going, List.takeWhile_cons_of_neg (by simp [haccepts]),
    List.append_nil]

/-- What has accepted before is never lost. -/
theorem isSome_loop_some (threads : List Thread) (slots : Slots) :
    (loop program text bound direction position threads (some slots)).isSome = true := by
  induction position using loop_induction text direction generalizing threads slots with
  | step position ih =>
    obtain ⟨best, hbest⟩ : ∃ best, (accepted program threads <|> some slots) = some best := by
      cases accepted program threads with
      | none => exact ⟨slots, rfl⟩
      | some best => exact ⟨best, rfl⟩
    rw [loop_eq, hbest]
    split
    · rfl
    · split
      · rfl
      · next c hnext => exact ih c hnext _ _

/-- **A live thread decides.** If a thread of a list can come to accept, there is an answer, and
what comes after the list and what accepted before it do not matter. -/
theorem loop_append_of_live (hwaiting : Waiting program threads) (hmem : thread ∈ threads)
    (hlive : Live program text direction bound position thread.pc) (others : List Thread)
    (best : Option Slots) :
    ∃ slots, loop program text bound direction position (threads ++ others) best = some slots ∧
      loop program text bound direction position threads none = some slots := by
  induction position using loop_induction text direction
    generalizing threads thread others best with
  | step position ih =>
    rw [loop_eq (threads ++ others), loop_eq threads]
    by_cases hnone : ∀ thread ∈ threads, accepts program thread = false
    · -- None accepts here, so a live one goes on, ahead of all that come after the list.
      obtain ⟨hinside, c, hnext, next, hahead, hliveNext⟩ :=
        exists_live_ahead hwaiting hnone hmem hlive
      obtain ⟨added, hadded⟩ : ∃ added,
          ahead program text (direction.step position) c (threads ++ going program others) =
            ahead program text (direction.step position) c threads ++ added :=
        exists_ahead_append threads (going program others)
      rw [if_neg hinside, if_neg hinside, hnext, going_append hnone, going_eq_self hnone,
        accepted_eq_none hnone]
      dsimp only
      rw [hadded]
      exact ih c hnext (waiting_follow_empty _) hahead hliveNext added _
    · -- The first that accepts sets the answer and cuts off everything behind it.
      obtain ⟨before, first, rest, rfl, haccepts, hbefore⟩ := exists_accepting hnone
      rw [List.append_assoc, List.cons_append, going_of_accepts haccepts hbefore,
        going_of_accepts haccepts hbefore, accepted_of_accepts haccepts hbefore,
        accepted_of_accepts haccepts hbefore]
      have hsome : ∀ best, (some first.slots <|> best) = some first.slots := fun best => rfl
      rw [hsome, hsome]
      split
      · exact ⟨_, rfl, rfl⟩
      · split
        · exact ⟨_, rfl, rfl⟩
        · obtain ⟨slots, hslots⟩ := Option.isSome_iff_exists.1 (isSome_loop_some _ first.slots)
          exact ⟨slots, hslots, hslots⟩

/-- **The rest of a list counts only if its beginning comes to nothing.** -/
theorem loop_append (hwaiting : Waiting program threads) (others : List Thread)
    (best : Option Slots) :
    loop program text bound direction position (threads ++ others) best =
      (loop program text bound direction position threads none).or
        (loop program text bound direction position others best) := by
  by_cases hlive : ∃ thread ∈ threads, Live program text direction bound position thread.pc
  · obtain ⟨thread, hmem, hlive⟩ := hlive
    obtain ⟨slots, happend, hslots⟩ := loop_append_of_live hwaiting hmem hlive others best
    rw [happend, hslots, Option.some_or]
  · have hdead : ∀ thread ∈ threads,
        ¬ Live program text direction bound position thread.pc :=
      fun thread hmem h => hlive ⟨thread, hmem, h⟩
    have hsame : liveThreads program text direction bound position (threads ++ others) =
        liveThreads program text direction bound position others := by
      rw [liveThreads_append, liveThreads_eq_nil hdead, List.nil_append]
    rw [loop_of_dead hdead, Option.none_or, loop_congr hsame]

/-- There is an answer if a thread of the list can come to accept, and only then. -/
theorem isSome_loop_iff (hwaiting : Waiting program threads) :
    (loop program text bound direction position threads none).isSome = true ↔
      ∃ thread ∈ threads, Live program text direction bound position thread.pc := by
  constructor
  · intro hsome
    apply Classical.byContradiction
    intro hlive
    rw [loop_of_dead fun thread hmem h => hlive ⟨thread, hmem, h⟩] at hsome
    cases hsome
  · rintro ⟨thread, hmem, hlive⟩
    obtain ⟨slots, _, hslots⟩ := loop_append_of_live hwaiting hmem hlive [] none
    rw [hslots]
    rfl

/-- An answer is what some thread of the list has noted when it accepts. -/
theorem exists_path_of_loop {slots : Slots}
    (h : loop program text bound direction position threads best = some slots) :
    best = some slots ∨ ∃ thread ∈ threads, ∃ count stop last,
      Path program text direction bound count position thread stop last ∧
        program[last.pc]? = some .accept ∧ last.slots = slots := by
  induction position using loop_induction text direction generalizing threads best with
  | step position ih =>
    -- An answer that was found here comes from before or from a thread that accepts.
    have hhere : (accepted program threads <|> best) = some slots →
        best = some slots ∨ ∃ thread ∈ threads, ∃ count stop last,
          Path program text direction bound count position thread stop last ∧
            program[last.pc]? = some .accept ∧ last.slots = slots := by
      intro hbest
      unfold accepted at hbest
      cases hfind : threads.find? (accepts program) with
      | none =>
        rw [hfind] at hbest
        exact .inl hbest
      | some thread =>
        rw [hfind] at hbest
        right
        have haccepts := List.find?_some hfind
        exact ⟨thread, List.mem_of_find?_eq_some hfind, 0, position, thread, .refl,
          of_decide_eq_true haccepts, Option.some.inj hbest⟩
    rw [loop_eq] at h
    split at h
    · exact hhere h
    · next hinside =>
      split at h
      · exact hhere h
      · next c hnext =>
        rcases ih c hnext h with hbest | ⟨waiter, hmem, count, stop, last, hpath, haccept⟩
        · exact hhere hbest
        · right
          -- The thread that waits at the next place comes from one that took the character.
          obtain ⟨added, hwaiting, hadded⟩ := exists_waiting_follow direction bound
            (.empty program.size) (taken program c (going program threads))
          rw [ahead, hwaiting] at hmem
          obtain ⟨_, after, hafter, more, hmore⟩ := hadded waiter hmem
          obtain ⟨thread, htakes, rfl⟩ := List.mem_map.1 hafter
          obtain ⟨hgoing, htakes⟩ := List.mem_filter.1 htakes
          obtain ⟨instr, hinstr, hc⟩ := (Option.any_eq_true _ _).1 htakes
          exact ⟨thread, (List.takeWhile_sublist _).subset hgoing, _, stop, last,
            .step (.take hinstr hc hinside hnext) (hmore.trans hpath), haccept⟩

/-! ## A run from one thread -/

/-- What the run of a thread comes to. -/
def answer (program : Array Instr) (text : Source) (bound : Nat) (direction : Direction)
    (position : Nat) (thread : Thread) : Option Slots :=
  loop program text bound direction position
    (follow program text position (.empty program.size) [thread]).waiting.toList none

/-- **A run finds an acceptance if there is one.** -/
theorem isSome_answer_iff :
    (answer program text bound direction position thread).isSome = true ↔
      Live program text direction bound position thread.pc := by
  unfold answer
  rw [isSome_loop_iff (waiting_follow_empty _)]
  constructor
  · rintro ⟨waiter, hmem, hlive⟩
    -- A path leads from the thread to every one that waits.
    obtain ⟨added, hwaiting, hadded⟩ :=
      exists_waiting_follow direction bound (.empty program.size) [thread]
    rw [hwaiting] at hmem
    obtain ⟨_, first, hfirst, count, hpath⟩ := hadded waiter hmem
    rw [List.mem_singleton.1 hfirst] at hpath
    obtain ⟨more, stop, last, hmore, haccept⟩ := hlive.exists_path waiter.slots
    exact (hpath.trans hmore).live haccept
  · exact fun hlive => exists_live_follow List.mem_cons_self hlive

/-- **What a run answers has been noted on the way to an acceptance.** -/
theorem exists_path_of_answer {slots : Slots}
    (h : answer program text bound direction position thread = some slots) :
    ∃ count stop last, Path program text direction bound count position thread stop last ∧
      program[last.pc]? = some .accept ∧ last.slots = slots := by
  rcases exists_path_of_loop h with hnone | ⟨waiter, hmem, more, stop, last, hmore, haccept⟩
  · cases hnone
  · obtain ⟨added, hwaiting, hadded⟩ :=
      exists_waiting_follow direction bound (.empty program.size) [thread]
    rw [hwaiting] at hmem
    obtain ⟨_, first, hfirst, count, hpath⟩ := hadded waiter hmem
    rw [List.mem_singleton.1 hfirst] at hpath
    exact ⟨_, stop, last, hpath.trans hmore, haccept⟩

end Machine

end Emend
