import Emend.Pattern.Checked
import Emend.Proofs.Pattern.Closed
import Emend.Proofs.Pattern.Fuzzy
import Emend.Proofs.Pattern.Lockstep

/-!
# Runs never fail

A checked run of a closed program does not fail, and answers what `Machine.run` answers. Following
threads keeps every address in the program and every table as large as it was, and puts a thread
into the list only when it marks its address (`follow_eq`); going on to the next place starts from
an empty list (`advance_eq`); and each step of the loop leaves one character less, so that there is
one step for each character, one for the place behind the last, and one that finds no thread left
(`loop_eq`).
-/

namespace Emend.Machine

variable {program : Array Instr} {slotCount : Nat} {text : Source} {direction : Direction}
  {bound position : Nat} {list : ThreadList} {thread next : Thread} {threads others : List Thread}

/-- The address of the thread lies in the program, and it has all slots. -/
structure Fits (program : Array Instr) (slotCount : Nat) (thread : Thread) : Prop where
  /-- There is an instruction at the address. -/
  inside : thread.pc < program.size
  /-- The thread has all slots. -/
  slots : thread.slots.size = slotCount

/-- The list has a mark for each address of the program, and its threads wait at different marked
addresses. -/
structure FitsList (program : Array Instr) (slotCount : Nat) (list : ThreadList) : Prop where
  /-- There is a mark for each address. -/
  marks : list.seen.size = program.size
  /-- The threads fit. -/
  waiting : ∀ thread ∈ list.waiting.toList, Fits program slotCount thread
  /-- Their addresses are marked. -/
  seen : ∀ thread ∈ list.waiting.toList, list.seen[thread.pc]? = some true
  /-- No two of them wait at one address. -/
  nodup : (list.waiting.toList.map (·.pc)).Nodup

/-- There is an instruction where a thread stands that fits. Its successors lie in the program, and
the thread has the slots that it notes. -/
theorem Fits.exists_instr (hclosed : ClosedProgram program.toList slotCount)
    (h : Fits program slotCount thread) :
    ∃ instr, program[thread.pc]? = some instr ∧
      (∀ next ∈ instr.successors thread.pc, next < program.size) ∧
      instr.NotesBelow thread.slots.size := by
  obtain ⟨instr, hinstr⟩ : ∃ instr, program[thread.pc]? = some instr :=
    ⟨_, Array.getElem?_eq_getElem h.inside⟩
  have hlist : program.toList[thread.pc]? = some instr := by
    rw [Array.getElem?_toList, hinstr]
  have hinside := hclosed.inside thread.pc instr hlist
  have hslots := hclosed.slots instr (List.mem_of_getElem? hlist)
  rw [← h.slots] at hslots
  exact ⟨instr, hinstr, hinside, hslots⟩

/-- A list without threads fits. -/
theorem fitsList_empty (program : Array Instr) (slotCount : Nat) :
    FitsList program slotCount (.empty program.size) :=
  ⟨Array.size_replicate, List.forall_mem_nil _, List.forall_mem_nil _, List.nodup_nil⟩

/-- A thread that fits goes on as threads that fit. -/
theorem Fits.onward (hclosed : ClosedProgram program.toList slotCount)
    (h : Fits program slotCount thread) (hnext : next ∈ onward program text position thread) :
    Fits program slotCount next := by
  obtain ⟨instr, hinstr, hinside, _⟩ := h.exists_instr hclosed
  unfold Machine.onward at hnext
  rw [hinstr] at hnext
  cases instr with
  | assert assertion =>
    dsimp only at hnext
    split at hnext
    · cases List.mem_singleton.1 hnext
      exact ⟨hinside _ List.mem_cons_self, h.slots⟩
    · cases hnext
  | save slot =>
    cases List.mem_singleton.1 hnext
    exact ⟨hinside _ List.mem_cons_self, Array.size_setIfInBounds.trans h.slots⟩
  | jump target =>
    cases List.mem_singleton.1 hnext
    exact ⟨hinside _ List.mem_cons_self, h.slots⟩
  | split targets =>
    obtain ⟨target, hmem, rfl⟩ := List.mem_map.1 hnext
    exact ⟨hinside _ hmem, h.slots⟩
  | char c => cases hnext
  | oneOf set => cases hnext
  | accept => cases hnext

/-- A thread that takes a character goes on in the program. -/
theorem Fits.taken (hclosed : ClosedProgram program.toList slotCount)
    (h : Fits program slotCount thread) {instr : Instr} {c : Char}
    (hinstr : program[thread.pc]? = some instr) (htakes : instr.takes c = true) :
    Fits program slotCount { thread with pc := thread.pc + 1 } := by
  obtain ⟨other, hother, hinside, _⟩ := h.exists_instr hclosed
  rw [hinstr] at hother
  cases hother
  refine ⟨hinside _ ?_, h.slots⟩
  cases instr <;> first | exact List.mem_cons_self | cases htakes

/-- The list still fits after a thread that fits comes to a new address. -/
theorem FitsList.visit (h : FitsList program slotCount list)
    (hthread : Fits program slotCount thread) (hseen : list.seen[thread.pc]? = some false) :
    FitsList program slotCount (visit program list thread) := by
  have hmarks : (Machine.visit program list thread).seen.size = program.size := by
    rw [seen_visit, Array.size_setIfInBounds, h.marks]
  -- What waited before does not wait at the new address.
  have hnew : ∀ other ∈ list.waiting.toList, other.pc ≠ thread.pc := by
    intro other hmem heq
    have hother := h.seen other hmem
    rw [heq, hseen] at hother
    cases hother
  have hstays : ∀ other ∈ list.waiting.toList,
      (Machine.visit program list thread).seen[other.pc]? = some true := by
    intro other hmem
    rw [getElem?_seen_visit hseen, if_neg (hnew other hmem), h.seen other hmem]
  have hhere : (Machine.visit program list thread).seen[thread.pc]? = some true := by
    rw [getElem?_seen_visit hseen, if_pos rfl]
  have hwaiting : (Machine.visit program list thread).waiting.toList = _ := waiting_visit
  by_cases hstop : (program[thread.pc]?).any Instr.isStop = true
  · rw [if_pos hstop] at hwaiting
    refine ⟨hmarks, ?_, ?_, ?_⟩ <;> rw [hwaiting]
    · exact List.forall_mem_append.2 ⟨h.waiting, List.forall_mem_singleton.2 hthread⟩
    · exact List.forall_mem_append.2 ⟨hstays, List.forall_mem_singleton.2 hhere⟩
    · rw [List.map_append, List.nodup_append]
      refine ⟨h.nodup, List.pairwise_singleton _ _, fun pc hpc other hother => ?_⟩
      obtain ⟨waiting, hmem, rfl⟩ := List.mem_map.1 hpc
      cases List.mem_singleton.1 hother
      exact hnew waiting hmem
  · rw [if_neg hstop, List.append_nil] at hwaiting
    refine ⟨hmarks, ?_, ?_, ?_⟩ <;> rw [hwaiting]
    · exact h.waiting
    · exact hstays
    · exact h.nodup

namespace Checked

/-! ## One place -/

/-- Without threads there is nothing to check. -/
@[simp]
theorem follow_nil : follow program text position list [] = .ok list := by
  rw [follow]

/-- A thread at a marked address is dropped. -/
theorem follow_skip (h : list.seen[thread.pc]? = some true) :
    follow program text position list (thread :: others) =
      follow program text position list others := by
  rw [follow]
  split
  · next hnone =>
    rw [h] at hnone
    cases hnone
  · rfl
  · next hfalse =>
    rw [h] at hfalse
    cases hfalse

/-- A thread at a new address of the program goes on as in a run that is not checked. -/
theorem follow_visit {instr : Instr} (h : list.seen[thread.pc]? = some false)
    (hinstr : program[thread.pc]? = some instr) (hslots : instr.NotesBelow thread.slots.size) :
    follow program text position list (thread :: others) =
      follow program text position (visit program list thread)
        (onward program text position thread ++ others) := by
  rw [follow]
  split
  · next hnone =>
    rw [h] at hnone
    cases hnone
  · next htrue =>
    rw [h] at htrue
    cases htrue
  · unfold visit onward
    rw [hinstr]
    cases instr with
    | assert assertion =>
      dsimp only
      split <;> rfl
    | save slot => exact if_pos hslots
    | char c => rfl
    | oneOf set => rfl
    | accept => rfl
    | jump target => rfl
    | split targets => rfl

/-- **Following threads does not fail**, and keeps the list in order. -/
theorem follow_eq (text : Source) (position : Nat)
    (hclosed : ClosedProgram program.toList slotCount)
    (hlist : FitsList program slotCount list)
    (hthreads : ∀ thread ∈ threads, Fits program slotCount thread) :
    follow program text position list threads =
        .ok (Machine.follow program text position list threads) ∧
      FitsList program slotCount (Machine.follow program text position list threads) := by
  induction list, threads using follow_induction program text position with
  | nil list =>
    rw [follow_nil, Machine.follow_nil]
    exact ⟨rfl, hlist⟩
  | skip list thread rest hseen ih =>
    obtain ⟨hthread, hrest⟩ := List.forall_mem_cons.1 hthreads
    have hmarked : list.seen[thread.pc]? = some true :=
      seen_of_ne_false hseen (hlist.marks ▸ hthread.inside)
    rw [follow_skip hmarked, Machine.follow_skip hseen]
    exact ih hlist hrest
  | visit list thread rest hseen ih =>
    obtain ⟨hthread, hrest⟩ := List.forall_mem_cons.1 hthreads
    obtain ⟨instr, hinstr, _, hslots⟩ := hthread.exists_instr hclosed
    rw [follow_visit hseen hinstr hslots, Machine.follow_visit hseen]
    exact ih (hlist.visit hthread hseen)
      (List.forall_mem_append.2 ⟨fun next hnext => hthread.onward hclosed hnext, hrest⟩)

/-! ## All places -/

/-- The threads that take a character, after they have: none without a character. -/
def moved (program : Array Instr) (char : Option Char) (threads : List Thread) : List Thread :=
  match char with
  | none => []
  | some c => taken program c (going program threads)

/-- A thread that does not accept goes on if it takes the character, and leaves the rest as it
is. -/
theorem moved_cons {char : Option Char} {instr : Instr} (hinstr : program[thread.pc]? = some instr)
    (hne : instr ≠ .accept) :
    moved program char (thread :: others) =
      (if char.any instr.takes then [{ thread with pc := thread.pc + 1 }] else []) ++
        moved program char others := by
  have haccepts : accepts program thread = false := by
    unfold accepts
    rw [hinstr]
    exact decide_eq_false fun heq => hne (Option.some.inj heq)
  cases char with
  | none => rfl
  | some c =>
    have htakes : takes program c thread = instr.takes c := by
      unfold takes
      rw [hinstr, Option.any_some]
    unfold moved going
    rw [List.takeWhile_cons_of_pos (by rw [haccepts]; rfl), Option.any_some]
    dsimp only
    unfold taken
    rw [List.filter_cons, htakes]
    split <;> rfl

/-- **Going on to the next place does not fail.** -/
theorem advance_eq (text : Source) (position : Nat)
    (hclosed : ClosedProgram program.toList slotCount) (char : Option Char)
    (hlist : FitsList program slotCount list)
    (hthreads : ∀ thread ∈ threads, Fits program slotCount thread) :
    advance program text position char list threads =
        .ok (accepted program threads,
          Machine.follow program text position list (moved program char threads)) ∧
      FitsList program slotCount
        (Machine.follow program text position list (moved program char threads)) := by
  -- Thread by thread; the list fits after each of them.
  induction threads generalizing list with
  | nil =>
    have hmoved : moved program char [] = [] := by cases char <;> rfl
    rw [hmoved, Machine.follow_nil]
    exact ⟨rfl, hlist⟩
  | cons thread rest ih =>
    obtain ⟨hthread, hrest⟩ := List.forall_mem_cons.1 hthreads
    obtain ⟨instr, hinstr, _, _⟩ := hthread.exists_instr hclosed
    by_cases haccept : instr = .accept
    · -- The threads behind one that accepts are outranked.
      subst haccept
      have haccepts : accepts program thread = true := decide_eq_true hinstr
      have hmoved : moved program char (thread :: rest) = [] := by
        cases char with
        | none => rfl
        | some c =>
          unfold moved going
          rw [List.takeWhile_cons_of_neg (by rw [haccepts]; exact Bool.false_ne_true)]
          rfl
      rw [advance, hinstr, hmoved, Machine.follow_nil, accepted,
        List.find?_cons_of_pos haccepts]
      exact ⟨rfl, hlist⟩
    · -- Another thread is left behind if it does not take the character, and followed if it does.
      have haccepts : ¬accepts program thread = true := by
        unfold accepts
        rw [hinstr, decide_eq_true_eq]
        exact fun heq => haccept (Option.some.inj heq)
      have haccepted : accepted program (thread :: rest) = accepted program rest := by
        unfold accepted
        rw [List.find?_cons_of_neg haccepts]
      have hadvance : advance program text position char list (thread :: rest) =
          if char.any instr.takes then do
            let list ← follow program text position list [{ thread with pc := thread.pc + 1 }]
            advance program text position char list rest
          else advance program text position char list rest := by
        rw [advance, hinstr]
        cases instr <;> first | rfl | exact absurd rfl haccept
      rw [hadvance, haccepted, moved_cons hinstr haccept, follow_append]
      split
      · next htakes =>
        obtain ⟨c, rfl, hc⟩ := (Option.any_eq_true _ _).1 htakes
        obtain ⟨hfollow, hfits⟩ := follow_eq text position hclosed hlist
          (List.forall_mem_singleton.2 (hthread.taken hclosed hinstr hc))
        rw [hfollow]
        exact ih hfits hrest
      · rw [Machine.follow_nil]
        exact ih hlist hrest

/-- **The loop does not fail** if it has a step for each character that is left, and two more. -/
theorem loop_eq (bound : Nat) (hclosed : ClosedProgram program.toList slotCount) {steps : Nat}
    (hsteps : left text position direction + 2 ≤ steps)
    (hthreads : ∀ thread ∈ threads, Fits program slotCount thread)
    (hnodup : (threads.map (·.pc)).Nodup) (best : Option Slots) :
    loop program text bound direction steps position threads best =
      .ok (Machine.loop program text bound direction position threads best) := by
  induction steps generalizing position threads best with
  | zero => omega
  | succ steps ih =>
    cases threads with
    | nil =>
      rw [loop, Machine.loop]
    | cons thread rest =>
      rw [loop, if_pos hnodup, Machine.loop_eq]
      by_cases hbound : position = bound
      · obtain ⟨hadvance, _⟩ := advance_eq text (direction.step position) hclosed none
          (fitsList_empty program slotCount) hthreads
        simp only [if_pos hbound]
        rw [hadvance]
        rfl
      · simp only [if_neg hbound]
        cases hnext : text.next? direction position with
        | none =>
          -- No thread takes a character here, and the next step finds none left.
          obtain ⟨hadvance, _⟩ := advance_eq text (direction.step position) hclosed none
            (fitsList_empty program slotCount) hthreads
          obtain ⟨more, rfl⟩ : ∃ more, steps = more + 1 := ⟨steps - 1, by omega⟩
          rw [hadvance]
          show loop program text bound direction (more + 1) (direction.step position)
            (Machine.follow program text (direction.step position) (.empty program.size)
              []).waiting.toList (accepted program (thread :: rest) <|> best) = _
          rw [Machine.follow_nil]
          exact loop.eq_2 _ _ _ _ _ _ _
        | some c =>
          obtain ⟨hadvance, hfits⟩ := advance_eq text (direction.step position) hclosed (some c)
            (fitsList_empty program slotCount) hthreads
          have hlt := left_step_lt hnext
          rw [hadvance]
          exact ih (by omega) hfits.waiting hfits.nodup _

/-- **A run of a closed program does not fail**, if it has two steps more than the text has
characters. -/
theorem run_eq (hclosed : ClosedProgram program.toList slotCount) {start : Nat}
    (hstart : start ≤ text.size) :
    run program slotCount text start bound direction (text.size + 2) =
      .ok (Machine.run program slotCount text start bound direction) := by
  have hpos : 0 < program.size := by
    have hlast := hclosed.last
    cases hlist : program.toList with
    | nil =>
      rw [hlist] at hlast
      cases hlast
    | cons instr rest =>
      rw [← Array.length_toList, hlist]
      exact Nat.succ_pos _
  have hfirst : Fits program slotCount ⟨0, Array.replicate slotCount none⟩ :=
    ⟨hpos, Array.size_replicate⟩
  obtain ⟨hfollow, hfits⟩ := follow_eq text start hclosed
    (fitsList_empty program slotCount) (List.forall_mem_singleton.2 hfirst)
  have hleft : left text start direction ≤ text.size := by
    cases direction with
    | forward => exact Nat.sub_le _ _
    | backward => exact hstart
  have hloop := loop_eq bound hclosed (Nat.add_le_add_right hleft 2) hfits.waiting hfits.nodup
    none
  unfold run
  dsimp only
  rw [hfollow]
  show (loop program text bound direction (text.size + 2) start _ none >>= _) = _
  rw [hloop]
  cases direction <;> rfl

end Checked

end Emend.Machine

namespace Emend

/-- **Every run is safe and ends.** The program of every pattern that can be read, whatever its
flags, and that of every text that is looked for letter by letter, is closed. So from anywhere to
anywhere, in either direction, a checked run of it does not fail within two steps more than the text
has characters, and answers what the run that is not checked answers. -/
theorem Regex.checkedMatchAt_eq {regex : Regex}
    (h : (∃ pattern search backward, compile pattern search backward = .ok regex) ∨
      ∃ needle, regex = fuzzy needle) :
    ClosedProgram regex.program.toList regex.slotCount ∧
      ∀ (text : Source) (start bound : Nat) (direction : Direction),
        regex.checkedMatchAt text start bound direction (text.size + 2) =
          .ok (regex.matchAt text start bound direction) := by
  have hclosed : ClosedProgram regex.program.toList regex.slotCount := by
    rcases h with ⟨pattern, search, backward, hcompile⟩ | ⟨needle, rfl⟩
    · obtain ⟨node, hparse, rfl⟩ := node_of_compile hcompile
      obtain ⟨hproper, _⟩ := Pattern.groupNumbers_parse hparse
      exact closedProgram_programOf hproper search backward
    · exact closedProgram_programOf (isProper_fuzzyNode needle.toList) false false
  refine ⟨hclosed, fun text start bound direction => ?_⟩
  unfold checkedMatchAt matchAt
  rw [Machine.Checked.run_eq hclosed (Nat.min_le_right start text.size)]
  rfl

/-- Repetitions of repetitions, one of them of nothing, in a run that begins behind its bound. -/
theorem Regex.checkedMatchAt_eq_nested :
    ∃ regex, compile "((a|)*b)+" true false = .ok regex ∧
      ClosedProgram regex.program.toList regex.slotCount ∧
      regex.checkedMatchAt (.ofList "xaab".toList) 2 1 .forward 6 =
        .ok (regex.matchAt (.ofList "xaab".toList) 2 1 .forward) := by
  have hparses : (compile "((a|)*b)+" true false).toOption.isSome = true := by
    set_option maxRecDepth 2000 in cbv
  cases hcompile : compile "((a|)*b)+" true false with
  | error error =>
    rw [hcompile] at hparses
    cases hparses
  | ok regex =>
    obtain ⟨hclosed, hruns⟩ := checkedMatchAt_eq (.inl ⟨"((a|)*b)+", true, false, hcompile⟩)
    exact ⟨regex, rfl, hclosed, hruns (.ofList "xaab".toList) 2 1 .forward⟩

end Emend
