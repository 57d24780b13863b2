import Emend.Pattern.Closed
import Emend.Proofs.Pattern.Lockstep
import Emend.Proofs.Pattern.Passage

/-!
# One thread at a time

`Machine.follow` shares its marks between all threads of a place. What a run answers can be said
without that: a thread tries the addresses that it can go on at one after the other, and only the
addresses through which it has come itself at this place are barred to it. `attempt` is the answer
of a thread to which some addresses are barred, and its equations are those of a search that takes
back its steps (`attempt_onward`, `attempt_take`). Marks that were left by a thread which came to
nothing do not matter to a later one, since nothing is found from them (`attempt_congr`).

A thread finds something from an address just if an acceptance can be reached past the barred
addresses (`isSome_attempt_iff`).
-/

namespace Emend

namespace Machine

variable {program : Array Instr} {text : Source} {direction : Direction} {bound position : Nat}
  {list other : ThreadList} {thread : Thread} {threads others : List Thread} {pc : Nat}
  {barred barred' region : Set Nat}

/-! ## What following threads finds -/

/-- Whether two threads at one address go on does not depend on what they have noted. -/
theorem exists_onward {first next : Thread} (h : first.pc = thread.pc)
    (hnext : next ∈ onward program text position first) :
    ∃ same ∈ onward program text position thread, same.pc = next.pc := by
  have hmem : next.pc ∈ (onward program text position first).map (·.pc) :=
    List.mem_map_of_mem hnext
  rw [onward_pcs h] at hmem
  exact List.mem_map.1 hmem

/-- A thread that has come to wait stays in the list. -/
theorem mem_waiting_follow {waiter : Thread} (h : waiter ∈ list.waiting.toList) :
    waiter ∈ (follow program text position list threads).waiting.toList := by
  obtain ⟨added, hwaiting, _⟩ := exists_waiting_follow .forward 0 list threads
  rw [hwaiting]
  exact List.mem_append_left _ h

/-- A thread that comes to an address to wait at waits there. -/
theorem mem_waiting_visit (h : (program[thread.pc]?).any Instr.isStop = true) :
    thread ∈ (visit program list thread).waiting.toList := by
  rw [waiting_visit, if_pos h]
  exact List.mem_append_right _ (List.mem_singleton_self _)

/-- **Whatever can be reached past the marks is found.** -/
theorem exists_live_of_liveWithout (h : ∃ thread ∈ threads,
      LiveWithout program text direction bound position (marks list) thread.pc) :
    ∃ waiter ∈ (follow program text position list threads).waiting.toList,
      Live program text direction bound position waiter.pc := by
  induction list, threads using follow_induction program text position with
  | nil list =>
    obtain ⟨thread, hmem, _⟩ := h
    cases hmem
  | skip list thread rest hseen ih =>
    rw [follow_skip hseen]
    obtain ⟨first, hmem, hlive⟩ := h
    rcases List.mem_cons.1 hmem with rfl | hrest
    · exact absurd hseen hlive.free
    · exact ih ⟨first, hrest, hlive⟩
  | visit list thread rest hseen ih =>
    rw [follow_visit hseen]
    rw [marks_visit (notMem_marks.2 hseen)] at ih
    obtain ⟨first, hmem, hlive⟩ := h
    -- Either the way avoids the address that is visited, or it can begin there.
    have hcases : first ∈ rest ∧ LiveWithout program text direction bound position
        (insert thread.pc (marks list)) first.pc ∨
        LeadsOn program text direction bound position (marks list) thread.pc := by
      rcases List.mem_cons.1 hmem with rfl | hrest
      · exact .inr hlive.leadsOn
      · exact (hlive.insert_or_leadsOn thread.pc).imp (fun h => ⟨hrest, h⟩) id
    rcases hcases with ⟨hrest, havoids⟩ | ⟨hstop, hlive⟩ | ⟨same, hpc, next, hnext, hafter⟩
    · exact ih ⟨first, List.mem_append_right _ hrest, havoids⟩
    · exact ⟨thread, mem_waiting_follow (mem_waiting_visit hstop), hlive⟩
    · obtain ⟨goes, hgoes, heq⟩ := exists_onward hpc hnext
      exact ih ⟨goes, List.mem_append_left _ hgoes, heq ▸ hafter⟩

/-- What is found is reached past the marks. -/
theorem exists_liveWithout_of_live {waiter : Thread} (hbarred : barred ⊆ marks list)
    (hwaiter : waiter ∈ (follow program text position list threads).waiting.toList)
    (hlive : Live program text direction bound position waiter.pc) :
    waiter ∈ list.waiting.toList ∨ ∃ thread ∈ threads,
      LiveWithout program text direction bound position barred thread.pc := by
  induction list, threads using follow_induction program text position with
  | nil list =>
    rw [follow_nil] at hwaiter
    exact .inl hwaiter
  | skip list thread rest hseen ih =>
    rw [follow_skip hseen] at hwaiter
    exact (ih hbarred hwaiter).imp id fun ⟨first, hmem, h⟩ =>
      ⟨first, List.mem_cons_of_mem _ hmem, h⟩
  | visit list thread rest hseen ih =>
    rw [follow_visit hseen] at hwaiter
    have hfree : thread.pc ∉ barred := fun hmem => hbarred hmem hseen
    have hmarks : barred ⊆ marks (visit program list thread) := by
      rw [marks_visit (notMem_marks.2 hseen)]
      exact hbarred.trans (Set.subset_insert _ _)
    rcases ih hmarks hwaiter with hvisit | ⟨first, hmem, h⟩
    · rw [waiting_visit] at hvisit
      rcases List.mem_append.1 hvisit with hlist | hthread
      · exact .inl hlist
      · -- The thread itself waits.
        split at hthread
        · next hstop =>
          rw [List.mem_singleton.1 hthread] at hlive
          exact .inr ⟨thread, List.mem_cons_self, .wait hfree hstop hlive⟩
        · cases hthread
    · right
      rcases List.mem_append.1 hmem with honward | hrest
      · exact ⟨thread, List.mem_cons_self, .stay hfree honward h⟩
      · exact ⟨first, List.mem_cons_of_mem _ hrest, h⟩

/-! ## Marks that do not matter -/

/-- Where a thread can come from an address without taking a character, as far as the instructions
say. -/
inductive Flows (program : Array Instr) : Nat → Nat → Prop where
  /-- No step. -/
  | refl {pc : Nat} : Flows program pc pc
  /-- A step to a successor. -/
  | step {pc next last : Nat} {instr : Instr} (here : program[pc]? = some instr)
    (stays : instr.isStop = false) (goes : next ∈ instr.successors pc)
    (rest : Flows program next last) : Flows program pc last

/-- A way goes on from where another one ends. -/
theorem Flows.trans {middle last : Nat} (h : Flows program pc middle)
    (h' : Flows program middle last) : Flows program pc last := by
  induction h with
  | refl => exact h'
  | step here stays goes _ ih => exact .step here stays goes (ih h')

/-- A thread that goes on at its place flows there. -/
theorem flows_onward {next : Thread} (h : next ∈ onward program text position thread) :
    Flows program thread.pc next.pc := by
  obtain ⟨instr, hinstr, hsuccessor⟩ := pc_mem_successors h
  refine .step hinstr ?_ hsuccessor .refl
  -- A thread that waits does not go on at all.
  cases hstop : instr.isStop with
  | false => rfl
  | true =>
    rw [onward_of_stop hinstr hstop] at h
    cases h

/-! ## The attempt of a thread -/

open Classical in
/-- No thread yet, and some addresses marked. -/
noncomputable def barring (program : Array Instr) (barred : Set Nat) : ThreadList :=
  ⟨Array.ofFn fun pc : Fin program.size => decide (pc.val ∈ barred), #[]⟩

/-- What a thread comes to that is alone at its place and to which some addresses are barred
there. -/
noncomputable def attempt (program : Array Instr) (text : Source) (direction : Direction)
    (bound position : Nat) (barred : Set Nat) (thread : Thread) : Option Slots :=
  loop program text bound direction position
    (follow program text position (barring program barred) [thread]).waiting.toList none

/-- Just the addresses that are not barred are still to be visited. -/
theorem seen_barring : (barring program barred).seen[pc]? = some false ↔
    pc ∉ barred ∧ pc < program.size := by
  unfold barring
  rw [Array.getElem?_ofFn]
  by_cases hlt : pc < program.size
  · simp [hlt]
  · simp [hlt]

/-- The mark of an address tells only whether it is barred. -/
theorem seen_barring_congr (h : pc ∈ barred ↔ pc ∈ barred') :
    (barring program barred).seen[pc]? = (barring program barred').seen[pc]? := by
  unfold barring
  rw [Array.getElem?_ofFn, Array.getElem?_ofFn]
  split
  · exact congrArg some (decide_eq_decide.2 h)
  · rfl

/-- What is marked is barred, or lies outside of the program. -/
theorem mem_marks_barring : pc ∈ marks (barring program barred) ↔
    pc ∈ barred ∨ program.size ≤ pc := by
  change ¬ _ ↔ _
  rw [seen_barring]
  by_cases hmem : pc ∈ barred
  · simp [hmem]
  · simp [hmem]

/-- Barring nothing leaves the empty list. -/
@[simp]
theorem barring_empty : barring program ∅ = .empty program.size := by
  unfold barring ThreadList.empty
  congr 1
  apply Array.ext
  · simp
  · intro pc hlt hlt'
    simp

/-- A visit where no thread waits is one more address barred. -/
theorem visit_barring (h : (program[thread.pc]?).any Instr.isStop = false) :
    visit program (barring program barred) thread =
      barring program (insert thread.pc barred) := by
  unfold visit
  rw [if_neg (by simp [h])]
  unfold ThreadList.mark barring
  congr 1
  apply Array.ext_getElem?
  intro pc
  rw [Array.getElem?_setIfInBounds, Array.getElem?_ofFn, Array.getElem?_ofFn]
  by_cases hlt : pc < program.size
  · by_cases heq : thread.pc = pc
    · simp [heq, hlt]
    · simp [heq, Ne.symm heq, hlt]
  · by_cases heq : thread.pc = pc
    · simp [heq, hlt]
    · simp [heq, hlt]

/-- What can be reached is reached within the program. -/
theorem liveWithout_marks_barring (h : LiveWithout program text direction bound position barred pc) :
    LiveWithout program text direction bound position (marks (barring program barred)) pc := by
  have houtside : ∀ pc ∈ {pc | program.size ≤ pc},
      ¬ LiveWithout program text direction bound position barred pc :=
    fun pc hle hlive => Nat.not_lt.2 hle hlive.live.lt_size
  exact (h.bar houtside).mono fun pc hpc => mem_marks_barring.1 hpc

/-- All barred addresses are marked. -/
theorem subset_marks_barring : barred ⊆ marks (barring program barred) :=
  fun _ hmem => mem_marks_barring.2 (.inl hmem)

/-- The threads that are found past barred addresses wait. -/
theorem waiting_follow_barring (threads : List Thread) :
    Waiting program
      (follow program text position (barring program barred) threads).waiting.toList := by
  intro waiter hmem
  obtain ⟨added, hwaiting, hadded⟩ :=
    exists_waiting_follow .forward 0 (barring program barred) threads
  rw [hwaiting] at hmem
  exact (hadded waiter hmem).1

/-- **A thread finds something if an acceptance can be reached.** -/
theorem isSome_attempt_iff :
    (attempt program text direction bound position barred thread).isSome = true ↔
      LiveWithout program text direction bound position barred thread.pc := by
  unfold attempt
  rw [isSome_loop_iff (waiting_follow_barring _)]
  constructor
  · rintro ⟨waiter, hmem, hlive⟩
    rcases exists_liveWithout_of_live subset_marks_barring hmem hlive with hnone | ⟨first, hfirst, h⟩
    · cases hnone
    · rw [List.mem_singleton.1 hfirst] at h
      exact h
  · exact fun h => exists_live_of_liveWithout
      ⟨thread, List.mem_singleton_self _, liveWithout_marks_barring h⟩

/-- **An attempt fails** if no acceptance can be reached past the barred addresses. -/
theorem attempt_eq_none_iff :
    attempt program text direction bound position barred thread = none ↔
      ¬ LiveWithout program text direction bound position barred thread.pc := by
  rw [← Option.not_isSome_iff_eq_none]
  exact not_congr isSome_attempt_iff

/-- **Marks from which nothing is found do not matter**, nor do those where the thread cannot
come. -/
theorem attempt_congr (hsub : barred ⊆ barred')
    (hdead : ∀ pc ∈ barred', pc ∉ barred → Flows program thread.pc pc →
      ¬ LiveWithout program text direction bound position barred pc) :
    attempt program text direction bound position barred' thread =
      attempt program text direction bound position barred thread := by
  have hsame : SameWithout program text direction bound position barred
      {pc | Flows program thread.pc pc} (barring program barred') (barring program barred) := by
    refine ⟨hsub.trans subset_marks_barring, subset_marks_barring, ?_, rfl⟩
    intro pc hflows hlive
    apply seen_barring_congr
    refine ⟨fun hmem => ?_, fun hmem => hsub hmem⟩
    exact Classical.byContradiction fun hfree => hdead pc hmem hfree hflows hlive
  have hthread : ∀ first ∈ [thread], Flows program thread.pc first.pc := by
    intro first hmem
    rw [List.mem_singleton.1 hmem]
    exact .refl
  exact loop_congr (hsame.follow (fun first hfirst next hnext => hfirst.trans (flows_onward hnext))
    hthread).waiting none

/-- What several threads come to one after the other is what the first of them comes to that comes
to anything alone. -/
theorem loop_follow_barring (threads : List Thread) :
    loop program text bound direction position
        (follow program text position (barring program barred) threads).waiting.toList none =
      threads.findSome? (attempt program text direction bound position barred) := by
  induction threads with
  | nil =>
    rw [follow_nil, List.findSome?_nil]
    exact loop_of_dead (fun thread hmem => by cases hmem) none
  | cons thread rest ih =>
    rw [List.findSome?_cons, ← ih, ← List.singleton_append, follow_append]
    cases hthread : attempt program text direction bound position barred thread with
    | some slots =>
      -- What the rest adds comes after a live thread.
      obtain ⟨added, hadded, _⟩ := exists_waiting_follow .forward 0
        (follow program text position (barring program barred) [thread]) rest
      rw [hadded, loop_append (waiting_follow_barring _)]
      have hloop : loop program text bound direction position
          (follow program text position (barring program barred) [thread]).waiting.toList none =
          some slots := hthread
      rw [hloop, Option.some_or]
    | none =>
      -- The marks of a thread that has found nothing are of addresses where nothing is found.
      have hdead := attempt_eq_none_iff.1 hthread
      have hmarks : SameWithout program text direction bound position barred Set.univ
          (follow program text position (barring program barred) [thread])
          (barring program barred) :=
        sameWithout_follow_dead subset_marks_barring (by simpa using hdead)
      exact loop_congr (hmarks.follow (fun _ _ _ _ => Set.mem_univ _)
        (fun _ _ => Set.mem_univ _)).waiting none

/-! ## The search of a single thread -/

section Equations

variable {instr : Instr}

/-- **A thread tries the addresses at which it can go on one after the other**, and does not come
back to the one where it stands. -/
theorem attempt_onward (hinstr : program[thread.pc]? = some instr) (hstays : instr.isStop = false)
    (hfree : thread.pc ∉ barred) :
    attempt program text direction bound position barred thread =
      (onward program text position thread).findSome?
        (attempt program text direction bound position (insert thread.pc barred)) := by
  have hlt : thread.pc < program.size := (Array.getElem?_eq_some_iff.1 hinstr).1
  rw [← loop_follow_barring, ← visit_barring (by rw [hinstr]; exact hstays), attempt,
    follow_visit (seen_barring.2 ⟨hfree, hlt⟩), List.append_nil]

/-- The list of a thread that waits. -/
theorem waiting_follow_stop (hinstr : program[thread.pc]? = some instr)
    (hstop : instr.isStop = true) (hfree : thread.pc ∉ barred) :
    (follow program text position (barring program barred) [thread]).waiting.toList =
      [thread] := by
  have hlt : thread.pc < program.size := (Array.getElem?_eq_some_iff.1 hinstr).1
  rw [follow_visit (seen_barring.2 ⟨hfree, hlt⟩), onward_of_stop hinstr hstop, List.append_nil,
    follow_nil, waiting_visit, if_pos (by rw [hinstr]; exact hstop)]
  rfl

/-- A thread at the end of the match accepts. -/
theorem attempt_accept (hinstr : program[thread.pc]? = some .accept) (hfree : thread.pc ∉ barred) :
    attempt program text direction bound position barred thread = some thread.slots := by
  have haccepts : accepts program thread = true := decide_eq_true hinstr
  have hbefore : ∀ first ∈ ([] : List Thread), accepts program first = false := by simp
  have hgoing : going program ([] ++ [thread]) = [] := going_of_accepts haccepts hbefore []
  have haccepted : accepted program ([] ++ [thread]) = some thread.slots :=
    accepted_of_accepts haccepts hbefore []
  rw [List.nil_append] at hgoing haccepted
  rw [attempt, waiting_follow_stop hinstr rfl hfree, loop_eq, haccepted, hgoing]
  -- No thread is left at the next place.
  have hahead : ∀ c, ahead program text (direction.step position) c [] = [] := fun c =>
    congrArg (fun list : ThreadList => list.waiting.toList) follow_nil
  split
  · rfl
  · split
    · rfl
    · rw [hahead]
      exact loop_of_dead (fun _ hmem => by cases hmem) _

/-- **A thread that waits takes the next character**, and at the next place no address is barred
to it. -/
theorem attempt_take (hinstr : program[thread.pc]? = some instr) (hstop : instr.isStop = true)
    (hne : instr ≠ .accept) (hfree : thread.pc ∉ barred) :
    attempt program text direction bound position barred thread =
      if position = bound then none
      else match text.next? direction position with
        | none => none
        | some c =>
          if instr.takes c then attempt program text direction bound (direction.step position) ∅
            { thread with pc := thread.pc + 1 }
          else none := by
  have hnone : ∀ first ∈ [thread], accepts program first = false := by
    intro first hmem
    rw [List.mem_singleton.1 hmem, accepts, hinstr]
    simpa using hne
  rw [attempt, waiting_follow_stop hinstr hstop hfree, loop_eq, accepted_eq_none hnone,
    going_eq_self hnone]
  split
  · rfl
  · cases text.next? direction position with
    | none => rfl
    | some c =>
      have htakes : takes program c thread = instr.takes c := by
        unfold takes
        rw [hinstr]
        rfl
      dsimp only
      unfold ahead taken
      rw [← barring_empty]
      by_cases hc : instr.takes c = true
      · rw [if_pos hc, List.filter_cons_of_pos (htakes.trans hc)]
        rfl
      · rw [if_neg hc, List.filter_cons_of_neg (by rw [htakes]; exact hc), List.filter_nil,
          List.map_nil, follow_nil]
        exact loop_of_dead (fun _ hmem => by cases hmem) none

end Equations

end Machine

end Emend
