import Emend.Proofs.Pattern.Steps
import Mathlib.Data.Set.Insert

/-!
# Following threads at one place

`Machine.follow` treats a stack of threads and marks every address that it comes to. One step of it
is `follow_visit`: an address that is not yet marked is marked, a thread that waits there joins the
list, and otherwise the threads that it goes on as take its place on the stack. A marked address is
passed over (`follow_skip`). `follow_induction` is induction along these steps.

What the list holds in the end is then said from both sides. Every thread that joined has a way from
one of the stack (`exists_waiting_follow`). And every marked address is settled: what follows from
it is marked too, and if a thread waits at such an address, one is in the list (`settled_follow`).
So nothing that is live gets lost, although most threads that reach an address are dropped.

The last part says which marks matter. Some addresses may be barred at a place, and `LiveWithout`
says from where an acceptance can be reached past them. Marks at all other addresses do not matter
(`SameWithout.follow`); with nothing barred these are the addresses from which nothing can be
accepted (`SameLive.follow`). Nor do marks matter at addresses that the threads never come to.
-/

namespace Emend

namespace Machine

variable {program : Array Instr} {text : Source} {direction : Direction} {bound position : Nat}
  {list other : ThreadList} {thread : Thread} {threads others : List Thread} {pc : Nat}
  {barred barred' region : Set Nat}

/-! ## One step -/

/-- The list after a thread comes to an address for the first time. -/
def visit (program : Array Instr) (list : ThreadList) (thread : Thread) : ThreadList :=
  if (program[thread.pc]?).any Instr.isStop then
    { list.mark thread.pc with waiting := list.waiting.push thread }
  else list.mark thread.pc

/-- A visit marks the address. -/
@[simp]
theorem seen_visit : (visit program list thread).seen =
    list.seen.setIfInBounds thread.pc true := by
  unfold visit
  split <;> rfl

/-- A thread that waits at the address joins the list. -/
theorem waiting_visit : (visit program list thread).waiting.toList =
    list.waiting.toList ++ if (program[thread.pc]?).any Instr.isStop then [thread] else [] := by
  unfold visit
  split
  · rw [Array.toList_push]
  · rw [List.append_nil]
    rfl

/-- Without threads nothing is followed. -/
@[simp]
theorem follow_nil : follow program text position list [] = list := by
  rw [follow]

/-- A thread at a marked address is dropped. -/
theorem follow_skip (h : list.seen[thread.pc]? ≠ some false) :
    follow program text position list (thread :: others) =
      follow program text position list others := by
  rw [follow, dif_neg h]

/-- A thread at a new address is treated before the rest of the stack. -/
theorem follow_visit (h : list.seen[thread.pc]? = some false) :
    follow program text position list (thread :: others) =
      follow program text position (visit program list thread)
        (onward program text position thread ++ others) := by
  rw [follow, dif_pos h]
  unfold visit onward
  cases hinstr : program[thread.pc]? with
  | none => rfl
  | some instr =>
    cases instr with
    | assert assertion =>
      dsimp only
      split <;> rfl
    | char c => rfl
    | oneOf set => rfl
    | accept => rfl
    | jump target => rfl
    | split targets => rfl
    | save slot => rfl

/-- A new address is one less to come to. -/
theorem count_visit_lt (program : Array Instr) (h : list.seen[thread.pc]? = some false) :
    (visit program list thread).seen.count false < list.seen.count false := by
  rw [seen_visit]
  exact ThreadList.count_mark_lt h

/-- Induction along the steps of `follow`. -/
theorem follow_induction (program : Array Instr) (text : Source) (position : Nat)
    {motive : ThreadList → List Thread → Prop}
    (nil : ∀ list, motive list [])
    (skip : ∀ list thread others, list.seen[thread.pc]? ≠ some false → motive list others →
      motive list (thread :: others))
    (visit : ∀ list thread others, list.seen[thread.pc]? = some false →
      motive (visit program list thread) (onward program text position thread ++ others) →
      motive list (thread :: others)) (list : ThreadList) (threads : List Thread) :
    motive list threads := by
  -- A visit leaves fewer addresses to come to, and a skip fewer threads on the stack.
  induction hcount : list.seen.count false using Nat.strongRecOn generalizing list threads with
  | ind count ih =>
    induction threads with
    | nil => exact nil list
    | cons thread others ihOthers =>
      by_cases hseen : list.seen[thread.pc]? = some false
      · have hlt := count_visit_lt program hseen
        rw [hcount] at hlt
        exact visit list thread others hseen (ih _ hlt _ _ rfl)
      · exact skip list thread others hseen ihOthers

/-- A stack can be treated in two parts. -/
theorem follow_append (list : ThreadList) (threads others : List Thread) :
    follow program text position list (threads ++ others) =
      follow program text position (follow program text position list threads) others := by
  induction list, threads using follow_induction program text position with
  | nil list => rw [follow_nil, List.nil_append]
  | skip list thread rest hseen ih =>
    rw [List.cons_append, follow_skip hseen, follow_skip hseen, ih]
  | visit list thread rest hseen ih =>
    rw [List.cons_append, follow_visit hseen, follow_visit hseen, ← List.append_assoc, ih]

/-- Following threads keeps the number of marks. -/
@[simp]
theorem size_seen_follow (list : ThreadList) (threads : List Thread) :
    (follow program text position list threads).seen.size = list.seen.size := by
  induction list, threads using follow_induction program text position with
  | nil list => rw [follow_nil]
  | skip list thread rest hseen ih => rw [follow_skip hseen, ih]
  | visit list thread rest hseen ih =>
    rw [follow_visit hseen, ih, seen_visit, Array.size_setIfInBounds]

/-- The marks after a visit. -/
theorem getElem?_seen_visit (h : list.seen[thread.pc]? = some false) (pc : Nat) :
    (visit program list thread).seen[pc]? =
      if pc = thread.pc then some true else list.seen[pc]? := by
  obtain ⟨hlt, _⟩ := Array.getElem?_eq_some_iff.1 h
  rw [seen_visit, Array.getElem?_setIfInBounds]
  by_cases hpc : pc = thread.pc
  · rw [if_pos hpc, if_pos hpc.symm, if_pos (hpc ▸ hlt)]
  · rw [if_neg hpc, if_neg (Ne.symm hpc)]

/-- Marks stay. -/
theorem seen_follow_of_seen {pc : Nat} (h : list.seen[pc]? = some true) :
    (follow program text position list threads).seen[pc]? = some true := by
  induction list, threads using follow_induction program text position with
  | nil list =>
    rw [follow_nil]
    exact h
  | skip list thread rest hseen ih =>
    rw [follow_skip hseen]
    exact ih h
  | visit list thread rest hseen ih =>
    rw [follow_visit hseen]
    apply ih
    rw [getElem?_seen_visit hseen]
    split
    · rfl
    · exact h

/-- An address of the program is marked or not. -/
theorem seen_of_ne_false {pc : Nat} (h : list.seen[pc]? ≠ some false)
    (hlt : pc < list.seen.size) : list.seen[pc]? = some true := by
  rw [Array.getElem?_eq_getElem hlt] at h ⊢
  cases hval : list.seen[pc] with
  | true => rfl
  | false =>
    rw [hval] at h
    exact absurd rfl h

/-- The address of every thread on the stack is marked in the end, if it lies in the program. -/
theorem seen_follow_of_mem (h : thread ∈ threads) (hlt : thread.pc < list.seen.size) :
    (follow program text position list threads).seen[thread.pc]? = some true := by
  induction list, threads using follow_induction program text position with
  | nil list => cases h
  | skip list first rest hseen ih =>
    rw [follow_skip hseen]
    rcases List.mem_cons.1 h with rfl | hrest
    · -- The thread is dropped because its address was marked before.
      exact seen_follow_of_seen (seen_of_ne_false hseen hlt)
    · exact ih hrest hlt
  | visit list first rest hseen ih =>
    rw [follow_visit hseen]
    have hsize : (visit program list first).seen.size = list.seen.size := by
      rw [seen_visit, Array.size_setIfInBounds]
    rcases List.mem_cons.1 h with rfl | hrest
    · apply seen_follow_of_seen
      rw [getElem?_seen_visit hseen, if_pos rfl]
    · exact ih (List.mem_append_right _ hrest) (by rw [hsize]; exact hlt)

/-! ## What the list holds -/

/-- The threads that join a list, and where they come from: each waits, and has a way from a thread
of the stack. -/
theorem exists_waiting_follow (direction : Direction) (bound : Nat) (list : ThreadList)
    (threads : List Thread) :
    ∃ added : List Thread,
      (follow program text position list threads).waiting.toList =
        list.waiting.toList ++ added ∧
      ∀ last ∈ added, (program[last.pc]?).any Instr.isStop = true ∧
        ∃ thread ∈ threads, ∃ count,
          Path program text direction bound count position thread position last := by
  induction list, threads using follow_induction program text position with
  | nil list =>
    refine ⟨[], ?_, fun last hmem => by cases hmem⟩
    rw [follow_nil, List.append_nil]
  | skip list thread rest hseen ih =>
    obtain ⟨added, hwaiting, hadded⟩ := ih
    refine ⟨added, ?_, ?_⟩
    · rw [follow_skip hseen, hwaiting]
    · intro last hmem
      obtain ⟨hstop, first, hfirst, hpath⟩ := hadded last hmem
      exact ⟨hstop, first, List.mem_cons_of_mem _ hfirst, hpath⟩
  | visit list thread rest hseen ih =>
    obtain ⟨added, hwaiting, hadded⟩ := ih
    -- What joins later comes from the rest of the stack or from a step of this thread.
    have hlater : ∀ last ∈ added, (program[last.pc]?).any Instr.isStop = true ∧
        ∃ first ∈ thread :: rest, ∃ count,
          Path program text direction bound count position first position last := by
      intro last hmem
      obtain ⟨hstop, first, hfirst, count, hpath⟩ := hadded last hmem
      rcases List.mem_append.1 hfirst with honward | hrest
      · exact ⟨hstop, thread, List.mem_cons_self, count + 1, .step (.stay honward) hpath⟩
      · exact ⟨hstop, first, List.mem_cons_of_mem _ hrest, count, hpath⟩
    refine ⟨_, by rw [follow_visit hseen, hwaiting, waiting_visit, List.append_assoc], ?_⟩
    intro last hmem
    rcases List.mem_append.1 hmem with hthread | hadd
    · -- The thread itself, if it waits here.
      split at hthread
      · next hstop =>
        rw [List.mem_singleton.1 hthread]
        exact ⟨hstop, thread, List.mem_cons_self, 0, .refl⟩
      · cases hthread
    · exact hlater last hadd

/-- Every marked address is settled, apart from what is still on the stack: what follows from it is
marked if it lies in the program, and if it is one to wait at, a thread waits there. -/
structure Settled (program : Array Instr) (text : Source) (position : Nat) (list : ThreadList)
    (pending : List Thread) : Prop where
  /-- What follows from a marked address is marked or on the stack. -/
  onward : ∀ thread, list.seen[thread.pc]? = some true →
    ∀ next ∈ onward program text position thread, next.pc < list.seen.size →
      list.seen[next.pc]? = some true ∨ ∃ other ∈ pending, other.pc = next.pc
  /-- A thread waits at every marked address that is one to wait at. -/
  waiting : ∀ pc : Nat, list.seen[pc]? = some true → (program[pc]?).any Instr.isStop = true →
    ∃ thread ∈ list.waiting.toList, thread.pc = pc

/-- A list without marks is settled. -/
theorem settled_empty (size : Nat) (pending : List Thread) :
    Settled program text position (.empty size) pending := by
  have hnone : ∀ pc : Nat, (ThreadList.empty size).seen[pc]? ≠ some true := by
    intro pc
    simp only [ThreadList.empty, Array.getElem?_replicate]
    split <;> simp
  exact ⟨fun thread hseen => absurd hseen (hnone _), fun pc hseen => absurd hseen (hnone _)⟩

/-- The addresses that follow do not depend on what a thread has noted. -/
theorem onward_pcs {thread first : Thread} (h : first.pc = thread.pc) :
    (onward program text position first).map (·.pc) =
      (onward program text position thread).map (·.pc) := by
  unfold onward
  rw [h]
  cases program[thread.pc]? with
  | none => rfl
  | some instr =>
    cases instr with
    | assert assertion =>
      dsimp only
      split <;> rfl
    | split targets =>
      dsimp only
      rw [List.map_map, List.map_map]
      rfl
    | _ => rfl

/-- A thread at a marked address can be dropped. -/
theorem Settled.skip (h : Settled program text position list (thread :: threads))
    (hseen : ¬ list.seen[thread.pc]? = some false) :
    Settled program text position list threads := by
  refine ⟨fun first hfirst next hnext hlt => ?_, h.waiting⟩
  rcases h.onward first hfirst next hnext hlt with hmarked | ⟨other, hmem, hpc⟩
  · exact .inl hmarked
  · rcases List.mem_cons.1 hmem with rfl | hrest
    · left
      rw [← hpc] at hlt ⊢
      exact seen_of_ne_false hseen hlt
    · exact .inr ⟨other, hrest, hpc⟩

/-- A visit settles its address, once what follows from it is on the stack. -/
theorem Settled.visit (h : Settled program text position list (thread :: threads))
    (hseen : list.seen[thread.pc]? = some false) :
    Settled program text position (visit program list thread)
      (Machine.onward program text position thread ++ threads) := by
  have hmarks : ∀ pc : Nat, (Machine.visit program list thread).seen[pc]? =
      if pc = thread.pc then some true else list.seen[pc]? := getElem?_seen_visit hseen
  have hsize : (Machine.visit program list thread).seen.size = list.seen.size := by
    simp
  constructor
  · intro first hfirst next hnext hlt
    rw [hsize] at hlt
    rw [hmarks] at hfirst ⊢
    by_cases hpc : first.pc = thread.pc
    · -- The thread that is visited may have noted other places than the one asked for.
      have hmem : next.pc ∈ (Machine.onward program text position thread).map (·.pc) := by
        rw [← onward_pcs hpc]
        exact List.mem_map_of_mem hnext
      obtain ⟨same, hsame, hsamePc⟩ := List.mem_map.1 hmem
      exact .inr ⟨same, List.mem_append_left _ hsame, hsamePc⟩
    · -- What was marked before is settled as before, except that this thread is off the stack.
      rw [if_neg hpc] at hfirst
      rcases h.onward first hfirst next hnext hlt with hmarked | ⟨other, hmem, hother⟩
      · left
        split
        · rfl
        · exact hmarked
      · rcases List.mem_cons.1 hmem with rfl | hrest
        · left
          rw [if_pos hother.symm]
        · exact .inr ⟨other, List.mem_append_right _ hrest, hother⟩
  · -- The only address that is newly marked is the one where this thread waits, if it does.
    intro pc hpc hstop
    rw [hmarks] at hpc
    unfold Machine.visit
    by_cases heq : pc = thread.pc
    · rw [heq] at hstop
      rw [if_pos hstop]
      exact ⟨thread, by simp [Array.toList_push], heq.symm⟩
    · rw [if_neg heq] at hpc
      obtain ⟨waiter, hmem, hwaiter⟩ := h.waiting pc hpc hstop
      split
      · exact ⟨waiter, by simp [Array.toList_push, hmem], hwaiter⟩
      · exact ⟨waiter, hmem, hwaiter⟩

/-- **Nothing is left behind.** When the stack is empty, all marked addresses are settled. -/
theorem settled_follow (h : Settled program text position list threads) :
    Settled program text position (follow program text position list threads) [] := by
  induction list, threads using follow_induction program text position with
  | nil list =>
    rw [follow_nil]
    exact h
  | skip list thread rest hseen ih =>
    rw [follow_skip hseen]
    exact ih (h.skip hseen)
  | visit list thread rest hseen ih =>
    rw [follow_visit hseen]
    exact ih (h.visit hseen)

/-- **A live address has a live thread.** If acceptance can be reached from a marked address, it
can be reached by a thread of the list. -/
theorem exists_live_of_settled {pc : Nat} (h : Settled program text position list [])
    (hsize : list.seen.size = program.size)
    (hlive : Live program text direction bound position pc)
    (hseen : list.seen[pc]? = some true) :
    ∃ thread ∈ list.waiting.toList, Live program text direction bound position thread.pc := by
  induction hlive with
  | accept here =>
    obtain ⟨thread, hmem, hpc⟩ := h.waiting _ hseen (by rw [here]; rfl)
    exact ⟨thread, hmem, hpc ▸ .accept here⟩
  | step first rest ih =>
    cases first with
    | stay goes =>
      -- Nothing is left on the stack, so the next address is marked as well.
      have hlt := rest.lt_size
      rw [← hsize] at hlt
      rcases h.onward _ hseen _ goes hlt with hnext | ⟨other, hmem, _⟩
      · exact ih h hnext
      · cases hmem
    | take here takes inside char =>
      -- The address is one to wait at, so a thread waits there.
      obtain ⟨thread, hmem, hpc⟩ := h.waiting _ hseen (by
        rw [here]
        exact isStop_of_takes takes)
      refine ⟨thread, hmem, ?_⟩
      rw [hpc]
      exact .step (.take here takes inside char) rest

/-- Following live threads leaves one to wait. -/
theorem exists_live_follow (h : thread ∈ threads)
    (hlive : Live program text direction bound position thread.pc) :
    ∃ waiter ∈ (follow program text position (.empty program.size) threads).waiting.toList,
      Live program text direction bound position waiter.pc := by
  have hempty : (ThreadList.empty program.size).seen.size = program.size :=
    Array.size_replicate
  have hsettled : Settled program text position
      (follow program text position (.empty program.size) threads) [] :=
    settled_follow (settled_empty program.size threads)
  refine exists_live_of_settled hsettled (by rw [size_seen_follow, hempty]) hlive ?_
  exact seen_follow_of_mem h (by rw [hempty]; exact hlive.lt_size)

/-! ## Reaching an acceptance past barred addresses -/

/-- From this address an acceptance can be reached without a barred address at this place. -/
inductive LiveWithout (program : Array Instr) (text : Source) (direction : Direction)
    (bound position : Nat) (barred : Set Nat) : Nat → Prop where
  /-- At an address to wait at. -/
  | wait {pc : Nat} (free : pc ∉ barred) (waits : (program[pc]?).any Instr.isStop = true)
    (live : Live program text direction bound position pc) :
    LiveWithout program text direction bound position barred pc
  /-- After a step at this place. -/
  | stay {thread next : Thread} (free : thread.pc ∉ barred)
    (goes : next ∈ onward program text position thread)
    (rest : LiveWithout program text direction bound position barred next.pc) :
    LiveWithout program text direction bound position barred thread.pc

/-- An address that is reached past barred ones is not barred. -/
theorem LiveWithout.free (h : LiveWithout program text direction bound position barred pc) :
    pc ∉ barred := by
  cases h with
  | wait free _ _ => exact free
  | stay free _ _ => exact free

/-- What can be reached past barred addresses can be reached. -/
theorem LiveWithout.live (h : LiveWithout program text direction bound position barred pc) :
    Live program text direction bound position pc := by
  induction h with
  | wait _ _ live => exact live
  | stay _ goes _ ih => exact .step (.stay goes) ih

/-- With fewer addresses barred no less is reached. -/
theorem LiveWithout.mono (h : LiveWithout program text direction bound position barred pc)
    (hsub : barred' ⊆ barred) : LiveWithout program text direction bound position barred' pc := by
  induction h with
  | wait free waits live => exact .wait (fun hmem => free (hsub hmem)) waits live
  | stay free goes _ ih => exact .stay (fun hmem => free (hsub hmem)) goes ih

/-- Addresses from which nothing is reached may be barred as well. -/
theorem LiveWithout.bar (h : LiveWithout program text direction bound position barred pc)
    (hdead : ∀ other ∈ barred', ¬ LiveWithout program text direction bound position barred other) :
    LiveWithout program text direction bound position (barred ∪ barred') pc := by
  induction h with
  | @wait pc free waits live =>
    have hlive : LiveWithout program text direction bound position barred pc :=
      .wait free waits live
    exact .wait (fun hmem => hmem.elim free fun hmem => hdead _ hmem hlive) waits live
  | @stay thread next free goes rest ih =>
    have hlive : LiveWithout program text direction bound position barred thread.pc :=
      .stay free goes rest
    exact .stay (fun hmem => hmem.elim free fun hmem => hdead _ hmem hlive) goes ih

/-- An address from which an acceptance is reached by waiting there or by a step, without coming
back to it. -/
def LeadsOn (program : Array Instr) (text : Source) (direction : Direction) (bound position : Nat)
    (barred : Set Nat) (pc : Nat) : Prop :=
  (program[pc]?).any Instr.isStop = true ∧ Live program text direction bound position pc ∨
    ∃ thread : Thread, thread.pc = pc ∧ ∃ next ∈ onward program text position thread,
      LiveWithout program text direction bound position (insert pc barred) next.pc

/-- **A way need not come to an address twice.** It avoids the address, or it can begin there. -/
theorem LiveWithout.insert_or_leadsOn
    (h : LiveWithout program text direction bound position barred pc) (address : Nat) :
    LiveWithout program text direction bound position (insert address barred) pc ∨
      LeadsOn program text direction bound position barred address := by
  induction h with
  | @wait pc free waits live =>
    by_cases heq : pc = address
    · exact .inr (.inl (heq ▸ ⟨waits, live⟩))
    · exact .inl (.wait (fun hmem => hmem.elim heq free) waits live)
  | @stay thread next free goes rest ih =>
    rcases ih with havoids | hleads
    · by_cases heq : thread.pc = address
      · exact .inr (.inr ⟨thread, heq, next, goes, havoids⟩)
      · exact .inl (.stay (fun hmem => hmem.elim heq free) goes havoids)
    · exact .inr hleads

/-- From such an address the walk leads on without coming back to it. -/
theorem LiveWithout.leadsOn (h : LiveWithout program text direction bound position barred pc) :
    LeadsOn program text direction bound position barred pc :=
  (h.insert_or_leadsOn pc).resolve_left fun h => h.free (Set.mem_insert _ _)

/-- A live address is live with nothing barred. -/
theorem liveWithout_empty (h : Live program text direction bound position pc) :
    LiveWithout program text direction bound position ∅ pc := by
  induction h with
  | accept here => exact .wait (Set.notMem_empty _) (by rw [here]; rfl) (.accept here)
  | step first rest ih =>
    cases first with
    | stay goes => exact .stay (Set.notMem_empty _) goes ih
    | take here takes inside char =>
      refine .wait (Set.notMem_empty _) ?_ (.step (.take here takes inside char) rest)
      rw [here]
      exact isStop_of_takes takes

/-- The addresses that are not to be visited again. -/
def marks (list : ThreadList) : Set Nat :=
  {pc | list.seen[pc]? ≠ some false}

/-- An address without a mark is still to be visited. -/
theorem notMem_marks : pc ∉ marks list ↔ list.seen[pc]? = some false :=
  Classical.not_not

/-- A visit adds its address to the marks. -/
theorem marks_visit (h : thread.pc ∉ marks list) :
    marks (visit program list thread) = insert thread.pc (marks list) := by
  ext pc
  change (visit program list thread).seen[pc]? ≠ some false ↔ pc = thread.pc ∨ _
  rw [getElem?_seen_visit (notMem_marks.1 h)]
  by_cases heq : pc = thread.pc
  · simp [heq]
  · rw [if_neg heq]
    exact ⟨.inr, fun h => h.resolve_left heq⟩

/-! ## Marks that do not matter -/

open Classical in
/-- The threads from which an acceptance can be reached. -/
noncomputable def liveThreads (program : Array Instr) (text : Source) (direction : Direction)
    (bound position : Nat) (threads : List Thread) : List Thread :=
  threads.filter fun thread => Live program text direction bound position thread.pc

/-- The live threads of two lists are those of the first and then those of the second. -/
theorem liveThreads_append (threads others : List Thread) :
    liveThreads program text direction bound position (threads ++ others) =
      liveThreads program text direction bound position threads ++
        liveThreads program text direction bound position others :=
  List.filter_append ..

/-- Among threads that lead nowhere none is live. -/
theorem liveThreads_eq_nil
    (h : ∀ thread ∈ threads, ¬ Live program text direction bound position thread.pc) :
    liveThreads program text direction bound position threads = [] := by
  apply List.filter_eq_nil_iff.2
  intro thread hmem
  simpa using h thread hmem

/-- Following threads leaves no more addresses to visit. -/
theorem count_follow_le (list : ThreadList) (threads : List Thread) :
    (follow program text position list threads).seen.count false ≤ list.seen.count false := by
  induction list, threads using follow_induction program text position with
  | nil list => exact Nat.le_of_eq (by rw [follow_nil])
  | skip list thread rest hseen ih =>
    rw [follow_skip hseen]
    exact ih
  | visit list thread rest hseen ih =>
    rw [follow_visit hseen]
    exact Nat.le_trans ih (Nat.le_of_lt (count_visit_lt program hseen))

/-- Two lists with the same live threads, and with the same marks at the addresses of a region from
which something can be reached past the barred addresses, all of which both have marked. -/
structure SameWithout (program : Array Instr) (text : Source) (direction : Direction)
    (bound position : Nat) (barred region : Set Nat) (list other : ThreadList) : Prop where
  /-- The one has marked the barred addresses. -/
  left : barred ⊆ marks list
  /-- So has the other. -/
  right : barred ⊆ marks other
  /-- The marks agree where it matters. -/
  seen : ∀ pc ∈ region, LiveWithout program text direction bound position barred pc →
    list.seen[pc]? = other.seen[pc]?
  /-- The threads agree where it matters. -/
  waiting : liveThreads program text direction bound position list.waiting.toList =
    liveThreads program text direction bound position other.waiting.toList

/-- A list that has marked the barred addresses is the same as itself past them. -/
theorem SameWithout.refl (h : barred ⊆ marks list) :
    SameWithout program text direction bound position barred region list list :=
  ⟨h, h, fun _ _ _ => rfl, rfl⟩

/-- Of two lists that are the same past barred addresses either may come first. -/
theorem SameWithout.symm
    (h : SameWithout program text direction bound position barred region list other) :
    SameWithout program text direction bound position barred region other list :=
  ⟨h.right, h.left, fun pc hpc hlive => (h.seen pc hpc hlive).symm, h.waiting.symm⟩

/-- Two lists that are the same as a third one past barred addresses are the same past them. -/
theorem SameWithout.trans {third : ThreadList}
    (h : SameWithout program text direction bound position barred region list other)
    (h' : SameWithout program text direction bound position barred region other third) :
    SameWithout program text direction bound position barred region list third :=
  ⟨h.left, h'.right, fun pc hpc hlive => (h.seen pc hpc hlive).trans (h'.seen pc hpc hlive),
    h.waiting.trans h'.waiting⟩

/-- Visiting an address in both of two lists. -/
theorem SameWithout.visit
    (h : SameWithout program text direction bound position barred region list other)
    (hlist : thread.pc ∉ marks list) (hother : thread.pc ∉ marks other) :
    SameWithout program text direction bound position barred region (visit program list thread)
      (visit program other thread) := by
  refine ⟨?_, ?_, ?_, ?_⟩
  · rw [marks_visit hlist]
    exact h.left.trans (Set.subset_insert _ _)
  · rw [marks_visit hother]
    exact h.right.trans (Set.subset_insert _ _)
  · intro pc hpc hlive
    rw [getElem?_seen_visit (notMem_marks.1 hlist), getElem?_seen_visit (notMem_marks.1 hother),
      h.seen pc hpc hlive]
  · rw [waiting_visit, waiting_visit, liveThreads_append, liveThreads_append, h.waiting]

/-- Visiting an address from which nothing is reached changes nothing that matters. -/
theorem sameWithout_visit_dead (hbarred : barred ⊆ marks list) (hfree : thread.pc ∉ marks list)
    (hdead : ¬ LiveWithout program text direction bound position barred thread.pc) :
    SameWithout program text direction bound position barred region (visit program list thread)
      list := by
  refine ⟨?_, hbarred, ?_, ?_⟩
  · rw [marks_visit hfree]
    exact hbarred.trans (Set.subset_insert _ _)
  · intro pc _ hlive
    rw [getElem?_seen_visit (notMem_marks.1 hfree), if_neg]
    rintro rfl
    exact hdead hlive
  · rw [waiting_visit, liveThreads_append]
    have hnil : liveThreads program text direction bound position
        (if (program[thread.pc]?).any Instr.isStop then [thread] else []) = [] := by
      apply liveThreads_eq_nil
      intro first hmem hlive
      split at hmem
      · next hstop =>
        rw [List.mem_singleton.1 hmem] at hlive
        exact hdead (.wait (fun hmem => hfree (hbarred hmem)) hstop hlive)
      · cases hmem
    rw [hnil, List.append_nil]

/-- Threads from which nothing is reached leave nothing behind that matters. -/
theorem sameWithout_follow_dead (hbarred : barred ⊆ marks list)
    (hdead : ∀ thread ∈ threads,
      ¬ LiveWithout program text direction bound position barred thread.pc) :
    SameWithout program text direction bound position barred region
      (follow program text position list threads) list := by
  induction list, threads using follow_induction program text position with
  | nil list =>
    rw [follow_nil]
    exact .refl hbarred
  | skip list thread rest hseen ih =>
    rw [follow_skip hseen]
    exact ih hbarred fun first hmem => hdead first (List.mem_cons_of_mem _ hmem)
  | visit list thread rest hseen ih =>
    have hthread := hdead thread List.mem_cons_self
    have hfree := notMem_marks.2 hseen
    have hvisit : SameWithout program text direction bound position barred region
        (Machine.visit program list thread) list := sameWithout_visit_dead hbarred hfree hthread
    rw [follow_visit hseen]
    refine (ih hvisit.left fun first hmem => ?_).trans hvisit
    rcases List.mem_append.1 hmem with honward | hrest
    · exact fun hlive => hthread (.stay (fun hmem => hfree (hbarred hmem)) honward hlive)
    · exact hdead first (List.mem_cons_of_mem _ hrest)

/-- **Only addresses from which something is reached matter.** Two lists that agree on them still
do when the same threads of the region are followed. -/
theorem SameWithout.follow
    (h : SameWithout program text direction bound position barred region list other)
    (hclosed : ∀ thread : Thread, thread.pc ∈ region →
      ∀ next ∈ onward program text position thread, next.pc ∈ region)
    (hthreads : ∀ thread ∈ threads, thread.pc ∈ region) :
    SameWithout program text direction bound position barred region
      (follow program text position list threads)
      (follow program text position other threads) := by
  -- The marks of the two lists differ where nothing is reached, so the two runs do not go in step.
  -- The induction is on the addresses left to the first; within it the threads are taken one by
  -- one.
  induction hcount : list.seen.count false using Nat.strongRecOn
    generalizing list other threads with
  | ind count ih =>
    have hone : ∀ (thread : Thread) (list other : ThreadList), thread.pc ∈ region →
        list.seen.count false ≤ count →
        SameWithout program text direction bound position barred region list other →
        SameWithout program text direction bound position barred region
          (Machine.follow program text position list [thread])
          (Machine.follow program text position other [thread]) := by
      intro thread list other hregion hle h
      by_cases hlive : LiveWithout program text direction bound position barred thread.pc
      · have hsame := h.seen _ hregion hlive
        by_cases hseen : list.seen[thread.pc]? = some false
        · have hfree := notMem_marks.2 hseen
          have hseen' := hsame.symm.trans hseen
          rw [follow_visit hseen, follow_visit hseen', List.append_nil]
          exact ih _ (Nat.lt_of_lt_of_le (count_visit_lt program hseen) hle)
            (h.visit hfree (notMem_marks.2 hseen')) (hclosed thread hregion) rfl
        · rw [follow_skip hseen, follow_skip (by rwa [← hsame]), follow_nil, follow_nil]
          exact h
      · have hdead : ∀ first ∈ [thread],
            ¬ LiveWithout program text direction bound position barred first.pc := by
          intro first hmem
          rw [List.mem_singleton.1 hmem]
          exact hlive
        exact ((sameWithout_follow_dead h.left hdead).trans h).trans
          (sameWithout_follow_dead h.right hdead).symm
    have hall : ∀ (threads : List Thread) (list other : ThreadList),
        (∀ thread ∈ threads, thread.pc ∈ region) → list.seen.count false ≤ count →
        SameWithout program text direction bound position barred region list other →
        SameWithout program text direction bound position barred region
          (Machine.follow program text position list threads)
          (Machine.follow program text position other threads) := by
      intro threads
      induction threads with
      | nil =>
        intro list other _ _ h
        rw [follow_nil, follow_nil]
        exact h
      | cons thread rest ihRest =>
        intro list other hthreads hle h
        obtain ⟨hthread, hrest⟩ := List.forall_mem_cons.1 hthreads
        rw [← List.singleton_append, follow_append, follow_append]
        exact ihRest _ _ hrest (Nat.le_trans (count_follow_le _ _) hle)
          (hone thread list other hthread hle h)
    exact hall threads list other hthreads (Nat.le_of_eq hcount) h

/-- Two lists with the same marks at live addresses and the same live threads. -/
structure SameLive (program : Array Instr) (text : Source) (direction : Direction)
    (bound position : Nat) (list other : ThreadList) : Prop where
  /-- The marks agree where it matters. -/
  seen : ∀ pc : Nat, Live program text direction bound position pc →
    list.seen[pc]? = other.seen[pc]?
  /-- The threads agree where it matters. -/
  waiting : liveThreads program text direction bound position list.waiting.toList =
    liveThreads program text direction bound position other.waiting.toList

/-- A list has the same live threads as itself. -/
theorem SameLive.refl (list : ThreadList) :
    SameLive program text direction bound position list list :=
  ⟨fun _ _ => rfl, rfl⟩

/-- Of two lists with the same live threads either may come first. -/
theorem SameLive.symm (h : SameLive program text direction bound position list other) :
    SameLive program text direction bound position other list :=
  ⟨fun pc hlive => (h.seen pc hlive).symm, h.waiting.symm⟩

/-- Two lists with the live threads of a third one have the same live threads. -/
theorem SameLive.trans {third : ThreadList}
    (h : SameLive program text direction bound position list other)
    (h' : SameLive program text direction bound position other third) :
    SameLive program text direction bound position list third :=
  ⟨fun pc hlive => (h.seen pc hlive).trans (h'.seen pc hlive), h.waiting.trans h'.waiting⟩

/-- Live addresses are those from which something is reached when none is barred. -/
theorem SameLive.sameWithout (h : SameLive program text direction bound position list other) :
    SameWithout program text direction bound position ∅ Set.univ list other :=
  ⟨Set.empty_subset _, Set.empty_subset _, fun pc _ hlive => h.seen pc hlive.live, h.waiting⟩

/-- Lists that are the same everywhere past no barred address have the same live threads. -/
theorem SameWithout.sameLive
    (h : SameWithout program text direction bound position ∅ Set.univ list other) :
    SameLive program text direction bound position list other :=
  ⟨fun pc hlive => h.seen pc (Set.mem_univ _) (liveWithout_empty hlive), h.waiting⟩

/-- Threads that cannot come to accept leave nothing behind that matters. -/
theorem sameLive_follow_dead
    (hdead : ∀ thread ∈ threads, ¬ Live program text direction bound position thread.pc) :
    SameLive program text direction bound position
      (follow program text position list threads) list :=
  (sameWithout_follow_dead (Set.empty_subset _) fun thread hmem hlive =>
    hdead thread hmem hlive.live).sameLive

/-- **Only live addresses matter.** Two lists that agree on them still do when the same threads are
followed. -/
theorem SameLive.follow (h : SameLive program text direction bound position list other)
    (threads : List Thread) :
    SameLive program text direction bound position (follow program text position list threads)
      (follow program text position other threads) :=
  (h.sameWithout.follow (fun _ _ _ _ => Set.mem_univ _) fun _ _ => Set.mem_univ _).sameLive

/-- **Only addresses that threads can come to matter.** Two lists that agree on a region which the
threads do not leave get the same threads, and outside of it no mark changes. -/
theorem follow_region {R : Nat → Prop}
    (hclosed : ∀ thread, R thread.pc → ∀ next ∈ onward program text position thread, R next.pc)
    (list other : ThreadList) (threads : List Thread)
    (hthreads : ∀ thread ∈ threads, R thread.pc)
    (hsame : ∀ pc : Nat, R pc → list.seen[pc]? = other.seen[pc]?) :
    ∃ added : List Thread,
      (follow program text position list threads).waiting.toList =
        list.waiting.toList ++ added ∧
      (follow program text position other threads).waiting.toList =
        other.waiting.toList ++ added ∧
      ∀ pc : Nat, ¬ R pc →
        (follow program text position list threads).seen[pc]? = list.seen[pc]? := by
  induction list, threads using follow_induction program text position generalizing other with
  | nil list =>
    rw [follow_nil, follow_nil]
    exact ⟨[], (List.append_nil _).symm, (List.append_nil _).symm, fun _ _ => rfl⟩
  | skip list thread rest hseen ih =>
    have hseen' : other.seen[thread.pc]? ≠ some false := by
      rw [← hsame _ (hthreads thread List.mem_cons_self)]
      exact hseen
    rw [follow_skip hseen, follow_skip hseen']
    exact ih other (fun first hmem => hthreads first (List.mem_cons_of_mem _ hmem)) hsame
  | visit list thread rest hseen ih =>
    have hthread := hthreads thread List.mem_cons_self
    have hseen' : other.seen[thread.pc]? = some false := by
      rw [← hsame _ hthread, hseen]
    rw [follow_visit hseen, follow_visit hseen']
    have hrest : ∀ first ∈ onward program text position thread ++ rest, R first.pc := by
      intro first hmem
      rcases List.mem_append.1 hmem with honward | hrest
      · exact hclosed thread hthread first honward
      · exact hthreads first (List.mem_cons_of_mem _ hrest)
    have hvisited : ∀ pc : Nat, R pc → (visit program list thread).seen[pc]? =
        (visit program other thread).seen[pc]? := by
      intro pc hpc
      rw [getElem?_seen_visit hseen, getElem?_seen_visit hseen', hsame pc hpc]
    -- Both lists get the same mark and the same thread, if any.
    obtain ⟨added, hlist, hother, houtside⟩ := ih (visit program other thread) hrest hvisited
    have hframe : ∀ pc : Nat, ¬ R pc → (follow program text position
        (visit program list thread) (onward program text position thread ++ rest)).seen[pc]? =
        list.seen[pc]? := by
      intro pc hpc
      rw [houtside pc hpc, getElem?_seen_visit hseen, if_neg]
      intro heq
      exact hpc (heq ▸ hthread)
    exact ⟨_, by rw [hlist, waiting_visit, List.append_assoc],
      by rw [hother, waiting_visit, List.append_assoc], hframe⟩

end Machine

end Emend
