import Emend.Proofs.Pattern.Layout
import Emend.Proofs.Pattern.Lockstep

/-!
# Moving code

The code of a node is the same wherever it stands, apart from the targets of its jumps and splits,
which move along with it (`IsProper.code_relocated`). A program that stands further on in another
one therefore does the same there: every step of a run goes through, up to the addresses of the
threads, from the threads followed at one place (`SameList.follow`) to the whole run
(`Relocated.answer`).
-/

namespace Emend

/-- The instruction as it stands `shift` addresses further on. -/
def Instr.relocate (shift : Nat) : Instr → Instr
  | .jump target => .jump (target + shift)
  | .split targets => .split (targets.map (· + shift))
  | instr => instr

/-! ## The code of a node -/

/-- A choice moves with both of its targets. -/
theorem Instr.relocate_choice (shift : Nat) (greedy : Bool) (body exit : Nat) :
    Instr.choice greedy (body + shift) (exit + shift) =
      (Instr.choice greedy body exit).relocate shift := by
  cases greedy <;> rfl

/-- Pieces of code begin further on by the same distance. -/
theorem codeStarts_relocated (shift base : Nat) (pieces : List (List Instr)) :
    codeStarts (base + shift) (pieces.map (·.map (Instr.relocate shift))) =
      (codeStarts base pieces).map (· + shift) := by
  induction pieces generalizing base with
  | nil => rfl
  | cons code rest ih =>
    rw [List.map_cons, codeStarts, codeStarts, List.map_cons, List.length_map, ← ih]
    congr 2
    omega

/-- Joined code moves with its pieces and its exit. -/
theorem joinCode_relocated (shift exit : Nat) (pieces : List (List Instr)) :
    joinCode (exit + shift) (pieces.map (·.map (Instr.relocate shift))) =
      (joinCode exit pieces).map (Instr.relocate shift) := by
  induction pieces with
  | nil => rfl
  | cons code rest ih =>
    by_cases hrest : rest = []
    · subst hrest
      rfl
    · have hmap : rest.map (·.map (Instr.relocate shift)) ≠ [] := by
        rw [Ne, List.map_eq_nil_iff]
        exact hrest
      rw [List.map_cons, Node.joinCode_cons _ hmap, Node.joinCode_cons _ hrest, ih,
        List.map_append, List.map_cons]
      rfl

namespace Node

variable {backward : Bool} {shift base : Nat} {row : List Node} {branches : List (List Node)}

/-- The code of a node further on is its code with the targets moved. -/
def IsRelocated (backward : Bool) (shift : Nat) (node : Node) : Prop :=
  ∀ base, node.code backward (base + shift) =
    (node.code backward base).map (Instr.relocate shift)

/-- A row moves with its nodes. -/
theorem sequenceCode_relocated (h : ∀ node ∈ row, IsRelocated backward shift node) (base : Nat) :
    sequenceCode backward (base + shift) row =
      (sequenceCode backward base row).map (Instr.relocate shift) := by
  induction row generalizing base with
  | nil =>
    rw [sequenceCode, sequenceCode]
    rfl
  | cons node rest ih =>
    have hnode := h node List.mem_cons_self
    have hrest := ih fun other hmem => h other (List.mem_cons_of_mem _ hmem)
    rw [sequenceCode, sequenceCode]
    split
    · dsimp only
      rw [hrest, List.length_map, Nat.add_right_comm, hnode, List.map_append]
    · dsimp only
      rw [hnode, List.length_map, Nat.add_right_comm, hrest, List.map_append]

/-- Branches move with their nodes. -/
theorem branchCodes_relocated
    (h : ∀ branch ∈ branches, ∀ node ∈ branch, IsRelocated backward shift node) (base : Nat) :
    branchCodes backward (base + shift) branches =
      (branchCodes backward base branches).map (·.map (Instr.relocate shift)) := by
  induction branches generalizing base with
  | nil =>
    rw [branchCodes, branchCodes]
    rfl
  | cons branch rest ih =>
    have hbranch := sequenceCode_relocated (h branch List.mem_cons_self) base
    have hrest := ih fun other hmem => h other (List.mem_cons_of_mem _ hmem)
    rw [branchCodes_cons, branchCodes_cons, List.map_cons, hbranch, List.length_map, ← hrest]
    congr 2
    omega

/-- A choice between branches moves with their nodes. -/
theorem choiceCode_relocated
    (h : ∀ branch ∈ branches, ∀ node ∈ branch, IsRelocated backward shift node) (base : Nat) :
    choiceCode backward (base + shift) branches =
      (choiceCode backward base branches).map (Instr.relocate shift) := by
  match branches with
  | [] =>
    rw [choiceCode, choiceCode]
    rfl
  | [branch] =>
    rw [choiceCode, choiceCode]
    exact sequenceCode_relocated (h branch List.mem_cons_self) base
  | branch :: second :: rest =>
    have hlayout : ∀ base, choiceCode backward base (branch :: second :: rest) =
        .split (codeStarts (base + 1)
          (branchCodes backward (base + 1) (branch :: second :: rest))) ::
        joinCode (base + (branchCodes backward (base + 1) (branch :: second :: rest)).length +
          (branchCodes backward (base + 1) (branch :: second :: rest)).flatten.length)
          (branchCodes backward (base + 1) (branch :: second :: rest)) := by
      intro base
      rw [choiceCode, ← branchCodes_cons]
    -- The pieces keep their lengths, so the exit behind them moves as they do.
    rw [hlayout, hlayout, Nat.add_right_comm base shift 1, branchCodes_relocated h,
      codeStarts_relocated, List.length_map, ← List.map_flatten, List.length_map,
      Nat.add_right_comm base shift, Nat.add_right_comm _ shift, joinCode_relocated]
    rfl

/-- **The code of a node can be moved.** -/
theorem IsProper.code_relocated {node : Node} (h : node.IsProper) (backward : Bool) (shift : Nat) :
    IsRelocated backward shift node := by
  intro base
  induction h generalizing base with
  | char c =>
    rw [code, code]
    rfl
  | oneOf set =>
    rw [code, code]
    rfl
  | assert assertion =>
    rw [code, code]
    rfl
  | loop kind greedy proper ih =>
    -- The targets are sums, and the shift is brought to their end.
    cases kind with
    | oneOrMore =>
      rw [code, code, ih, List.map_append, List.length_map, Nat.add_right_comm base shift,
        Nat.add_right_comm _ shift 1, Instr.relocate_choice]
      rfl
    | zeroOrMore =>
      rw [code, code, Nat.add_right_comm base shift 1, ih, List.length_map,
        Nat.add_right_comm base shift, Nat.add_right_comm _ shift 2, Instr.relocate_choice,
        List.map_cons, List.map_append]
      rfl
    | zeroOrOne =>
      rw [code, code, Nat.add_right_comm base shift 1, ih, List.length_map,
        Nat.add_right_comm base shift, Nat.add_right_comm _ shift 1, Instr.relocate_choice,
        List.map_cons]
  | group index nonempty proper ih =>
    cases index with
    | none =>
      rw [code, code]
      exact choiceCode_relocated ih base
    | some index =>
      rw [code, code, Nat.add_right_comm, choiceCode_relocated ih, List.map_cons, List.map_append]
      rfl

end Node

/-! ## Runs -/

/-- A moved instruction is one to wait at if the first one is. -/
@[simp]
theorem Instr.isStop_relocate (shift : Nat) (instr : Instr) :
    (instr.relocate shift).isStop = instr.isStop := by
  cases instr <;> rfl

/-- A moved instruction takes the same characters. -/
@[simp]
theorem Instr.takes_relocate (shift : Nat) (instr : Instr) (c : Char) :
    (instr.relocate shift).takes c = instr.takes c := by
  cases instr <;> rfl

/-- Only an acceptance moves to one. -/
@[simp]
theorem Instr.relocate_eq_accept_iff {shift : Nat} {instr : Instr} :
    instr.relocate shift = .accept ↔ instr = .accept := by
  cases instr <;> simp [relocate]

/-- The thread at the same place of a program that stands `shift` addresses further on. -/
def Thread.relocate (shift : Nat) (thread : Thread) : Thread :=
  { thread with pc := thread.pc + shift }

namespace Machine

/-- The first program stands in the second, `shift` addresses further on and up to its end. -/
def Relocated (shift : Nat) (program moved : Array Instr) : Prop :=
  ∀ pc, moved[pc + shift]? = (program[pc]?).map (Instr.relocate shift)

/-- The second list is the first one, further on, for all that concerns the first. -/
structure SameList (shift : Nat) (list moved : ThreadList) : Prop where
  /-- The same addresses are marked. -/
  seen : ∀ pc, moved.seen[pc + shift]? = list.seen[pc]?
  /-- The same threads wait. -/
  waiting : moved.waiting.toList = list.waiting.toList.map (Thread.relocate shift)

section Relocated

variable {shift : Nat} {program moved : Array Instr} {text : Source} {direction : Direction}
  {bound position : Nat} {c : Char} {list movedList : ThreadList}

/-- The instruction at which a thread stands. -/
theorem Relocated.instr (h : Relocated shift program moved) (thread : Thread) :
    moved[(thread.relocate shift).pc]? = (program[thread.pc]?).map (Instr.relocate shift) :=
  h thread.pc

/-- Whether the address of a thread is marked. -/
theorem SameList.seen_pc (h : SameList shift list movedList) (thread : Thread) :
    movedList.seen[(thread.relocate shift).pc]? = list.seen[thread.pc]? :=
  h.seen thread.pc

/-- A thread goes on as it does in the first program, further on. -/
theorem Relocated.onward (h : Relocated shift program moved) (thread : Thread) :
    onward moved text position (thread.relocate shift) =
      (onward program text position thread).map (Thread.relocate shift) := by
  have hnext : (thread.relocate shift).pc + 1 = thread.pc + 1 + shift :=
    Nat.add_right_comm thread.pc shift 1
  unfold Machine.onward
  rw [h.instr]
  cases program[thread.pc]? with
  | none => rfl
  | some instr =>
    cases instr with
    | char c => rfl
    | oneOf set => rfl
    | accept => rfl
    | jump target => rfl
    | assert assertion =>
      simp only [Option.map_some, Instr.relocate]
      rw [hnext]
      split <;> rfl
    | save slot =>
      simp only [Option.map_some, Instr.relocate]
      rw [hnext]
      rfl
    | split targets =>
      simp only [Option.map_some, Instr.relocate, List.map_map]
      rfl

/-- Lists without threads are the same. -/
theorem Relocated.sameList_empty (h : Relocated shift program moved) :
    SameList shift (.empty program.size) (.empty moved.size) := by
  refine ⟨fun pc => ?_, rfl⟩
  -- An address lies in the program just if it does further on.
  have hle : moved.size ≤ pc + shift ↔ program.size ≤ pc := by
    rw [← Array.getElem?_eq_none_iff, ← Array.getElem?_eq_none_iff, h pc, Option.map_eq_none_iff]
  have hlt : pc + shift < moved.size ↔ pc < program.size := by omega
  simp only [ThreadList.empty, Array.getElem?_replicate, hlt]

/-- A visit keeps lists the same. -/
theorem SameList.visit (hlist : SameList shift list movedList)
    (h : Relocated shift program moved) {thread : Thread}
    (hseen : list.seen[thread.pc]? = some false) :
    SameList shift (visit program list thread) (visit moved movedList (thread.relocate shift)) := by
  have hmoved : movedList.seen[(thread.relocate shift).pc]? = some false :=
    (hlist.seen_pc thread).trans hseen
  constructor
  · intro pc
    rw [getElem?_seen_visit hseen, getElem?_seen_visit hmoved, hlist.seen]
    have heq : pc + shift = (thread.relocate shift).pc ↔ pc = thread.pc := Nat.add_right_cancel_iff
    simp only [heq]
  · -- A thread waits at the moved instruction just if it waits at this one.
    have hstop : (moved[(thread.relocate shift).pc]?).any Instr.isStop =
        (program[thread.pc]?).any Instr.isStop := by
      rw [h.instr, Option.any_map]
      congr 1
      funext instr
      exact instr.isStop_relocate shift
    rw [waiting_visit, waiting_visit, hlist.waiting, hstop, List.map_append]
    split <;> rfl

/-- **Following threads further on** is following them here. -/
theorem SameList.follow (hlist : SameList shift list movedList)
    (h : Relocated shift program moved) (threads : List Thread) :
    SameList shift (follow program text position list threads)
      (follow moved text position movedList (threads.map (Thread.relocate shift))) := by
  -- Both stacks are worked off together: a thread is dropped further on just if it is dropped here.
  induction list, threads using follow_induction program text position generalizing movedList with
  | nil list =>
    rw [List.map_nil, follow_nil, follow_nil]
    exact hlist
  | skip list thread rest hseen ih =>
    have hmoved : movedList.seen[(thread.relocate shift).pc]? ≠ some false := by
      rw [hlist.seen_pc]
      exact hseen
    rw [List.map_cons, follow_skip hseen, follow_skip hmoved]
    exact ih hlist
  | visit list thread rest hseen ih =>
    have hmoved : movedList.seen[(thread.relocate shift).pc]? = some false :=
      (hlist.seen_pc thread).trans hseen
    rw [List.map_cons, follow_visit hseen, follow_visit hmoved, h.onward, ← List.map_append]
    exact ih (hlist.visit h hseen)

/-- A thread accepts further on if it accepts here. -/
theorem Relocated.accepts (h : Relocated shift program moved) (thread : Thread) :
    accepts moved (thread.relocate shift) = accepts program thread := by
  unfold Machine.accepts
  rw [h.instr]
  cases program[thread.pc]? with
  | none => rfl
  | some instr =>
    simp only [Option.map_some, Option.some.injEq, Instr.relocate_eq_accept_iff]

/-- A thread takes a character further on if it takes it here. -/
theorem Relocated.takes (h : Relocated shift program moved) (thread : Thread) :
    takes moved c (thread.relocate shift) = takes program c thread := by
  unfold Machine.takes
  rw [h.instr, Option.any_map]
  congr 1
  funext instr
  exact instr.takes_relocate shift c

/-- Further on the same thread is the first to accept. -/
theorem Relocated.accepted (h : Relocated shift program moved) (threads : List Thread) :
    accepted moved (threads.map (Thread.relocate shift)) = accepted program threads := by
  have haccepts : Machine.accepts moved ∘ Thread.relocate shift = Machine.accepts program :=
    funext h.accepts
  unfold Machine.accepted
  rw [List.find?_map, haccepts, Option.map_map]
  rfl

/-- Further on the same threads are not outranked. -/
theorem Relocated.going (h : Relocated shift program moved) (threads : List Thread) :
    going moved (threads.map (Thread.relocate shift)) =
      (going program threads).map (Thread.relocate shift) := by
  have haccepts : (!Machine.accepts moved ·) ∘ Thread.relocate shift =
      (!Machine.accepts program ·) := funext fun thread => congrArg not (h.accepts thread)
  unfold Machine.going
  rw [List.takeWhile_map, haccepts]

/-- Further on the same threads take a character. -/
theorem Relocated.taken (h : Relocated shift program moved) (threads : List Thread) :
    taken moved c (threads.map (Thread.relocate shift)) =
      (taken program c threads).map (Thread.relocate shift) := by
  have htakes : Machine.takes moved c ∘ Thread.relocate shift = Machine.takes program c :=
    funext h.takes
  unfold Machine.taken
  rw [List.filter_map, htakes, List.map_map, List.map_map]
  congr 1
  funext thread
  exact congrArg (Thread.mk · thread.slots) (Nat.add_right_comm thread.pc shift 1)

/-- Further on the same threads wait at the next place. -/
theorem Relocated.ahead (h : Relocated shift program moved) (threads : List Thread) :
    ahead moved text position c (threads.map (Thread.relocate shift)) =
      (ahead program text position c threads).map (Thread.relocate shift) := by
  unfold Machine.ahead
  rw [h.taken]
  exact (h.sameList_empty.follow h _).waiting

/-- Further on a run comes to the same. -/
theorem Relocated.loop (h : Relocated shift program moved) (threads : List Thread)
    (best : Option Slots) :
    loop moved text bound direction position (threads.map (Thread.relocate shift)) best =
      loop program text bound direction position threads best := by
  induction position using loop_induction text direction generalizing threads best with
  | step position ih =>
    rw [loop_eq, loop_eq threads, h.accepted, h.going]
    split
    · rfl
    · split
      · rfl
      · next c hnext =>
        rw [h.ahead]
        exact ih c hnext _ _

/-- **A run from further on** answers what the run from here answers. -/
theorem Relocated.answer (h : Relocated shift program moved) (thread : Thread) :
    answer moved text bound direction position (thread.relocate shift) =
      answer program text bound direction position thread := by
  have hlist : SameList shift (Machine.follow program text position (.empty program.size) [thread])
      (Machine.follow moved text position (.empty moved.size) [thread.relocate shift]) :=
    h.sameList_empty.follow h [thread]
  unfold Machine.answer
  rw [← h.loop, ← hlist.waiting]

end Relocated

end Machine

end Emend
