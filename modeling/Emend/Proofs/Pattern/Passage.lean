import Emend.Proofs.Pattern.Layout
import Emend.Proofs.Pattern.Passes

/-!
# Through the code of a node

The code of a node takes a thread from its base to right after it just as the thread passes the
node. A thread that can pass finds a way (`Passes.exists_path`), by induction on how it passes. A
thread that comes from the base to an acceptance passes the node on its way (`IsProper.traced`), by
induction on the node; for a repetition, within it, on the number of steps, since each round leaves
fewer of them.
-/

namespace Emend

namespace Machine

variable {program : Array Instr} {text : Source} {direction : Direction} {bound : Nat}
  {count position stop : Nat} {thread last : Thread} {instr : Instr}

/-! ## Single instructions -/

/-- An assertion lets a thread through where it holds. -/
theorem onward_assert {assertion : Assertion}
    (h : program[thread.pc]? = some (.assert assertion)) :
    onward program text position thread =
      if assertion.holds text position then [{ thread with pc := thread.pc + 1 }] else [] := by
  unfold onward
  rw [h]

/-- A thread that notes a place goes on with the note. -/
theorem onward_save {slot : Nat} (h : program[thread.pc]? = some (.save slot)) :
    onward program text position thread =
      [⟨thread.pc + 1, thread.slots.setIfInBounds slot (some position)⟩] := by
  unfold onward
  rw [h]

/-- A jump leads to its target. -/
theorem onward_jump {target : Nat} (h : program[thread.pc]? = some (.jump target)) :
    onward program text position thread = [{ thread with pc := target }] := by
  unfold onward
  rw [h]

/-- A split leads to its targets, in their order. -/
theorem onward_split {targets : List Nat} (h : program[thread.pc]? = some (.split targets)) :
    onward program text position thread =
      targets.map fun target => { thread with pc := target } := by
  unfold onward
  rw [h]

/-- A choice leads into the body and to the exit, in some order. -/
theorem mem_onward_choice {greedy : Bool} {body exit : Nat}
    (h : program[thread.pc]? = some (.choice greedy body exit)) {next : Thread} :
    next ∈ onward program text position thread ↔
      next = { thread with pc := body } ∨ next = { thread with pc := exit } := by
  rw [onward_split h]
  cases greedy with
  | true => simp
  | false =>
    simp
    exact or_comm

/-- A thread goes on at a successor of its instruction. -/
theorem pc_mem_successors {next : Thread} (h : next ∈ onward program text position thread) :
    ∃ instr, program[thread.pc]? = some instr ∧ next.pc ∈ instr.successors thread.pc := by
  cases hinstr : program[thread.pc]? with
  | none =>
    rw [onward, hinstr] at h
    cases h
  | some instr =>
    refine ⟨instr, rfl, ?_⟩
    cases instr with
    -- From an instruction to wait at a thread goes nowhere.
    | char c => rw [onward_of_stop hinstr rfl] at h; cases h
    | oneOf set => rw [onward_of_stop hinstr rfl] at h; cases h
    | accept => rw [onward_of_stop hinstr rfl] at h; cases h
    | assert assertion =>
      rw [onward_assert hinstr] at h
      split at h
      · rw [List.mem_singleton.1 h]
        exact List.mem_singleton_self _
      · cases h
    | save slot =>
      rw [onward_save hinstr] at h
      rw [List.mem_singleton.1 h]
      exact List.mem_singleton_self _
    | jump target =>
      rw [onward_jump hinstr] at h
      rw [List.mem_singleton.1 h]
      exact List.mem_singleton_self _
    | split targets =>
      rw [onward_split hinstr] at h
      obtain ⟨target, hmem, rfl⟩ := List.mem_map.1 h
      exact hmem

/-- A way to an acceptance from an instruction that takes no character begins with a step that
stays. -/
theorem Path.of_stay (h : Path program text direction bound count position thread stop last)
    (haccept : program[last.pc]? = some .accept) (hinstr : program[thread.pc]? = some instr)
    (hstop : instr.isStop = false) :
    ∃ rest, count = rest + 1 ∧ ∃ next ∈ onward program text position thread,
      Path program text direction bound rest position next stop last := by
  cases h with
  | refl =>
    rw [hinstr] at haccept
    cases haccept
    cases hstop
  | step first rest =>
    cases first with
    | stay goes => exact ⟨_, rfl, _, goes, rest⟩
    | take here takes inside char =>
      rw [hinstr] at here
      cases here
      rw [isStop_of_takes takes] at hstop
      cases hstop

/-- A way to an acceptance from an instruction that waits for a character begins by taking one. -/
theorem Path.of_take (h : Path program text direction bound count position thread stop last)
    (haccept : program[last.pc]? = some .accept) (hinstr : program[thread.pc]? = some instr)
    (hstop : instr.isStop = true) (hne : instr ≠ .accept) :
    ∃ rest c, count = rest + 1 ∧ text.next? direction position = some c ∧ instr.takes c = true ∧
      Path program text direction bound rest (direction.step position)
        { thread with pc := thread.pc + 1 } stop last := by
  cases h with
  | refl =>
    rw [hinstr] at haccept
    cases haccept
    exact absurd rfl hne
  | step first rest =>
    cases first with
    | stay goes =>
      rw [onward_of_stop hinstr hstop] at goes
      cases goes
    | take here takes inside char =>
      rw [hinstr] at here
      cases here
      exact ⟨_, _, rfl, char, takes, rest⟩

/-- A way from an acceptance does not go anywhere. -/
theorem Path.of_accept (h : Path program text direction bound count position thread stop last)
    (hinstr : program[thread.pc]? = some .accept) : stop = position ∧ last = thread := by
  cases h with
  | refl => exact ⟨rfl, rfl⟩
  | step first rest =>
    cases first with
    | stay goes =>
      rw [onward_of_stop hinstr rfl] at goes
      cases goes
    | take here takes inside char =>
      rw [hinstr] at here
      cases here
      cases takes

/-- A way stays before the bound. -/
theorem Path.ahead_bound (h : Path program text direction bound count position thread stop last)
    (hbound : direction.Ahead position bound) : direction.Ahead stop bound := by
  induction h with
  | refl => exact hbound
  | step first rest ih =>
    cases first with
    | stay goes => exact ih hbound
    | take here takes inside char => exact ih (hbound.eq_or_step.resolve_left inside)

end Machine

namespace Node

open Machine

variable {program : Array Instr} {text : Source} {direction : Direction} {bound : Nat}
  {base exit count position stop : Nat} {slots : Slots} {last : Thread}
  {branch : List Node} {branches : List (List Node)}

/-! ## In and out of a branch -/

/-- A thread that has passed a branch comes to the end of the choice. -/
theorem BranchAt.exists_path {start : Nat} {backward : Bool}
    (h : BranchAt program backward exit branch start) (position : Nat) (slots : Slots) :
    ∃ count, Path program text direction bound count position
      ⟨start + (sequenceCode backward start branch).length, slots⟩ position ⟨exit, slots⟩ := by
  rcases h.leave with hexit | hjump
  · rw [hexit]
    exact ⟨0, .refl⟩
  · refine ⟨1, .single (.stay ?_)⟩
    rw [onward_jump hjump]
    exact List.mem_singleton_self _

/-- From there on its way is no longer. -/
theorem BranchAt.path_of_path {start : Nat} {backward : Bool}
    (h : BranchAt program backward exit branch start)
    (hpath : Path program text direction bound count position
      ⟨start + (sequenceCode backward start branch).length, slots⟩ stop last)
    (haccept : program[last.pc]? = some .accept) :
    ∃ rest, rest ≤ count ∧
      Path program text direction bound rest position ⟨exit, slots⟩ stop last := by
  rcases h.leave with hexit | hjump
  · rw [hexit] at hpath
    exact ⟨count, Nat.le_refl _, hpath⟩
  · obtain ⟨rest, rfl, next, hnext, hrest⟩ := hpath.of_stay haccept hjump rfl
    rw [onward_jump hjump] at hnext
    rw [List.mem_singleton.1 hnext] at hrest
    exact ⟨rest, Nat.le_succ _, hrest⟩

/-- What belongs to a member of the first of two related lists. -/
theorem exists_mem_of_forall₂ {α β : Type} {R : α → β → Prop} {xs : List α} {ys : List β} {x : α}
    (h : List.Forall₂ R xs ys) (hmem : x ∈ xs) : ∃ y ∈ ys, R x y := by
  induction h with
  | nil => cases hmem
  | cons hfirst _ ih =>
    rcases List.mem_cons.1 hmem with rfl | hrest
    · exact ⟨_, List.mem_cons_self, hfirst⟩
    · obtain ⟨y, hy, hrel⟩ := ih hrest
      exact ⟨y, List.mem_cons_of_mem _ hy, hrel⟩

/-- Every branch can be entered. -/
theorem exists_enter {backward : Bool}
    (h : CodeAt program base (choiceCode backward base branches)) (chosen : branch ∈ branches) :
    ∃ start, BranchAt program backward (base + (choiceCode backward base branches).length)
      branch start ∧ ∀ position slots, ∃ count,
        Path program text direction bound count position ⟨base, slots⟩ position ⟨start, slots⟩ := by
  have hne : branches ≠ [] := List.ne_nil_of_mem chosen
  rcases choice_cases hne h with ⟨single, rfl, hbranch⟩ | ⟨starts, hsplit, hall⟩
  · rw [List.mem_singleton.1 chosen]
    exact ⟨base, hbranch, fun position slots => ⟨0, .refl⟩⟩
  · obtain ⟨start, hstart, hbranch⟩ := exists_mem_of_forall₂ hall chosen
    refine ⟨start, hbranch, fun position slots => ⟨1, .single (.stay ?_)⟩⟩
    rw [onward_split hsplit]
    exact List.mem_map_of_mem hstart

/-- Only a branch can be entered. -/
theorem exists_entered {backward : Bool} (hne : branches ≠ [])
    (h : CodeAt program base (choiceCode backward base branches))
    (hpath : Path program text direction bound count position ⟨base, slots⟩ stop last)
    (haccept : program[last.pc]? = some .accept) :
    ∃ branch ∈ branches, ∃ start,
      BranchAt program backward (base + (choiceCode backward base branches).length) branch start ∧
        ∃ rest, rest ≤ count ∧
          Path program text direction bound rest position ⟨start, slots⟩ stop last := by
  rcases choice_cases hne h with ⟨single, rfl, hbranch⟩ | ⟨starts, hsplit, hall⟩
  · exact ⟨single, List.mem_singleton_self _, base, hbranch, count, Nat.le_refl _, hpath⟩
  · obtain ⟨rest, rfl, next, hnext, hrest⟩ := hpath.of_stay haccept hsplit rfl
    rw [onward_split hsplit] at hnext
    obtain ⟨start, hstart, rfl⟩ := List.mem_map.1 hnext
    obtain ⟨branch, hmem, hbranch⟩ := exists_mem_of_forall₂ hall.flip hstart
    exact ⟨branch, hmem, start, hbranch, rest, Nat.le_succ _, hrest⟩

/-! ## In and out of a repetition -/

section LoopAt

variable {kind : Repetition} {greedy : Bool} {child : Node} {body : Nat}

/-- A repetition that may be left out can be passed at once. -/
theorem LoopAt.path_skip (h : LoopAt program direction.isBackward kind greedy child base exit body)
    (optional : kind ≠ .oneOrMore) (position : Nat) (slots : Slots) :
    ∃ count, Path program text direction bound count position ⟨base, slots⟩ position
      ⟨exit, slots⟩ :=
  ⟨1, .single (.stay ((mem_onward_choice (h.choice optional)).2 (.inr rfl)))⟩

/-- From the base of a repetition a thread comes to its body. -/
theorem LoopAt.path_enter (h : LoopAt program direction.isBackward kind greedy child base exit body)
    (position : Nat) (slots : Slots) :
    ∃ count, Path program text direction bound count position ⟨base, slots⟩ position
      ⟨body, slots⟩ := by
  by_cases hkind : kind = .oneOrMore
  · rw [h.first hkind]
    exact ⟨0, .refl⟩
  · exact ⟨1, .single (.stay ((mem_onward_choice (h.choice hkind)).2 (.inl rfl)))⟩

/-- From the end of a round it comes back to the base, unless there is one round only. -/
theorem LoopAt.path_again (h : LoopAt program direction.isBackward kind greedy child base exit body)
    (repeated : kind ≠ .zeroOrOne) (position : Nat) (slots : Slots) :
    ∃ count, Path program text direction bound count position
      ⟨body + (child.code direction.isBackward body).length, slots⟩ position ⟨base, slots⟩ := by
  cases kind with
  | oneOrMore => exact ⟨1, .single (.stay ((mem_onward_choice (h.more rfl)).2 (.inl rfl)))⟩
  | zeroOrMore =>
    refine ⟨1, .single (.stay ?_)⟩
    rw [onward_jump (h.back rfl)]
    exact List.mem_singleton_self _
  | zeroOrOne => exact absurd rfl repeated

/-- From the end of a round it comes to the exit. -/
theorem LoopAt.path_leave (h : LoopAt program direction.isBackward kind greedy child base exit body)
    (position : Nat) (slots : Slots) :
    ∃ count, Path program text direction bound count position
      ⟨body + (child.code direction.isBackward body).length, slots⟩ position ⟨exit, slots⟩ := by
  cases kind with
  | oneOrMore => exact ⟨1, .single (.stay ((mem_onward_choice (h.more rfl)).2 (.inr rfl)))⟩
  | zeroOrMore =>
    obtain ⟨back, hback⟩ := h.path_again (by decide) position slots
    obtain ⟨out, hout⟩ := h.path_skip (by decide) position slots
    exact ⟨back + out, hback.trans hout⟩
  | zeroOrOne =>
    rw [h.single rfl]
    exact ⟨0, .refl⟩

/-- A way from the beginning of a repetition leaves it at once or enters the repeated node. -/
theorem LoopAt.entered (h : LoopAt program direction.isBackward kind greedy child base exit body)
    (hpath : Path program text direction bound count position ⟨base, slots⟩ stop last)
    (haccept : program[last.pc]? = some .accept) :
    (kind ≠ .oneOrMore ∧ ∃ rest, rest ≤ count ∧
      Path program text direction bound rest position ⟨exit, slots⟩ stop last) ∨
    ∃ rest, rest ≤ count ∧
      Path program text direction bound rest position ⟨body, slots⟩ stop last := by
  by_cases hkind : kind = .oneOrMore
  · rw [h.first hkind]
    exact .inr ⟨count, Nat.le_refl _, hpath⟩
  · obtain ⟨rest, rfl, next, hnext, hrest⟩ := hpath.of_stay haccept (h.choice hkind) (by rfl)
    rcases (mem_onward_choice (h.choice hkind)).1 hnext with rfl | rfl
    · exact .inr ⟨rest, Nat.le_succ _, hrest⟩
    · exact .inl ⟨hkind, rest, Nat.le_succ _, hrest⟩

/-- A way on after a round leaves the repetition or begins it again, with fewer steps left. -/
theorem LoopAt.left (h : LoopAt program direction.isBackward kind greedy child base exit body)
    (hpath : Path program text direction bound count position
      ⟨body + (child.code direction.isBackward body).length, slots⟩ stop last)
    (haccept : program[last.pc]? = some .accept) :
    (∃ rest, rest ≤ count ∧
      Path program text direction bound rest position ⟨exit, slots⟩ stop last) ∨
    kind ≠ .zeroOrOne ∧ ∃ rest, rest < count ∧
      Path program text direction bound rest position ⟨base, slots⟩ stop last := by
  cases kind with
  | oneOrMore =>
    obtain ⟨rest, rfl, next, hnext, hrest⟩ := hpath.of_stay haccept (h.more rfl) (by rfl)
    rcases (mem_onward_choice (h.more rfl)).1 hnext with rfl | rfl
    · exact .inr ⟨by decide, rest, Nat.lt_succ_self _, hrest⟩
    · exact .inl ⟨rest, Nat.le_succ _, hrest⟩
  | zeroOrMore =>
    obtain ⟨rest, rfl, next, hnext, hrest⟩ := hpath.of_stay haccept (h.back rfl) rfl
    rw [onward_jump (h.back rfl)] at hnext
    rw [List.mem_singleton.1 hnext] at hrest
    exact .inr ⟨by decide, rest, Nat.lt_succ_self _, hrest⟩
  | zeroOrOne =>
    rw [h.single rfl] at hpath
    exact .inl ⟨count, Nat.le_refl _, hpath⟩

end LoopAt

/-! ## Passing is possible -/

/-- A thread that passes a character on its way to the bound is not there yet. -/
theorem ne_bound {c : Char} (hnext : text.next? direction position = some c)
    (hbound : direction.Ahead (direction.step position) bound) : position ≠ bound := by
  rintro rfl
  exact Direction.step_ne hnext (hbound.antisymm (direction.ahead_step position))

/-- A thread can pass a choice by any of its branches. -/
theorem exists_path_choice {backward : Bool} {other : Nat} {noted : Slots}
    (hcode : CodeAt program base (choiceCode backward base branches)) (chosen : branch ∈ branches)
    (hbranch : ∀ {start}, CodeAt program start (sequenceCode backward start branch) →
      ∃ count, Path program text direction bound count position ⟨start, slots⟩ other
        ⟨start + (sequenceCode backward start branch).length, noted⟩) :
    ∃ count, Path program text direction bound count position ⟨base, slots⟩ other
      ⟨base + (choiceCode backward base branches).length, noted⟩ := by
  obtain ⟨start, hstart, henter⟩ := exists_enter hcode chosen
  obtain ⟨enter, henter⟩ := henter position slots
  obtain ⟨inside, hinside⟩ := hbranch hstart.code
  obtain ⟨leave, hleave⟩ := hstart.exists_path other noted
  exact ⟨_, (henter.trans hinside).trans hleave⟩

/-- **A thread that can pass a node finds a way through its code.** -/
theorem Passes.exists_path {node : Node} {other : Nat} {noted : Slots}
    (h : Passes text direction node position slots other noted)
    (hcode : CodeAt program base (node.code direction.isBackward base))
    (hbound : direction.Ahead other bound) :
    ∃ count, Path program text direction bound count position ⟨base, slots⟩ other
      ⟨base + (node.code direction.isBackward base).length, noted⟩ := by
  revert base hcode hbound
  refine h.rec
    (motive_1 := fun node position slots other noted _ => ∀ {base : Nat},
      CodeAt program base (node.code direction.isBackward base) → direction.Ahead other bound →
      ∃ count, Path program text direction bound count position ⟨base, slots⟩ other
        ⟨base + (node.code direction.isBackward base).length, noted⟩)
    (motive_2 := fun row position slots other noted _ => ∀ {base : Nat},
      CodeAt program base (sequenceCode direction.isBackward base row) →
      direction.Ahead other bound →
      ∃ count, Path program text direction bound count position ⟨base, slots⟩ other
        ⟨base + (sequenceCode direction.isBackward base row).length, noted⟩)
    ?char ?oneOf ?assert ?skip ?once ?again ?plain ?remembered ?nil ?first ?last
  case char =>
    intro c position slots next base hcode hbound
    exact ⟨1, .single (.take hcode.head (beq_self_eq_true c) (ne_bound next hbound) next)⟩
  case oneOf =>
    intro set c position slots next within base hcode hbound
    exact ⟨1, .single (.take hcode.head within (ne_bound next hbound) next)⟩
  case assert =>
    intro assertion position slots holds base hcode hbound
    refine ⟨1, .single (.stay ?_)⟩
    rw [onward_assert hcode.head, if_pos holds]
    exact List.mem_singleton_self _
  case skip =>
    intro kind greedy child position slots optional base hcode hbound
    obtain ⟨body, hloop⟩ := exists_loopAt hcode
    exact hloop.path_skip optional position slots
  case once =>
    intro kind greedy child position other slots noted _ round base hcode hbound
    obtain ⟨body, hloop⟩ := exists_loopAt hcode
    obtain ⟨enter, henter⟩ := hloop.path_enter position slots
    obtain ⟨inside, hinside⟩ := round hloop.code hbound
    obtain ⟨leave, hleave⟩ := hloop.path_leave other noted
    exact ⟨_, (henter.trans hinside).trans hleave⟩
  case again =>
    -- After the round the code begins again at its base, where the induction takes over.
    intro kind greedy child position middle other slots between noted repeated _ hrest round rest
      base hcode hbound
    obtain ⟨body, hloop⟩ := exists_loopAt hcode
    obtain ⟨enter, henter⟩ := hloop.path_enter position slots
    obtain ⟨inside, hinside⟩ := round hloop.code (hrest.ahead.trans hbound)
    obtain ⟨again, hagain⟩ := hloop.path_again repeated middle between
    obtain ⟨more, hmore⟩ := rest hcode hbound
    exact ⟨_, ((henter.trans hinside).trans hagain).trans hmore⟩
  case plain =>
    intro branches branch position other slots noted chosen _ row base hcode hbound
    rw [code] at hcode ⊢
    exact exists_path_choice hcode chosen fun hrow => row hrow hbound
  case remembered =>
    intro index branches branch position other slots noted chosen _ row base hcode hbound
    obtain ⟨henter, hchoice, hleave, hexit⟩ := remembered_cases hcode
    obtain ⟨inside, hinside⟩ := exists_path_choice hchoice chosen fun hrow => row hrow hbound
    rw [hexit]
    -- A note on the way in and one on the way out.
    refine ⟨_, (Path.step (.stay ?_) hinside).trans (.single (.stay ?_))⟩
    · rw [onward_save henter]
      exact List.mem_singleton_self _
    · rw [onward_save hleave]
      exact List.mem_singleton_self _
  case nil =>
    intro position slots base hcode hbound
    rw [sequenceCode]
    exact ⟨0, .refl⟩
  case first =>
    -- The code of a branch is laid out in the order of the walk, so the first node comes first.
    intro node rest position middle other slots between noted walk _ hothers here others base hcode
      hbound
    subst walk
    rw [sequenceCode, if_neg (by decide)] at hcode ⊢
    obtain ⟨first, hfirst⟩ := here hcode.left (hothers.ahead.trans hbound)
    obtain ⟨more, hmore⟩ := others hcode.right hbound
    rw [List.length_append, ← Nat.add_assoc]
    exact ⟨_, hfirst.trans hmore⟩
  case last =>
    intro node rest position middle other slots between noted walk _ hhere others here base hcode
      hbound
    subst walk
    rw [sequenceCode, if_pos (by decide)] at hcode ⊢
    obtain ⟨more, hmore⟩ := others hcode.left (hhere.ahead.trans hbound)
    obtain ⟨first, hfirst⟩ := here hcode.right hbound
    rw [List.length_append, ← Nat.add_assoc]
    exact ⟨_, hmore.trans hfirst⟩

/-! ## Nothing else is possible -/

/-- A way from the base of the node's code to an acceptance passes the node. -/
def Traced (program : Array Instr) (text : Source) (direction : Direction) (bound : Nat)
    (node : Node) : Prop :=
  ∀ {base count position stop : Nat} {slots : Slots} {last : Thread},
    CodeAt program base (node.code direction.isBackward base) →
    Path program text direction bound count position ⟨base, slots⟩ stop last →
    program[last.pc]? = some .accept →
    ∃ other noted, Passes text direction node position slots other noted ∧
      ∃ rest, rest ≤ count ∧ Path program text direction bound rest other
        ⟨base + (node.code direction.isBackward base).length, noted⟩ stop last

/-- A way from the base of a branch's code to an acceptance passes the branch. -/
theorem exists_passesRow {row : List Node}
    (hrow : ∀ node ∈ row, Traced program text direction bound node)
    (hcode : CodeAt program base (sequenceCode direction.isBackward base row))
    (hpath : Path program text direction bound count position ⟨base, slots⟩ stop last)
    (haccept : program[last.pc]? = some .accept) :
    ∃ other noted, PassesRow text direction row position slots other noted ∧
      ∃ rest, rest ≤ count ∧ Path program text direction bound rest other
        ⟨base + (sequenceCode direction.isBackward base row).length, noted⟩ stop last := by
  induction row generalizing base count position slots with
  | nil =>
    rw [sequenceCode]
    exact ⟨position, slots, .nil, count, Nat.le_refl _, hpath⟩
  | cons node rest ih =>
    have hnode : Traced program text direction bound node := hrow node List.mem_cons_self
    have hrest : ∀ other ∈ rest, Traced program text direction bound other :=
      fun other hmem => hrow other (List.mem_cons_of_mem _ hmem)
    cases direction with
    | forward =>
      rw [sequenceCode, if_neg (by decide)] at hcode ⊢
      obtain ⟨middle, between, hhere, inside, hinside, hafter⟩ := hnode hcode.left hpath haccept
      obtain ⟨other, noted, hothers, more, hmore, hexit⟩ := ih hrest hcode.right hafter
      rw [List.length_append, ← Nat.add_assoc]
      exact ⟨other, noted, .first rfl hhere hothers, more, by omega, hexit⟩
    | backward =>
      rw [sequenceCode, if_pos (by decide)] at hcode ⊢
      obtain ⟨middle, between, hothers, inside, hinside, hafter⟩ := ih hrest hcode.left hpath
      obtain ⟨other, noted, hhere, more, hmore, hexit⟩ := hnode hcode.right hafter haccept
      rw [List.length_append, ← Nat.add_assoc]
      exact ⟨other, noted, .last rfl hothers hhere, more, by omega, hexit⟩

/-- A way from the base of a choice to an acceptance passes one of the branches. -/
theorem exists_passesRow_choice (hne : branches ≠ [])
    (hnodes : ∀ branch ∈ branches, ∀ node ∈ branch, Traced program text direction bound node)
    (hcode : CodeAt program base (choiceCode direction.isBackward base branches))
    (hpath : Path program text direction bound count position ⟨base, slots⟩ stop last)
    (haccept : program[last.pc]? = some .accept) :
    ∃ branch ∈ branches, ∃ other noted, PassesRow text direction branch position slots other noted ∧
      ∃ rest, rest ≤ count ∧ Path program text direction bound rest other
        ⟨base + (choiceCode direction.isBackward base branches).length, noted⟩ stop last := by
  obtain ⟨branch, hmem, start, hbranch, enter, henter, hfirst⟩ :=
    exists_entered hne hcode hpath haccept
  obtain ⟨other, noted, hrow, inside, hinside, hsecond⟩ :=
    exists_passesRow (hnodes branch hmem) hbranch.code hfirst haccept
  obtain ⟨leave, hleave, hthird⟩ := hbranch.path_of_path hsecond haccept
  exact ⟨branch, hmem, other, noted, hrow, leave, by omega, hthird⟩

/-- A way from the base of a repetition to an acceptance passes the repetition. -/
theorem Traced.loop {child : Node} (h : Traced program text direction bound child)
    (kind : Repetition) (greedy : Bool) :
    Traced program text direction bound (.loop kind greedy child) := by
  intro base count position stop slots last hcode hpath haccept
  obtain ⟨body, hloop⟩ := exists_loopAt hcode
  -- A round may take no character, but it takes steps.
  induction count using Nat.strongRecOn generalizing position slots with
  | ind count ih =>
    rcases hloop.entered hpath haccept with
      ⟨optional, rest, hle, hexit⟩ | ⟨enter, henter, hinside⟩
    · exact ⟨position, slots, .skip optional, rest, hle, hexit⟩
    · obtain ⟨middle, between, hround, inside, hinsideLe, hafter⟩ := h hloop.code hinside haccept
      rcases hloop.left hafter haccept with ⟨leave, hleave, hexit⟩ | ⟨repeated, back, hback, hagain⟩
      · exact ⟨middle, between, .once hround, leave, by omega, hexit⟩
      · obtain ⟨other, noted, hpasses, rest, hrest, hexit⟩ := ih back (by omega) hagain
        exact ⟨other, noted, .again repeated hround hpasses, rest, by omega, hexit⟩

/-- A way from the base of a group to an acceptance passes the group. -/
theorem Traced.group (hne : branches ≠ [])
    (hnodes : ∀ branch ∈ branches, ∀ node ∈ branch, Traced program text direction bound node)
    (index : Option Nat) : Traced program text direction bound (.group index branches) := by
  intro base count position stop slots last hcode hpath haccept
  cases index with
  | none =>
    rw [code] at hcode ⊢
    obtain ⟨branch, hmem, other, noted, hrow, hrest⟩ :=
      exists_passesRow_choice hne hnodes hcode hpath haccept
    exact ⟨other, noted, .plain hmem hrow, hrest⟩
  | some index =>
    obtain ⟨henter, hchoice, hleave, hexit⟩ := remembered_cases hcode
    -- The first step notes where the group is entered.
    obtain ⟨inside, rfl, next, hnext, hinside⟩ := hpath.of_stay haccept henter rfl
    rw [onward_save henter] at hnext
    rw [List.mem_singleton.1 hnext] at hinside
    obtain ⟨branch, hmem, other, noted, hrow, more, hmore, hafter⟩ :=
      exists_passesRow_choice hne hnodes hchoice hinside haccept
    -- The step after the branch notes where it is left.
    obtain ⟨rest, rfl, last, hlast, hrest⟩ := hafter.of_stay haccept hleave rfl
    rw [onward_save hleave] at hlast
    rw [List.mem_singleton.1 hlast] at hrest
    rw [hexit]
    exact ⟨other, _, .remembered hmem hrow, rest, by omega, hrest⟩

/-- **A thread that comes through the code of a node has passed the node.** -/
theorem IsProper.traced {node : Node} (h : node.IsProper) :
    Traced program text direction bound node := by
  induction h with
  | char c =>
    intro base count position stop slots last hcode hpath haccept
    obtain ⟨rest, d, rfl, hnext, htakes, hrest⟩ :=
      hpath.of_take haccept hcode.head rfl (by simp)
    cases eq_of_beq htakes
    exact ⟨_, slots, .char hnext, rest, Nat.le_succ _, hrest⟩
  | oneOf set =>
    intro base count position stop slots last hcode hpath haccept
    obtain ⟨rest, d, rfl, hnext, htakes, hrest⟩ :=
      hpath.of_take haccept hcode.head rfl (by simp)
    exact ⟨_, slots, .oneOf hnext htakes, rest, Nat.le_succ _, hrest⟩
  | assert assertion =>
    intro base count position stop slots last hcode hpath haccept
    obtain ⟨rest, rfl, next, hnext, hrest⟩ := hpath.of_stay haccept hcode.head rfl
    rw [onward_assert hcode.head] at hnext
    split at hnext
    · next holds =>
      rw [List.mem_singleton.1 hnext] at hrest
      exact ⟨position, slots, .assert holds, rest, Nat.le_succ _, hrest⟩
    · cases hnext
  | loop kind greedy proper ih => exact ih.loop kind greedy
  | group index nonempty proper ih => exact Traced.group nonempty ih index

end Node

end Emend
