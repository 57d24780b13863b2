import Emend.Proofs.Pattern.Layout
import Emend.Proofs.Pattern.Passes

/-!
# The tree that a pattern writes

Whatever `Pattern.build` does with a token, the groups under construction keep their numbers in the
order in which they were opened: those of the outermost group first, and within a group its own
number, those of the branches already ended, and those of the branch being written
(`WellBuilt.numbers`). So the groups of the finished tree are numbered from 0 on without gaps
(`Pattern.groupNumbers_parse`), the whole is group 0, and no group is without branches.
-/

namespace Emend

namespace Node

/-- The numbers of the groups in branches. -/
def branchNumbers (branches : List (List Node)) : List Nat :=
  (groupsOfBranches branches).map (·.1)

/-- The number of a group comes before those of the groups in it. -/
@[simp]
theorem groupNumbers_group (index : Option Nat) (branches : List (List Node)) :
    groupNumbers (.group index branches) = index.toList ++ branchNumbers branches := by
  unfold groupNumbers branchNumbers
  cases index <;> rw [groups] <;> rfl

/-- The numbers of two rows follow each other. -/
@[simp]
theorem rowNumbers_append (row rest : List Node) :
    rowNumbers (row ++ rest) = rowNumbers row ++ rowNumbers rest := by
  induction row with
  | nil => rfl
  | cons node row ih =>
    rw [List.cons_append, rowNumbers_cons, rowNumbers_cons, ih, List.append_assoc]

/-- A row of one node has the numbers of the node. -/
@[simp]
theorem rowNumbers_singleton (node : Node) : rowNumbers [node] = node.groupNumbers := by
  rw [rowNumbers_cons]
  exact List.append_nil _

/-- The numbers of more branches follow. -/
@[simp]
theorem branchNumbers_append (branches rest : List (List Node)) :
    branchNumbers (branches ++ rest) = branchNumbers branches ++ branchNumbers rest := by
  unfold branchNumbers
  induction branches with
  | nil => rfl
  | cons branch branches ih =>
    rw [List.cons_append, groupsOfBranches, groupsOfBranches, List.map_append, List.map_append, ih,
      List.append_assoc]

/-- One branch has the numbers of its row. -/
@[simp]
theorem branchNumbers_singleton (branch : List Node) :
    branchNumbers [branch] = rowNumbers branch := by
  unfold branchNumbers rowNumbers
  rw [groupsOfBranches, groupsOfBranches, List.append_nil]

end Node

namespace GroupFrame

open Node

variable {frame : GroupFrame}

/-- The numbers of a group under construction and of the groups in it, in the order in which they
are written. -/
def numbers (frame : GroupFrame) : List Nat :=
  frame.index.toList ++ branchNumbers frame.branches.reverse ++ rowNumbers frame.nodes.reverse

/-- All nodes of a group under construction are proper. -/
def IsProper (frame : GroupFrame) : Prop :=
  (∀ branch ∈ frame.branches, ∀ node ∈ branch, node.IsProper) ∧
    ∀ node ∈ frame.nodes, node.IsProper

/-- A node adds its numbers to those of the frame. -/
@[simp]
theorem numbers_push (frame : GroupFrame) (node : Node) :
    (frame.push node).numbers = frame.numbers ++ node.groupNumbers := by
  unfold numbers push
  dsimp only
  rw [List.reverse_cons, rowNumbers_append, rowNumbers_singleton, List.append_assoc,
    List.append_assoc, List.append_assoc]

/-- A new branch adds none. -/
@[simp]
theorem numbers_endBranch (frame : GroupFrame) : frame.endBranch.numbers = frame.numbers := by
  unfold numbers endBranch
  dsimp only
  rw [List.reverse_cons, branchNumbers_append, branchNumbers_singleton, List.append_assoc,
    List.append_assoc, List.append_assoc]
  exact congrArg _ (congrArg _ (List.append_nil _))

/-- A closed group has the numbers of its frame. -/
@[simp]
theorem groupNumbers_close (frame : GroupFrame) :
    frame.close.groupNumbers = frame.numbers := by
  rw [← numbers_endBranch]
  unfold close
  rw [groupNumbers_group]
  exact (List.append_nil _).symm

/-- A frame of proper nodes takes another one. -/
theorem IsProper.push (h : frame.IsProper) {node : Node} (hnode : node.IsProper) :
    (frame.push node).IsProper :=
  ⟨h.1, List.forall_mem_cons.2 ⟨hnode, h.2⟩⟩

/-- Another branch keeps a frame proper. -/
theorem IsProper.endBranch (h : frame.IsProper) : frame.endBranch.IsProper := by
  refine ⟨List.forall_mem_cons.2 ⟨fun node hnode => h.2 node (List.mem_reverse.1 hnode), h.1⟩, ?_⟩
  intro node hnode
  cases hnode

/-- A closed frame is a proper node. -/
theorem IsProper.close (h : frame.IsProper) : frame.close.IsProper := by
  refine .group _ (by simp [GroupFrame.endBranch]) fun branch hbranch => ?_
  exact h.endBranch.1 branch (List.mem_reverse.1 hbranch)

end GroupFrame

namespace Pattern

open Node

/-- The groups under construction are proper and numbered in the order in which they were opened,
and the outermost is group 0. -/
structure WellBuilt (next : Nat) (frame : GroupFrame) (outer : List GroupFrame) : Prop where
  /-- The numbers so far. -/
  numbers : (frame :: outer).reverse.flatMap GroupFrame.numbers = List.range next
  /-- The nodes so far. -/
  proper : ∀ other ∈ frame :: outer, other.IsProper
  /-- The whole pattern. -/
  whole : (frame :: outer).getLast?.bind (·.index) = some 0

/-- A change of the innermost group that keeps the numbers. -/
theorem WellBuilt.change {next : Nat} {frame frame' : GroupFrame} {outer : List GroupFrame}
    (h : WellBuilt next frame outer) (hproper : frame'.IsProper)
    (hindex : frame'.index = frame.index) (hnumbers : frame'.numbers = frame.numbers) :
    WellBuilt next frame' outer := by
  refine ⟨?_, ?_, ?_⟩
  · have hframe := h.numbers
    rw [List.reverse_cons, List.flatMap_append] at hframe ⊢
    rw [← hframe, List.flatMap_singleton, List.flatMap_singleton, hnumbers]
  · exact List.forall_mem_cons.2 ⟨hproper, (List.forall_mem_cons.1 h.proper).2⟩
  · have hwhole := h.whole
    cases outer with
    | nil =>
      rw [← hwhole]
      exact hindex
    | cons enclosing outer => exact hwhole

/-- A node without groups in the innermost group. -/
theorem WellBuilt.push {next : Nat} {frame : GroupFrame} {outer : List GroupFrame}
    (h : WellBuilt next frame outer) {node : Node} (hproper : node.IsProper)
    (hnumbers : node.groupNumbers = []) : WellBuilt next (frame.push node) outer := by
  have hframe := (List.forall_mem_cons.1 h.proper).1
  refine h.change (hframe.push hproper) rfl ?_
  rw [GroupFrame.numbers_push, hnumbers, List.append_nil]

/-- A repetition in place of the last node. -/
theorem WellBuilt.loop {next : Nat} {index : Option Nat} {branches : List (List Node)}
    {child : Node} {before : List Node} {outer : List GroupFrame}
    (h : WellBuilt next ⟨index, branches, child :: before⟩ outer) (kind : Repetition)
    (greedy : Bool) :
    WellBuilt next ⟨index, branches, .loop kind greedy child :: before⟩ outer := by
  obtain ⟨hbranches, hnodes⟩ := (List.forall_mem_cons.1 h.proper).1
  obtain ⟨hchild, hbefore⟩ := List.forall_mem_cons.1 hnodes
  refine h.change ⟨hbranches, List.forall_mem_cons.2 ⟨.loop kind greedy hchild, hbefore⟩⟩ rfl ?_
  unfold GroupFrame.numbers
  dsimp only
  rw [List.reverse_cons, List.reverse_cons, rowNumbers_append, rowNumbers_append,
    rowNumbers_singleton, rowNumbers_singleton]
  rfl

/-- A new group. -/
theorem WellBuilt.opened {next : Nat} {frame : GroupFrame} {outer : List GroupFrame}
    (h : WellBuilt next frame outer) (index : Option Nat) {next' : Nat}
    (hnext : List.range next ++ index.toList = List.range next') :
    WellBuilt next' (.opened index) (frame :: outer) := by
  refine ⟨?_, ?_, h.whole⟩
  · rw [List.reverse_cons, List.flatMap_append, h.numbers, List.flatMap_singleton, ← hnext]
    exact congrArg _ ((List.append_nil _).trans (List.append_nil _))
  · exact List.forall_mem_cons.2 ⟨⟨nofun, nofun⟩, h.proper⟩

/-- The end of the innermost group. -/
theorem WellBuilt.close {next : Nat} {frame enclosing : GroupFrame} {outer : List GroupFrame}
    (h : WellBuilt next frame (enclosing :: outer)) :
    WellBuilt next (enclosing.push frame.close) outer := by
  obtain ⟨hframe, hothers⟩ := List.forall_mem_cons.1 h.proper
  obtain ⟨henclosing, houter⟩ := List.forall_mem_cons.1 hothers
  refine ⟨?_, List.forall_mem_cons.2 ⟨henclosing.push hframe.close, houter⟩, ?_⟩
  · -- What the ended group has written comes right behind what the enclosing one had.
    have hnumbers := h.numbers
    rw [List.reverse_cons, List.flatMap_append, List.reverse_cons, List.flatMap_append,
      List.append_assoc, List.flatMap_singleton, List.flatMap_singleton] at hnumbers
    rw [List.reverse_cons, List.flatMap_append, List.flatMap_singleton, GroupFrame.numbers_push,
      GroupFrame.groupNumbers_close, hnumbers]
  · have hwhole := h.whole
    cases outer with
    | nil => exact hwhole
    | cons other outer => exact hwhole

/-- **The tree of a pattern.** Its groups are numbered from 0 on, the whole is group 0, and no group
is without branches. -/
theorem build_ok {next : Nat} {frame : GroupFrame} {outer : List GroupFrame}
    {tokens : List PatternToken} {node : Node} (h : WellBuilt next frame outer)
    (hbuild : build next frame outer tokens = .ok node) :
    node.IsProper ∧ (∃ branches, node = .group (some 0) branches) ∧
      ∃ count, node.groupNumbers = List.range count := by
  induction tokens generalizing next frame outer with
  | nil =>
    cases outer with
    | cons enclosing outer => cases hbuild
    | nil =>
      -- Only the whole pattern is left, and it ends here.
      cases hbuild
      refine ⟨(h.proper frame List.mem_cons_self).close, ?_, next, ?_⟩
      · have hindex : frame.index = some 0 := h.whole
        exact ⟨_, congrArg (Node.group · _) hindex⟩
      · rw [GroupFrame.groupNumbers_close, ← h.numbers]
        exact (List.append_nil _).symm
  | cons token rest ih =>
    have hframe := (List.forall_mem_cons.1 h.proper).1
    cases token with
    | invalid error => cases hbuild
    | char c => exact ih (h.push (.char c) rfl) hbuild
    | oneOf set => exact ih (h.push (.oneOf set) rfl) hbuild
    | assert assertion => exact ih (h.push (.assert assertion) rfl) hbuild
    | bar => exact ih (h.change hframe.endBranch rfl frame.numbers_endBranch) hbuild
    | openGroup capturing =>
      cases capturing with
      | true => exact ih (h.opened (some next) List.range_succ.symm) hbuild
      | false => exact ih (h.opened none (List.append_nil _)) hbuild
    | closeGroup position =>
      cases outer with
      | nil => cases hbuild
      | cons enclosing outer => exact ih h.close hbuild
    | loop kind greedy =>
      rw [build] at hbuild
      obtain ⟨index, branches, nodes⟩ := frame
      cases nodes with
      -- There is nothing to repeat.
      | nil => cases hbuild
      | cons child before => exact ih (h.loop kind greedy) hbuild

/-- **The groups of a pattern** are numbered from 0 on, the whole is group 0, and none of them is
without branches. -/
theorem groupNumbers_parse {pattern : String} {node : Node} (h : parse pattern = .ok node) :
    node.IsProper ∧ (∃ branches, node = .group (some 0) branches) ∧
      ∃ count, node.groupNumbers = List.range count :=
  build_ok ⟨rfl, fun _ hmem => by rw [List.mem_singleton.1 hmem]; exact ⟨nofun, nofun⟩, rfl⟩ h

/-- No group in the whole pattern has its number. -/
theorem zero_notMem_branchNumbers {pattern : String} {branches : List (List Node)}
    (h : parse pattern = .ok (.group (some 0) branches)) : 0 ∉ branchNumbers branches := by
  obtain ⟨_, _, count, hcount⟩ := groupNumbers_parse h
  have hnodup : (List.range count).Nodup := List.nodup_range
  rw [← hcount, groupNumbers_group] at hnodup
  exact (List.nodup_cons.1 hnodup).1

end Pattern

end Emend
