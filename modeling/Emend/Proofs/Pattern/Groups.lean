import Emend.Proofs.Pattern.Backward
import Emend.Proofs.Pattern.Slots
import Mathlib.Data.List.Nodup

/-!
# The groups of a match

A thread notes where it enters a group and where it leaves it, in every round of a repetition anew.
On the way it may hold the one place from this round and the other from an earlier one, but when it
has passed a node, every group in the node is as it was before, or has both places of one passage
(`Passes.tells`). The induction is on the passage, for one group at a time: no other group has its
number, so nothing but its own passages touches its slots.

So the captures of a match tell of each group of the pattern either nothing, or a range within the
match that one of the group's branches matches (`captures_tell`). A run backward notes the right end
of a group first, and its slots are put in order in the end (`inOrder_pair`).
-/

namespace Emend

open Machine

variable {text : Source} {direction : Direction} {first last position other index slot : Nat}
  {node : Node} {slots noted : Slots} {branches : List (List Node)}

namespace Node

/-- What slots tell of a group on a walk from `first` to `last`: nothing, or between which two
places of the walk a thread has passed one of its branches. -/
inductive Tells (text : Source) (direction : Direction) (first last : Nat) (slots : Slots)
    (index : Nat) (branches : List (List Node)) : Prop where
  /-- The group has not been passed. -/
  | nothing (enter : slots[2 * index]? = some none) (leave : slots[2 * index + 1]? = some none)
  /-- One of its branches has been passed. -/
  | passage {entered left : Nat} {branch : List Node}
    (enter : slots[2 * index]? = some (some entered))
    (leave : slots[2 * index + 1]? = some (some left)) (behind : direction.Ahead first entered)
    (before : direction.Ahead left last) (chosen : branch ∈ branches)
    (row : CoversRow text branch direction entered left)

/-- What is told of a group on a walk is told of it when the walk has gone on. -/
theorem Tells.goOn (h : Tells text direction first position slots index branches)
    (hahead : direction.Ahead position other) :
    Tells text direction first other slots index branches := by
  cases h with
  | nothing enter leave => exact .nothing enter leave
  | passage enter leave behind before chosen row =>
    exact .passage enter leave behind (before.trans hahead) chosen row

/-- Only the two slots of a group tell of it. -/
theorem Tells.congr (h : Tells text direction first last slots index branches)
    (henter : noted[2 * index]? = slots[2 * index]?)
    (hleave : noted[2 * index + 1]? = slots[2 * index + 1]?) :
    Tells text direction first last noted index branches := by
  cases h with
  | nothing enter leave => exact .nothing (henter.trans enter) (hleave.trans leave)
  | passage enter leave behind before chosen row =>
    exact .passage (henter.trans enter) (hleave.trans leave) behind before chosen row

/-- A note for another group does not matter. -/
theorem Tells.set (h : Tells text direction first last slots index branches)
    (hslot : slot / 2 ≠ index) (place : Option Nat) :
    Tells text direction first last (slots.setIfInBounds slot place) index branches := by
  refine h.congr (Array.getElem?_setIfInBounds_ne ?_) (Array.getElem?_setIfInBounds_ne ?_)
  · omega
  · omega

/-- Both slots of a group are there. -/
theorem Tells.lt_size (h : Tells text direction first last slots index branches) :
    2 * index + 1 < slots.size := by
  cases h with
  | nothing _ leave => exact (Array.getElem?_eq_some_iff.1 leave).1
  | passage _ leave => exact (Array.getElem?_eq_some_iff.1 leave).1

/-! ## One group of a tree -/

/-- What a thread passes of a branch is matched. -/
theorem PassesRow.covers {row : List Node}
    (h : PassesRow text direction row position slots other noted) :
    CoversRow text row direction position other := by
  -- The meaning speaks of nodes, so the branch is taken as the only one of a group.
  have hcovers := (Passes.plain (List.mem_singleton_self row) h).covers
  have hmatches (start stop : Nat) (hgroup : Matches text (.group none [row]) start stop) :
      MatchesRow text row start stop := by
    cases hgroup with
    | group chosen hrow => exact List.mem_singleton.1 chosen ▸ hrow
  cases direction with
  | forward => exact hmatches position other hcovers
  | backward => exact hmatches other position hcovers

/-- Passing a branch changes no slot but those of the groups in it. -/
theorem PassesRow.kept {row : List Node}
    (h : PassesRow text direction row position slots other noted) :
    Kept (rowNumbers row) slots noted := by
  have hkept := (Passes.plain (List.mem_singleton_self row) h).kept
  rw [groupNumbers_group, branchNumbers_singleton] at hkept
  exact hkept

/-- A group is told of when one of its branches has been passed, if no group in the branch has its
number. -/
theorem PassesRow.tells {branch : List Node}
    (h : PassesRow text direction branch position
      (slots.setIfInBounds (2 * index) (some position)) other noted)
    (hsize : 2 * index + 1 < slots.size) (chosen : branch ∈ branches)
    (hinner : index ∉ rowNumbers branch) (hfirst : direction.Ahead first position) :
    Tells text direction first other (noted.setIfInBounds (2 * index + 1) (some other)) index
      branches := by
  -- The branch leaves the place alone that was noted on entering.
  have hkept := h.kept
  have hlt : 2 * index < slots.size := Nat.lt_of_succ_lt hsize
  have henter : noted[2 * index]? = some (some position) := by
    rw [hkept.others _ (by rwa [Nat.mul_div_cancel_left index Nat.two_pos]),
      Array.getElem?_setIfInBounds_self_of_lt hlt]
  have hnoted : 2 * index + 1 < noted.size := by
    rw [hkept.size, Array.size_setIfInBounds]
    exact hsize
  refine .passage ?_ (Array.getElem?_setIfInBounds_self_of_lt hnoted) hfirst (.refl _ _) chosen
    h.covers
  rw [Array.getElem?_setIfInBounds_ne (by omega), henter]

/-- Among these groups no two have the same number, and the one with the number `index`, if there
is one, has these branches. -/
structure Sole (index : Nat) (branches : List (List Node))
    (groups : List (Nat × List (List Node))) : Prop where
  /-- All numbers are different. -/
  nodup : (groups.map (·.1)).Nodup
  /-- The group has these branches. -/
  only : ∀ others, (index, others) ∈ groups → others = branches

/-- What is the only group among many is the only one among fewer. -/
theorem Sole.sublist {groups fewer : List (Nat × List (List Node))}
    (h : Sole index branches groups) (hsub : fewer.Sublist groups) :
    Sole index branches fewer :=
  ⟨h.nodup.sublist (hsub.map _), fun others hmem => h.only others (hsub.subset hmem)⟩

/-- The groups of a branch are among those of all branches, in their order. -/
theorem groupsOfRow_sublist {branch : List Node} (h : branch ∈ branches) :
    (groupsOfRow branch).Sublist (groupsOfBranches branches) := by
  induction branches with
  | nil => cases h
  | cons firstBranch rest ih =>
    rw [groupsOfBranches]
    rcases List.mem_cons.1 h with rfl | hrest
    · exact List.sublist_append_left _ _
    · exact (ih hrest).trans (List.sublist_append_right _ _)

/-- **Passing a node leaves no group half noted.** What is told of a group before the node is
passed, or the last passage of the group in it, is told of the group afterwards. -/
theorem Passes.tells (h : Passes text direction node position slots other noted)
    (hsole : Sole index branches node.groups) (hfirst : direction.Ahead first position)
    (htells : Tells text direction first position slots index branches) :
    Tells text direction first other noted index branches := by
  revert hsole hfirst htells
  refine h.rec
    (motive_1 := fun node position slots other noted _ => Sole index branches node.groups →
      direction.Ahead first position → Tells text direction first position slots index branches →
      Tells text direction first other noted index branches)
    (motive_2 := fun row position slots other noted _ => Sole index branches (groupsOfRow row) →
      direction.Ahead first position → Tells text direction first position slots index branches →
      Tells text direction first other noted index branches)
    ?char ?oneOf ?assert ?skip ?once ?again ?plain ?remembered ?nil ?first ?last
  case char => exact fun _ _ _ htells => htells.goOn (direction.ahead_step _)
  case oneOf => exact fun _ _ _ _ htells => htells.goOn (direction.ahead_step _)
  case assert => exact fun _ _ _ htells => htells
  case skip => exact fun _ _ _ htells => htells
  case once => exact fun _ round hsole hfirst htells => round hsole hfirst htells
  case again =>
    intro kind greedy child position middle other slots between noted _ hround _ round rest hsole
      hfirst htells
    exact rest hsole (hfirst.trans hround.ahead) (round hsole hfirst htells)
  case plain =>
    intro branches' branch position other slots noted chosen _ row hsole hfirst htells
    rw [groups] at hsole
    exact row (hsole.sublist (groupsOfRow_sublist chosen)) hfirst htells
  case remembered =>
    intro number others branch position other slots noted chosen hrow row hsole hfirst htells
    rw [groups] at hsole
    by_cases hnumber : number = index
    · -- The group itself is passed, and what was told of it before does not matter any more.
      subst hnumber
      obtain rfl := hsole.only others List.mem_cons_self
      have hinner : number ∉ rowNumbers branch := fun hmem =>
        (List.nodup_cons.1 hsole.nodup).1 (rowNumbers_subset chosen hmem)
      exact hrow.tells htells.lt_size chosen hinner hfirst
    · -- Another group is passed, which may hold this one.
      have henter : 2 * number / 2 ≠ index := by omega
      have hleave : (2 * number + 1) / 2 ≠ index := by omega
      have hinside := hsole.sublist
        ((groupsOfRow_sublist chosen).trans (List.sublist_cons_self _ _))
      exact (row hinside hfirst (htells.set henter _)).set hleave _
  case nil => exact fun _ _ htells => htells
  case first =>
    intro node rest position middle other slots between noted _ hhere _ here others hsole hfirst
      htells
    rw [groupsOfRow] at hsole
    exact others (hsole.sublist (List.sublist_append_right _ _)) (hfirst.trans hhere.ahead)
      (here (hsole.sublist (List.sublist_append_left _ _)) hfirst htells)
  case last =>
    intro node rest position middle other slots between noted _ hothers _ others here hsole hfirst
      htells
    rw [groupsOfRow] at hsole
    exact here (hsole.sublist (List.sublist_append_left _ _)) (hfirst.trans hothers.ahead)
      (others (hsole.sublist (List.sublist_append_right _ _)) hfirst htells)

/-- No two groups of a pattern have the same number. -/
theorem sole_of_parse {pattern : String} (hparse : Pattern.parse pattern = .ok node)
    (hmem : (index, branches) ∈ node.groups) : Sole index branches node.groups := by
  obtain ⟨_, _, count, hcount⟩ := Pattern.groupNumbers_parse hparse
  have hnodup : node.groupNumbers.Nodup := by
    rw [hcount]
    exact List.nodup_range
  refine ⟨hnodup, fun others hothers => ?_⟩
  exact congrArg Prod.snd (List.inj_on_of_nodup_map hnodup hothers hmem rfl)

/-- Before a run begins nothing is noted, and there are slots for every group. -/
theorem tells_blank {pattern : String} (hparse : Pattern.parse pattern = .ok node)
    (hmem : (index, branches) ∈ node.groups) (search backward : Bool) :
    Tells text direction position position
      (Array.replicate (Regex.slotsFor (Regex.programOf node search backward)) none) index
      branches := by
  obtain ⟨_, _, count, hcount⟩ := Pattern.groupNumbers_parse hparse
  have hindex : index < count := by
    rw [← List.mem_range, ← hcount]
    exact List.mem_map_of_mem hmem
  have hslots := slotsFor_programOf hparse search backward
  rw [hcount, List.length_range] at hslots
  rw [hslots]
  refine .nothing ?_ ?_
  · rw [Array.getElem?_replicate, if_pos (by omega)]
  · rw [Array.getElem?_replicate, if_pos (by omega)]

end Node

/-! ## The answer of a run -/

/-- The answer of a run is what a thread has noted that passes the tree, from some place of the walk
on. -/
theorem exists_passes_of_answer {pattern : String} (hparse : Pattern.parse pattern = .ok node)
    {bound : Nat} (search : Bool) (hbound : direction.Ahead position bound)
    (hanswer : answer (Regex.programOf node search direction.isBackward).toArray text bound
      direction position ⟨0, slots⟩ = some noted) :
    ∃ start stop, direction.Ahead position start ∧ direction.Ahead stop bound ∧
      node.Passes text direction start slots stop noted := by
  obtain ⟨hproper, _, _⟩ := Pattern.groupNumbers_parse hparse
  cases search with
  | false =>
    obtain ⟨stop, hstop, hpasses⟩ :=
      (compiledAt_anchored node direction).exists_passes hproper hbound hanswer
    exact ⟨position, stop, .refl _ _, hstop, hpasses⟩
  | true =>
    obtain ⟨start, hstart, hstartBound, hfound, _⟩ :=
      answer_lead_some (lead_search hproper direction.isBackward) hbound hanswer
    obtain ⟨stop, hstop, hpasses⟩ :=
      (compiledAt_search node direction).exists_passes hproper hstartBound hfound
    exact ⟨start, stop, hstart, hstop, hpasses⟩

/-- Every pair of slots is put in order by itself. -/
theorem getElem?_orderPairs {list : List (Option Nat)} {index : Nat} {enter leave : Option Nat}
    (henter : list[2 * index]? = some enter) (hleave : list[2 * index + 1]? = some leave) :
    (orderPairs list)[2 * index]? = some (orderPair enter leave).1 ∧
      (orderPairs list)[2 * index + 1]? = some (orderPair enter leave).2 := by
  induction index generalizing list with
  | zero =>
    match list, henter, hleave with
    | _ :: _ :: _, henter, hleave =>
      cases henter
      cases hleave
      exact ⟨rfl, rfl⟩
  | succ index ih =>
    match list, henter, hleave with
    | _ :: _ :: rest, henter, hleave =>
      have henterRest : rest[2 * index]? = some enter := henter
      exact ih henterRest hleave

/-- The slots of a group that was not passed stay unset. -/
theorem inOrder_none (henter : noted[2 * index]? = some none)
    (hleave : noted[2 * index + 1]? = some none) :
    (direction.inOrder noted)[2 * index]? = some none ∧
      (direction.inOrder noted)[2 * index + 1]? = some none := by
  cases direction with
  | forward => exact ⟨henter, hleave⟩
  | backward =>
    rw [← Array.getElem?_toList] at henter hleave
    simp only [Direction.inOrder, List.getElem?_toArray]
    exact getElem?_orderPairs henter hleave

/-- The slots of a group that was passed hold the two ends of the range in the order of the text. -/
theorem inOrder_pair {entered left : Nat} (henter : noted[2 * index]? = some (some entered))
    (hleave : noted[2 * index + 1]? = some (some left)) (hahead : direction.Ahead entered left) :
    (direction.inOrder noted)[2 * index]? = some (some (min entered left)) ∧
      (direction.inOrder noted)[2 * index + 1]? = some (some (max entered left)) := by
  cases direction with
  | forward =>
    have hle : entered ≤ left := hahead
    rw [Nat.min_eq_left hle, Nat.max_eq_right hle]
    exact ⟨henter, hleave⟩
  | backward =>
    have hle : left ≤ entered := hahead
    rw [← Array.getElem?_toList] at henter hleave
    simp only [Direction.inOrder, List.getElem?_toArray]
    have hpair : orderPair (some entered) (some left) = (some left, some entered) := by
      by_cases hlt : left < entered
      · exact if_pos hlt
      · obtain rfl : left = entered := Nat.le_antisymm hle (Nat.le_of_not_lt hlt)
        exact if_neg hlt
    have hslots := getElem?_orderPairs henter hleave
    rw [hpair] at hslots
    rw [Nat.min_eq_right hle, Nat.max_eq_left hle]
    exact hslots

/-- What captures tell of a group: nothing, or a range between two places that one of its branches
matches. -/
def Captures.TellsOf (captures : Captures) (text : Source) (low high index : Nat)
    (branches : List (List Node)) : Prop :=
  (captures.slots[2 * index]? = some none ∧ captures.slots[2 * index + 1]? = some none) ∨
  ∃ start stop, captures.slots[2 * index]? = some (some start) ∧
    captures.slots[2 * index + 1]? = some (some stop) ∧ low ≤ start ∧ start ≤ stop ∧ stop ≤ high ∧
    ∃ branch ∈ branches, Node.MatchesRow text branch start stop

/-- A walk over a branch goes in its direction. -/
theorem Node.CoversRow.ahead {row : List Node} {entered left : Nat}
    (h : Node.CoversRow text row direction entered left) : direction.Ahead entered left := by
  have hle {start stop : Nat} (hrow : Node.MatchesRow text row start stop) : start ≤ stop := by
    have hgroup : Node.Matches text (.group none [row]) start stop :=
      .group (List.mem_singleton_self row) hrow
    exact hgroup.le
  cases direction with
  | forward => exact hle h
  | backward => exact hle h

/-- The branch matches the range between the two ends of the walk. -/
theorem Node.CoversRow.matchesRow {row : List Node} {entered left : Nat}
    (h : Node.CoversRow text row direction entered left) :
    Node.MatchesRow text row (min entered left) (max entered left) := by
  have hahead := h.ahead
  cases direction with
  | forward =>
    rw [Nat.min_eq_left hahead, Nat.max_eq_right hahead]
    exact h
  | backward =>
    rw [Nat.min_eq_right hahead, Nat.max_eq_left hahead]
    exact h

/-- A part of a walk lies within the range of the walk. -/
theorem Direction.Ahead.range_le {entered left : Nat} (hbehind : direction.Ahead first entered)
    (hahead : direction.Ahead entered left) (hbefore : direction.Ahead left last) :
    min first last ≤ min entered left ∧ max entered left ≤ max first last := by
  cases direction <;> simp only [Direction.Ahead] at hbehind hahead hbefore <;> omega

/-- What a thread has noted of a group on its walk is told by the captures. -/
theorem Node.Tells.captures (h : Node.Tells text direction first last noted index branches) :
    Captures.TellsOf ⟨direction.inOrder noted⟩ text (min first last) (max first last) index
      branches := by
  cases h with
  | nothing enter leave => exact .inl (inOrder_none enter leave)
  | @passage entered left branch enter leave behind before chosen row =>
    obtain ⟨hstart, hstop⟩ := inOrder_pair enter leave row.ahead
    obtain ⟨hlow, hhigh⟩ := behind.range_le row.ahead before
    exact .inr ⟨_, _, hstart, hstop, hlow, by omega, hhigh, branch, chosen, row.matchesRow⟩

/-- Putting the ends of ranges in order keeps the number of slots. -/
@[simp]
theorem length_orderPairs (list : List (Option Nat)) :
    (orderPairs list).length = list.length := by
  fun_induction orderPairs list with
  | case1 enter leave rest low high hpair ih => rw [List.length_cons, List.length_cons, ih]; rfl
  | case2 => rfl

/-- Putting slots in order keeps their number. -/
theorem size_inOrder (direction : Direction) (noted : Slots) :
    (direction.inOrder noted).size = noted.size := by
  cases direction with
  | forward => rfl
  | backward =>
    simp only [Direction.inOrder, List.size_toArray, length_orderPairs, Array.length_toList]

/-- The whole match of a walk. -/
theorem captures_inOrder {start stop : Nat} (hzero : noted[0]? = some (some start))
    (hone : noted[1]? = some (some stop)) (hahead : direction.Ahead start stop) :
    Captures.start ⟨direction.inOrder noted⟩ = min start stop ∧
      Captures.stop ⟨direction.inOrder noted⟩ = max start stop := by
  have hentered : noted[2 * 0]? = some (some start) := hzero
  obtain ⟨hlow, hhigh⟩ := inOrder_pair hentered hone hahead
  obtain ⟨hstart, hstop, _⟩ := captures_whole hlow hhigh
  exact ⟨hstart, hstop⟩

/-- A match in a window of the text knows the groups of its pattern. -/
theorem groupCount_of_matchAt {pattern : String} (hparse : Pattern.parse pattern = .ok node)
    {search : Bool} {bound : Nat} (hwindow : direction.Ahead position bound)
    (hposition : position ≤ text.size) (hbound : bound ≤ text.size) {captures : Captures}
    (hmatch : (Regex.ofProgram pattern (Regex.programOf node search direction.isBackward)
      direction.isBackward).matchAt text position bound direction = some captures) :
    captures.groupCount = node.groupNumbers.length := by
  rw [matchAt_ofProgram pattern _ _ direction hposition hbound] at hmatch
  obtain ⟨noted, hanswer, rfl⟩ := Option.map_eq_some_iff.1 hmatch
  obtain ⟨_, _, _, _, hpasses⟩ := exists_passes_of_answer hparse search hwindow hanswer
  have hsize : (direction.inOrder noted).size = 2 * node.groupNumbers.length := by
    rw [size_inOrder, hpasses.kept.size, Array.size_replicate, slotsFor_programOf hparse]
  show (direction.inOrder noted).size / 2 = _
  rw [hsize, Nat.mul_div_cancel_left _ Nat.two_pos]

/-- A run is brought into the text first. -/
theorem matchAt_clamped (regex : Regex) (text : Source) (start bound : Nat)
    (direction : Direction) :
    regex.matchAt text (min start text.size) (min bound text.size) direction =
      regex.matchAt text start bound direction := by
  simp only [Regex.matchAt, Nat.min_assoc, Nat.min_self]

/-- **The groups of a match are well formed.** A run in the direction of its program, searching or
in place, answers captures with two slots for each group of the pattern. The match lies in the
window, as far as that lies in the text; and of each group the captures tell nothing at all, or a
range within the match that one of the group's own branches matches. -/
theorem captures_tell {pattern : String} {search : Bool} {regex : Regex} {direction : Direction}
    (hcompile : Regex.compile pattern search direction.isBackward = .ok regex) (text : Source)
    {start bound : Nat} (hwindow : direction.Ahead start bound) {captures : Captures}
    (hmatch : regex.matchAt text start bound direction = some captures) :
    ∃ node, Pattern.parse pattern = .ok node ∧
      captures.slots.size = 2 * node.groups.length ∧
      min (min start bound) text.size ≤ captures.start ∧ captures.start ≤ captures.stop ∧
      captures.stop ≤ min (max start bound) text.size ∧
      ∀ index branches, (index, branches) ∈ node.groups →
        captures.TellsOf text captures.start captures.stop index branches := by
  obtain ⟨node, hparse, rfl⟩ := node_of_compile hcompile
  refine ⟨node, hparse, ?_⟩
  -- Both ends of the window are brought into the text, where they stay in the direction of the walk.
  have hclamped : direction.Ahead (min start text.size) (min bound text.size) := by
    cases direction with
    | forward =>
      exact Nat.le_min.2 ⟨Nat.le_trans (Nat.min_le_left _ _) hwindow, Nat.min_le_right _ _⟩
    | backward =>
      exact Nat.le_min.2 ⟨Nat.le_trans (Nat.min_le_left _ _) hwindow, Nat.min_le_right _ _⟩
  rw [← matchAt_clamped, matchAt_ofProgram pattern _ _ direction (Nat.min_le_right _ _)
    (Nat.min_le_right _ _)] at hmatch
  obtain ⟨noted, hanswer, rfl⟩ := Option.map_eq_some_iff.1 hmatch
  obtain ⟨first, last, hfirst, hlast, hpasses⟩ :=
    exists_passes_of_answer hparse search hclamped hanswer
  obtain ⟨_, ⟨branches, rfl⟩, _⟩ := Pattern.groupNumbers_parse hparse
  obtain ⟨hzero, hone⟩ :=
    hpasses.slots_whole (two_le_size_slots _) (Pattern.zero_notMem_branchNumbers hparse)
  obtain ⟨hstart, hstop⟩ := captures_inOrder hzero hone hpasses.ahead
  obtain ⟨hlow, hhigh⟩ := hfirst.range_le hpasses.ahead hlast
  rw [hstart, hstop]
  refine ⟨?_, ?_, ?_, ?_, ?_⟩
  · show (direction.inOrder noted).size = _
    rw [size_inOrder, hpasses.kept.size, Array.size_replicate, slotsFor_programOf hparse,
      Node.groupNumbers, List.length_map]
  · omega
  · omega
  · omega
  · intro index branches hmem
    have hblank : Node.Tells text direction first first _ index branches :=
      Node.tells_blank hparse hmem search direction.isBackward
    exact (hpasses.tells (Node.sole_of_parse hparse hmem) (.refl _ _) hblank).captures

/-- A group that is passed in the first of two rounds only: its range is the one of that round. -/
theorem captures_tell_rounds :
    ∃ regex captures, Regex.compile "((a)|b)+" true Direction.forward.isBackward = .ok regex ∧
      Direction.forward.Ahead 0 2 ∧
      regex.matchAt (.ofList "ab".toList) 0 2 .forward = some captures ∧
      captures = ⟨#[some 0, some 2, some 1, some 2, some 0, some 1]⟩ ∧
      captures.TellsOf (.ofList "ab".toList) captures.start captures.stop 2 [[.char 'a']] := by
  have hparse : Pattern.parse "((a)|b)+" = .ok (.group (some 0) [[.loop .oneOrMore true
      (.group (some 1) [[.group (some 2) [[.char 'a']]], [.char 'b']])]]) := by
    cbv
  have hcompile : Regex.compile "((a)|b)+" true Direction.forward.isBackward = .ok ⟨"((a)|b)+",
      #[.split [3, 1], .oneOf .any, .jump 0, .save 0, .save 2, .split [6, 10], .save 4, .char 'a',
        .save 5, .jump 11, .char 'b', .save 3, .split [4, 13], .save 1, .accept], 6, false⟩ := by
    cbv
  have hmatch : Regex.matchAt ⟨"((a)|b)+", #[.split [3, 1], .oneOf .any, .jump 0, .save 0, .save 2,
      .split [6, 10], .save 4, .char 'a', .save 5, .jump 11, .char 'b', .save 3, .split [4, 13],
      .save 1, .accept], 6, false⟩ (.ofList "ab".toList) 0 2 .forward =
      some ⟨#[some 0, some 2, some 1, some 2, some 0, some 1]⟩ := by
    cbv
  have hwindow : Direction.forward.Ahead 0 2 := Nat.zero_le 2
  obtain ⟨node, hnode, _, _, _, _, htells⟩ :=
    captures_tell hcompile (.ofList "ab".toList) hwindow hmatch
  rw [hparse] at hnode
  cases hnode
  exact ⟨_, _, hcompile, hwindow, hmatch, rfl, htells 2 _ (by simp [Node.groups,
    Node.groupsOfBranches, Node.groupsOfRow])⟩

end Emend
