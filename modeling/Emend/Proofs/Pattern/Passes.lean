import Emend.Pattern.Meaning
import Emend.Proofs.Pattern.Steps

/-!
# How a thread passes a node

Between the meaning of a tree and its program stands `Node.Passes`: from which place to which a
thread passes a node in the direction of the walk, and how what it has noted changes on the way. It
follows the tree, as the meaning does, but the nodes of a branch are taken in the order of the walk,
and groups note where they begin and end.

A node is passed just between the places that bound a range it matches (`Passes.covers`,
`Covers.exists_passes`). What a thread has noted changes in the slots of the node's own groups only
(`Passes.kept`).
-/

namespace Emend

namespace Node

variable {text : Source} {direction : Direction} {node : Node} {position other : Nat}
  {slots noted : Slots}

mutual

/-- A thread passes a node from one place to another, and ends with other slots. -/
inductive Passes (text : Source) (direction : Direction) :
    Node → Nat → Slots → Nat → Slots → Prop where
  /-- A character is passed. -/
  | char {c : Char} {position : Nat} {slots : Slots}
    (next : text.next? direction position = some c) :
    Passes text direction (.char c) position slots (direction.step position) slots
  /-- A character of the class is passed. -/
  | oneOf {set : CharClass} {c : Char} {position : Nat} {slots : Slots}
    (next : text.next? direction position = some c) (within : set.contains c = true) :
    Passes text direction (.oneOf set) position slots (direction.step position) slots
  /-- An assertion is passed where it holds. -/
  | assert {assertion : Assertion} {position : Nat} {slots : Slots}
    (holds : assertion.holds text position = true) :
    Passes text direction (.assert assertion) position slots position slots
  /-- A repetition other than `+` may be left out. -/
  | skip {kind : Repetition} {greedy : Bool} {child : Node} {position : Nat} {slots : Slots}
    (optional : kind ≠ .oneOrMore) :
    Passes text direction (.loop kind greedy child) position slots position slots
  /-- A repetition is passed in one round. -/
  | once {kind : Repetition} {greedy : Bool} {child : Node} {position other : Nat}
    {slots noted : Slots} (round : Passes text direction child position slots other noted) :
    Passes text direction (.loop kind greedy child) position slots other noted
  /-- A repetition other than `?` goes on after a round. -/
  | again {kind : Repetition} {greedy : Bool} {child : Node} {position middle other : Nat}
    {slots between noted : Slots} (repeated : kind ≠ .zeroOrOne)
    (round : Passes text direction child position slots middle between)
    (rest : Passes text direction (.loop kind greedy child) middle between other noted) :
    Passes text direction (.loop kind greedy child) position slots other noted
  /-- A group that is not remembered is passed by one of its branches. -/
  | plain {branches : List (List Node)} {branch : List Node} {position other : Nat}
    {slots noted : Slots} (chosen : branch ∈ branches)
    (row : PassesRow text direction branch position slots other noted) :
    Passes text direction (.group none branches) position slots other noted
  /-- A group that is remembered notes where it is entered and where it is left. -/
  | remembered {index : Nat} {branches : List (List Node)} {branch : List Node}
    {position other : Nat} {slots noted : Slots} (chosen : branch ∈ branches)
    (row : PassesRow text direction branch position
      (slots.setIfInBounds (2 * index) (some position)) other noted) :
    Passes text direction (.group (some index) branches) position slots other
      (noted.setIfInBounds (2 * index + 1) (some other))

/-- A thread passes the nodes of a branch. -/
inductive PassesRow (text : Source) (direction : Direction) :
    List Node → Nat → Slots → Nat → Slots → Prop where
  /-- No nodes. -/
  | nil {position : Nat} {slots : Slots} : PassesRow text direction [] position slots position slots
  /-- On the way forward the first node comes first. -/
  | first {node : Node} {rest : List Node} {position middle other : Nat}
    {slots between noted : Slots} (walk : direction = .forward)
    (here : Passes text direction node position slots middle between)
    (others : PassesRow text direction rest middle between other noted) :
    PassesRow text direction (node :: rest) position slots other noted
  /-- On the way backward the first node comes last. -/
  | last {node : Node} {rest : List Node} {position middle other : Nat}
    {slots between noted : Slots} (walk : direction = .backward)
    (others : PassesRow text direction rest position slots middle between)
    (here : Passes text direction node middle between other noted) :
    PassesRow text direction (node :: rest) position slots other noted

end

/-! ## Passing and matching -/

/-- The node matches the range between two places of a walk. -/
def Covers (text : Source) (node : Node) : Direction → Nat → Nat → Prop
  | .forward, position, other => node.Matches text position other
  | .backward, position, other => node.Matches text other position

/-- The nodes of a branch match the range between two places of a walk. -/
def CoversRow (text : Source) (row : List Node) : Direction → Nat → Nat → Prop
  | .forward, position, other => MatchesRow text row position other
  | .backward, position, other => MatchesRow text row other position

/-- A range of one character. -/
theorem covers_next {c : Char} (h : text.next? direction position = some c)
    (hmatches : ∀ start, text.charAt? start = some c → node.Matches text start (start + 1)) :
    Covers text node direction position (direction.step position) := by
  cases direction with
  | forward => exact hmatches position h
  | backward =>
    cases position with
    | zero => cases h
    | succ n => exact hmatches n h

/-- Induction on the rounds of a repetition that a range consists of. -/
theorem Matches.rounds {kind : Repetition} {greedy : Bool} {child : Node}
    {P : Nat → Nat → Prop} (skip : ∀ start, kind ≠ .oneOrMore → P start start)
    (once : ∀ start stop, Matches text child start stop → P start stop)
    (again : ∀ start middle stop, kind ≠ .zeroOrOne → Matches text child start middle →
      P middle stop → P start stop) {start stop : Nat}
    (h : Matches text (.loop kind greedy child) start stop) : P start stop := by
  -- The rounds are of one repetition, which the motive fixes; other nodes do not occur.
  refine h.rec (motive_1 := fun node start stop _ => node = .loop kind greedy child → P start stop)
    (motive_2 := fun _ _ _ _ => True) ?_ ?_ ?_ ?skip ?once ?again ?_ trivial ?cons rfl
  case skip =>
    rintro kind greedy child start optional heq
    cases heq
    exact skip start optional
  case once =>
    rintro kind greedy child start stop round _ heq
    cases heq
    exact once start stop round
  case again =>
    rintro kind greedy child start middle stop repeated round _ _ ih heq
    cases heq
    exact again start middle stop repeated round (ih rfl)
  case cons => exact fun _ _ _ _ => trivial
  all_goals
    intros
    rename_i heq
    cases heq

/-- One more round may follow the others, and not only come before them. -/
theorem Matches.snoc {kind : Repetition} {greedy : Bool} {child : Node} {start middle stop : Nat}
    (h : Matches text (.loop kind greedy child) start middle) (repeated : kind ≠ .zeroOrOne)
    (round : Matches text child middle stop) :
    Matches text (.loop kind greedy child) start stop := by
  revert round
  refine h.rounds (P := fun start middle => Matches text child middle stop →
    Matches text (.loop kind greedy child) start stop) ?_ ?_ ?_
  · exact fun _ _ round => .once round
  · exact fun _ _ first round => .again repeated first (.once round)
  · exact fun _ _ _ _ first ih round => .again repeated first (ih round)

/-- Induction on the rounds in which a thread passes a repetition. -/
theorem Passes.rounds {kind : Repetition} {greedy : Bool} {child : Node}
    {P : Nat → Slots → Nat → Slots → Prop}
    (skip : ∀ position slots, kind ≠ .oneOrMore → P position slots position slots)
    (once : ∀ position slots other noted, Passes text direction child position slots other noted →
      P position slots other noted)
    (again : ∀ position slots middle between other noted, kind ≠ .zeroOrOne →
      Passes text direction child position slots middle between → P middle between other noted →
      P position slots other noted)
    (h : Passes text direction (.loop kind greedy child) position slots other noted) :
    P position slots other noted := by
  -- As for the meaning, the motive fixes the repetition.
  refine h.rec (motive_1 := fun node position slots other noted _ =>
      node = .loop kind greedy child → P position slots other noted)
    (motive_2 := fun _ _ _ _ _ _ => True) ?_ ?_ ?_ ?skip ?once ?again ?_ ?_ trivial ?first ?last rfl
  case skip =>
    rintro kind greedy child position slots optional heq
    cases heq
    exact skip position slots optional
  case once =>
    rintro kind greedy child position other slots noted round _ heq
    cases heq
    exact once position slots other noted round
  case again =>
    rintro kind greedy child position middle other slots between noted repeated round _ _ ih heq
    cases heq
    exact again position slots middle between other noted repeated round (ih rfl)
  case first => exact fun _ _ _ _ _ => trivial
  case last => exact fun _ _ _ _ _ => trivial
  all_goals
    intros
    rename_i heq
    cases heq

/-- A repetition can be passed with one more round at its end. -/
theorem Passes.snoc {kind : Repetition} {greedy : Bool} {child : Node} {middle : Nat}
    {between : Slots}
    (h : Passes text direction (.loop kind greedy child) position slots middle between)
    (repeated : kind ≠ .zeroOrOne)
    (round : Passes text direction child middle between other noted) :
    Passes text direction (.loop kind greedy child) position slots other noted := by
  revert round
  refine h.rounds (P := fun position slots middle between =>
    Passes text direction child middle between other noted →
    Passes text direction (.loop kind greedy child) position slots other noted) ?_ ?_ ?_
  · exact fun _ _ _ round => .once round
  · exact fun _ _ _ _ first round => .again repeated first (.once round)
  · exact fun _ _ _ _ _ _ _ first ih round => .again repeated first (ih round)

/-- A range after a round. -/
theorem covers_again {kind : Repetition} {greedy : Bool} {child : Node} {middle : Nat}
    (repeated : kind ≠ .zeroOrOne) (round : Covers text child direction position middle)
    (rest : Covers text (.loop kind greedy child) direction middle other) :
    Covers text (.loop kind greedy child) direction position other := by
  cases direction with
  | forward => exact .again repeated round rest
  | backward => exact Matches.snoc rest repeated round

/-- A range of a group. -/
theorem covers_group {index : Option Nat} {branches : List (List Node)} {branch : List Node}
    (chosen : branch ∈ branches) (row : CoversRow text branch direction position other) :
    Covers text (.group index branches) direction position other := by
  cases direction <;> exact .group chosen row

/-- **What a thread passes is matched.** -/
theorem Passes.covers (h : Passes text direction node position slots other noted) :
    Covers text node direction position other := by
  refine h.rec
    (motive_1 := fun node position _ other _ _ => Covers text node direction position other)
    (motive_2 := fun row position _ other _ _ => CoversRow text row direction position other)
    ?char ?oneOf ?assert ?skip ?once ?again ?plain ?remembered ?nil ?first ?last
  case char => exact fun next => covers_next next fun _ here => .char here
  case oneOf => exact fun next within => covers_next next fun _ here => .oneOf here within
  case assert =>
    intro assertion position _ holds
    cases direction <;> exact .assert holds
  case skip =>
    intro kind greedy child position _ optional
    cases direction <;> exact .skip optional
  case once =>
    intro kind greedy child position other _ _ _ round
    cases direction <;> exact .once round
  case again => exact fun repeated _ _ round rest => covers_again repeated round rest
  case plain => exact fun chosen _ row => covers_group chosen row
  case remembered => exact fun chosen _ row => covers_group chosen row
  case nil =>
    intro position _
    cases direction <;> exact .nil
  -- Either way the first node matches the beginning of the range.
  case first =>
    intro node rest position middle other _ _ _ walk _ _ here others
    subst walk
    exact .cons here others
  case last =>
    intro node rest position middle other _ _ _ walk _ _ others here
    subst walk
    exact .cons here others

/-- A thread passes a node from the beginning of a range that it matches. -/
theorem Matches.exists_passes {start stop : Nat} (h : Matches text node start stop)
    (slots : Slots) : ∃ noted, Passes text .forward node start slots stop noted := by
  revert slots
  refine h.rec (motive_1 := fun node start stop _ => ∀ slots, ∃ noted,
      Passes text .forward node start slots stop noted)
    (motive_2 := fun row start stop _ => ∀ slots, ∃ noted,
      PassesRow text .forward row start slots stop noted)
    ?char ?oneOf ?assert ?skip ?once ?again ?group ?nil ?cons
  -- One constructor of the thread's way for each of the meaning, with the slots passed along.
  case char => exact fun here slots => ⟨slots, .char here⟩
  case oneOf => exact fun here within slots => ⟨slots, .oneOf here within⟩
  case assert => exact fun holds slots => ⟨slots, .assert holds⟩
  case skip => exact fun optional slots => ⟨slots, .skip optional⟩
  case once =>
    intro kind greedy child start stop _ round slots
    obtain ⟨noted, hround⟩ := round slots
    exact ⟨noted, .once hround⟩
  case again =>
    intro kind greedy child start middle stop repeated _ _ round rest slots
    obtain ⟨between, hround⟩ := round slots
    obtain ⟨noted, hrest⟩ := rest between
    exact ⟨noted, .again repeated hround hrest⟩
  case group =>
    intro index branches branch start stop chosen _ row slots
    cases index with
    | none =>
      obtain ⟨noted, hrow⟩ := row slots
      exact ⟨noted, .plain chosen hrow⟩
    | some index =>
      obtain ⟨noted, hrow⟩ := row (slots.setIfInBounds (2 * index) (some start))
      exact ⟨_, .remembered chosen hrow⟩
  case nil => exact fun slots => ⟨slots, .nil⟩
  case cons =>
    intro node rest start middle stop _ _ first others slots
    obtain ⟨between, hfirst⟩ := first slots
    obtain ⟨noted, hothers⟩ := others between
    exact ⟨noted, .first rfl hfirst hothers⟩

/-- A thread passes a node from the end of a range that it matches. -/
theorem Matches.exists_passes_back {start stop : Nat} (h : Matches text node start stop)
    (slots : Slots) : ∃ noted, Passes text .backward node stop slots start noted := by
  revert slots
  -- As for the walk forward, but with the last part first.
  refine h.rec (motive_1 := fun node start stop _ => ∀ slots, ∃ noted,
      Passes text .backward node stop slots start noted)
    (motive_2 := fun row start stop _ => ∀ slots, ∃ noted,
      PassesRow text .backward row stop slots start noted)
    ?char ?oneOf ?assert ?skip ?once ?again ?group ?nil ?cons
  case char =>
    intro c start here slots
    have hnext : text.next? .backward (start + 1) = some c := here
    exact ⟨slots, .char hnext⟩
  case oneOf =>
    intro set c start here within slots
    have hnext : text.next? .backward (start + 1) = some c := here
    exact ⟨slots, .oneOf hnext within⟩
  case assert => exact fun holds slots => ⟨slots, .assert holds⟩
  case skip => exact fun optional slots => ⟨slots, .skip optional⟩
  case once =>
    intro kind greedy child start stop _ round slots
    obtain ⟨noted, hround⟩ := round slots
    exact ⟨noted, .once hround⟩
  case again =>
    -- The last round is passed first.
    intro kind greedy child start middle stop repeated _ _ round rest slots
    obtain ⟨between, hrest⟩ := rest slots
    obtain ⟨noted, hround⟩ := round between
    exact ⟨noted, hrest.snoc repeated hround⟩
  case group =>
    intro index branches branch start stop chosen _ row slots
    cases index with
    | none =>
      obtain ⟨noted, hrow⟩ := row slots
      exact ⟨noted, .plain chosen hrow⟩
    | some index =>
      obtain ⟨noted, hrow⟩ := row (slots.setIfInBounds (2 * index) (some stop))
      exact ⟨_, .remembered chosen hrow⟩
  case nil => exact fun slots => ⟨slots, .nil⟩
  case cons =>
    intro node rest start middle stop _ _ first others slots
    obtain ⟨between, hothers⟩ := others slots
    obtain ⟨noted, hfirst⟩ := first between
    exact ⟨noted, .last rfl hothers hfirst⟩

/-- **What is matched can be passed.** -/
theorem Covers.exists_passes (h : Covers text node direction position other) (slots : Slots) :
    ∃ noted, Passes text direction node position slots other noted := by
  cases direction with
  | forward => exact Matches.exists_passes h slots
  | backward => exact Matches.exists_passes_back h slots

/-! ## What a thread has noted -/

/-- A thread passes a node in the direction of the walk. -/
theorem Passes.ahead (h : Passes text direction node position slots other noted) :
    direction.Ahead position other := by
  have hcovers := h.covers
  cases direction with
  | forward => exact Matches.le hcovers
  | backward => exact Matches.le hcovers

/-- A row is passed in the direction of the walk. -/
theorem PassesRow.ahead {row : List Node}
    (h : PassesRow text direction row position slots other noted) :
    direction.Ahead position other :=
  (Passes.plain (List.mem_singleton_self row) h).ahead

/-- Only slots of groups with these numbers have changed. -/
structure Kept (numbers : List Nat) (slots noted : Slots) : Prop where
  /-- There are as many slots as before. -/
  size : noted.size = slots.size
  /-- The slots of other groups are the same. -/
  others : ∀ slot : Nat, slot / 2 ∉ numbers → noted[slot]? = slots[slot]?

/-- Slots that do not change are kept. -/
theorem Kept.refl (numbers : List Nat) (slots : Slots) : Kept numbers slots slots :=
  ⟨rfl, fun _ _ => rfl⟩

/-- What is kept twice is kept, but for the groups of either step. -/
theorem Kept.trans {numbers more all : List Nat} {slots between noted : Slots}
    (h : Kept numbers slots between) (h' : Kept more between noted)
    (hnumbers : numbers ⊆ all) (hmore : more ⊆ all) : Kept all slots noted := by
  refine ⟨h'.size.trans h.size, fun slot hslot => ?_⟩
  rw [h'.others slot fun hmem => hslot (hmore hmem), h.others slot fun hmem =>
    hslot (hnumbers hmem)]

/-- Noting a place in a slot of a group. -/
theorem kept_set {slot : Nat} (index : Nat) (hslot : slot / 2 = index) (slots : Slots)
    (place : Option Nat) : Kept [index] slots (slots.setIfInBounds slot place) := by
  refine ⟨Array.size_setIfInBounds, fun other hother => ?_⟩
  rw [Array.getElem?_setIfInBounds_ne]
  rintro rfl
  exact hother (List.mem_singleton.2 hslot)

/-- The numbers of the groups in a branch. -/
def rowNumbers (row : List Node) : List Nat :=
  (groupsOfRow row).map (·.1)

/-- The numbers of the first node come first. -/
@[simp]
theorem rowNumbers_cons (node : Node) (rest : List Node) :
    rowNumbers (node :: rest) = node.groupNumbers ++ rowNumbers rest := by
  unfold rowNumbers groupNumbers
  rw [groupsOfRow, List.map_append]

/-- The groups in a branch are among those of all branches. -/
theorem rowNumbers_subset {branch : List Node} {branches : List (List Node)}
    (h : branch ∈ branches) : rowNumbers branch ⊆ (groupsOfBranches branches).map (·.1) := by
  induction branches with
  | nil => cases h
  | cons first rest ih =>
    rw [groupsOfBranches, List.map_append]
    rcases List.mem_cons.1 h with rfl | hrest
    · exact List.subset_append_left _ _
    · exact List.Subset.trans (ih hrest) (List.subset_append_right _ _)

/-- **The slots of other groups stay.** Passing a node changes no slot but those of the groups that
it remembers. -/
theorem Passes.kept (h : Passes text direction node position slots other noted) :
    Kept node.groupNumbers slots noted := by
  refine h.rec
    (motive_1 := fun node _ slots _ noted _ => Kept node.groupNumbers slots noted)
    (motive_2 := fun row _ slots _ noted _ => Kept (rowNumbers row) slots noted)
    ?char ?oneOf ?assert ?skip ?once ?again ?plain ?remembered ?nil ?first ?last
  case char => exact fun _ => .refl _ _
  case oneOf => exact fun _ _ => .refl _ _
  case assert => exact fun _ => .refl _ _
  case skip => exact fun _ => .refl _ _
  case once => exact fun _ round => round
  case again =>
    intro kind greedy child position middle other slots between noted _ _ _ round rest
    exact round.trans rest (List.Subset.refl _) (List.Subset.refl _)
  case plain =>
    intro branches branch position other slots noted chosen _ row
    exact (Kept.refl [] slots).trans row (List.nil_subset _) (rowNumbers_subset chosen)
  case remembered =>
    -- Only the group itself notes where it is entered and left.
    intro index branches branch position other slots noted chosen _ row
    have henter := kept_set index (Nat.mul_div_cancel_left index Nat.two_pos) slots (some position)
    have hleave : Kept [index] noted (noted.setIfInBounds (2 * index + 1) (some other)) :=
      kept_set index (by omega) noted (some other)
    have hindex : [index] ⊆ groupNumbers (.group (some index) branches) :=
      List.cons_subset.2 ⟨List.mem_cons_self, List.nil_subset _⟩
    have hrow : rowNumbers branch ⊆ groupNumbers (.group (some index) branches) :=
      List.Subset.trans (rowNumbers_subset chosen) (List.subset_cons_self _ _)
    exact (henter.trans row hindex hrow).trans hleave (List.Subset.refl _) hindex
  case nil => exact .refl _ _
  case first =>
    intro node rest position middle other slots between noted _ _ _ here others
    rw [rowNumbers_cons]
    exact here.trans others (List.subset_append_left _ _) (List.subset_append_right _ _)
  case last =>
    intro node rest position middle other slots between noted _ _ _ others here
    rw [rowNumbers_cons]
    exact others.trans here (List.subset_append_right _ _) (List.subset_append_left _ _)

end Node

end Emend
