import Emend.Pattern.Preference
import Emend.Proofs.Pattern.Layout
import Emend.Proofs.Pattern.Passes

/-!
# Ways and what is matched

The ways of a node list what the node matches: each of them is a way on which a thread passes the
node forward (`IsProper.passes_of_mem`), and whatever the node matches from a place of the text is
where one of them ends (`Matches.exists_way`). Rounds that match nothing, which the ways of a
repetition leave out, add nothing to what it matches.
-/

namespace Emend

namespace Node

variable {text : Source} {greedy : Bool} {child node : Node} {row : List Node}
  {branches : List (List Node)} {way next other : Way}

/-- In either order there are the ways of another round and the way out. -/
theorem mem_order {again : List Way} :
    next ∈ Way.order greedy again way ↔ next ∈ again ∨ next = way := by
  cases greedy with
  | true => rw [Way.order, if_pos rfl, List.mem_append, List.mem_singleton]
  | false => rw [Way.order, if_neg Bool.false_ne_true, List.mem_cons, or_comm]

/-- A way of any number of rounds leaves at once or begins with a round that moves on. -/
theorem mem_rounds {size : Nat} {round : Way → List Way} :
    other ∈ way.rounds size greedy round ↔ other = way ∨ ∃ next ∈ round way,
      way.position < next.position ∧ next.position ≤ size ∧
        other ∈ next.rounds size greedy round := by
  rw [Way.rounds, mem_order, List.mem_flatMap, or_comm]
  refine or_congr_right (exists_congr fun next => and_congr_right fun _ => ?_)
  split
  · next hmoved => exact ⟨fun h => ⟨hmoved.1, hmoved.2, h⟩, fun h => h.2.2⟩
  · next hmoved => exact ⟨fun h => (by cases h), fun h => absurd ⟨h.1, h.2.1⟩ hmoved⟩

/-- A way of at least one round begins with a round, and ends after it or goes on if it has moved. -/
theorem mem_roundsFromOne {size : Nat} {round : Way → List Way} :
    other ∈ way.roundsFromOne size greedy round ↔ ∃ next ∈ round way, other = next ∨
      way.position < next.position ∧ next.position ≤ size ∧
        other ∈ next.roundsFromOne size greedy round := by
  rw [Way.roundsFromOne, List.mem_flatMap]
  refine exists_congr fun next => and_congr_right fun _ => ?_
  split
  · next hmoved =>
    rw [mem_order, or_comm]
    exact or_congr_right ⟨fun h => ⟨hmoved.1, hmoved.2, h⟩, fun h => h.2.2⟩
  · next hmoved =>
    rw [List.mem_singleton]
    exact ⟨.inl, fun h => h.resolve_right fun h => hmoved ⟨h.1, h.2.1⟩⟩

/-! ## Each way passes the node -/

/-- Each way of the node is one on which a thread passes it. -/
def HasPasses (text : Source) (node : Node) : Prop :=
  ∀ {way next : Way}, next ∈ node.ways text way →
    Passes text .forward node way.position way.slots.toArray next.position next.slots.toArray

/-- Any number of rounds passes a repetition. -/
theorem HasPasses.rounds (h : HasPasses text child)
    (hmem : other ∈ way.rounds text.size greedy (child.ways text)) :
    Passes text .forward (.loop .zeroOrMore greedy child) way.position way.slots.toArray
      other.position other.slots.toArray := by
  induction hleft : text.size - way.position using Nat.strongRecOn generalizing way with
  | ind count ih =>
    rcases mem_rounds.1 hmem with rfl | ⟨next, hround, hmoved, hinside, hrest⟩
    · exact .skip (by decide)
    · exact .again (by decide) (h hround) (ih _ (by omega) hrest rfl)

/-- One round and more pass a repetition that has at least one. -/
theorem HasPasses.roundsFromOne (h : HasPasses text child)
    (hmem : other ∈ way.roundsFromOne text.size greedy (child.ways text)) :
    Passes text .forward (.loop .oneOrMore greedy child) way.position way.slots.toArray
      other.position other.slots.toArray := by
  induction hleft : text.size - way.position using Nat.strongRecOn generalizing way with
  | ind count ih =>
    obtain ⟨next, hround, rfl | ⟨hmoved, hinside, hrest⟩⟩ := mem_roundsFromOne.1 hmem
    · exact .once (h hround)
    · exact .again (by decide) (h hround) (ih _ (by omega) hrest rfl)

/-- The ways of a row pass its nodes one after the other. -/
theorem passesRow_of_mem (hrow : ∀ node ∈ row, HasPasses text node)
    (hmem : next ∈ waysOfRow text row way) :
    PassesRow text .forward row way.position way.slots.toArray next.position
      next.slots.toArray := by
  induction row generalizing way with
  | nil =>
    rw [waysOfRow] at hmem
    rw [List.mem_singleton.1 hmem]
    exact .nil
  | cons node rest ih =>
    rw [waysOfRow] at hmem
    obtain ⟨middle, hfirst, hrest⟩ := List.mem_flatMap.1 hmem
    exact .first rfl (hrow node List.mem_cons_self hfirst)
      (ih (fun other hother => hrow other (List.mem_cons_of_mem _ hother)) hrest)

/-- A way of some branches is a way of one of them. -/
theorem exists_row_of_mem (hmem : next ∈ waysOfBranches text branches way) :
    ∃ branch ∈ branches, next ∈ waysOfRow text branch way := by
  induction branches with
  | nil =>
    rw [waysOfBranches] at hmem
    cases hmem
  | cons branch rest ih =>
    rw [waysOfBranches] at hmem
    rcases List.mem_append.1 hmem with hfirst | hrest
    · exact ⟨branch, List.mem_cons_self, hfirst⟩
    · obtain ⟨other, hother, hnext⟩ := ih hrest
      exact ⟨other, List.mem_cons_of_mem _ hother, hnext⟩

/-- A way of a group passes one of its branches, and notes where if the group is remembered. -/
theorem hasPasses_group (index : Option Nat)
    (h : ∀ branch ∈ branches, ∀ node ∈ branch, HasPasses text node) :
    HasPasses text (.group index branches) := by
  intro way next hmem
  cases index with
  | none =>
    rw [ways] at hmem
    obtain ⟨branch, hbranch, hrow⟩ := exists_row_of_mem hmem
    exact .plain hbranch (passesRow_of_mem (h branch hbranch) hrow)
  | some index =>
    rw [ways] at hmem
    obtain ⟨last, hlast, rfl⟩ := List.mem_map.1 hmem
    obtain ⟨branch, hbranch, hrow⟩ := exists_row_of_mem hlast
    have hpasses := passesRow_of_mem (h branch hbranch) hrow
    -- The notes on the way are those of the thread.
    have henter : (way.note (2 * index)).slots.toArray =
        way.slots.toArray.setIfInBounds (2 * index) (some way.position) :=
      (List.setIfInBounds_toArray _ _ _).symm
    have hleave : (last.note (2 * index + 1)).slots.toArray =
        last.slots.toArray.setIfInBounds (2 * index + 1) (some last.position) :=
      (List.setIfInBounds_toArray _ _ _).symm
    rw [henter] at hpasses
    rw [hleave]
    exact .remembered hbranch hpasses

/-- **Each way is one on which a thread passes the node.** -/
theorem IsProper.hasPasses (h : node.IsProper) : HasPasses text node := by
  induction h with
  -- A character or an assertion has one way, if it holds at the place.
  | char c =>
    intro way next hmem
    rw [ways] at hmem
    split at hmem
    · next here =>
      rw [List.mem_singleton.1 hmem]
      exact .char here
    · cases hmem
  | oneOf set =>
    intro way next hmem
    rw [ways] at hmem
    split at hmem
    · next here =>
      obtain ⟨c, hc, hwithin⟩ := (Option.any_eq_true _ _).1 here
      rw [List.mem_singleton.1 hmem]
      exact .oneOf hc hwithin
    · cases hmem
  | assert assertion =>
    intro way next hmem
    rw [ways] at hmem
    split at hmem
    · next holds =>
      rw [List.mem_singleton.1 hmem]
      exact .assert holds
    · cases hmem
  | loop kind greedy proper ih =>
    -- A repetition has those of its rounds, in the order of its greed.
    intro way next hmem
    cases kind with
    | zeroOrMore =>
      rw [ways] at hmem
      exact ih.rounds hmem
    | oneOrMore =>
      rw [ways] at hmem
      exact ih.roundsFromOne hmem
    | zeroOrOne =>
      rw [ways, mem_order] at hmem
      rcases hmem with hround | rfl
      · exact .once (ih hround)
      · exact .skip (by decide)
  | group index nonempty proper ih =>
    exact hasPasses_group index fun branch hbranch => ih branch hbranch

/-! ## Whatever is matched is a way -/

/-- A match from a place of the text is the end of a way, whatever has been noted before. -/
def HasWay (text : Source) (ways : Way → List Way) (start stop : Nat) : Prop :=
  start ≤ text.size → stop ≤ text.size ∧ ∀ slots, ∃ way ∈ ways ⟨start, slots⟩, way.position = stop

/-- A node that can be passed in place has a way from each place to itself. -/
theorem HasWay.here {ways : Way → List Way} {start : Nat}
    (h : ∀ slots, (⟨start, slots⟩ : Way) ∈ ways ⟨start, slots⟩) : HasWay text ways start start :=
  fun hstart => ⟨hstart, fun slots => ⟨_, h slots, rfl⟩⟩

/-- A node that takes a character has a way to the next place. -/
theorem hasWay_next {ways : Way → List Way} {start : Nat} {c : Char}
    (here : text.charAt? start = some c)
    (h : ∀ slots, (⟨start + 1, slots⟩ : Way) ∈ ways ⟨start, slots⟩) :
    HasWay text ways start (start + 1) :=
  fun _ => ⟨Source.lt_size_of_charAt? here, fun slots => ⟨_, h slots, rfl⟩⟩

/-- One round of a repetition. -/
theorem HasWay.once {kind : Repetition} {start stop : Nat}
    (h : HasWay text (child.ways text) start stop) (hle : start ≤ stop) :
    HasWay text (ways text (.loop kind greedy child)) start stop := by
  intro hstart
  obtain ⟨hstop, hround⟩ := h hstart
  refine ⟨hstop, fun slots => ?_⟩
  obtain ⟨way, hway, rfl⟩ := hround slots
  cases kind with
  | zeroOrMore =>
    rw [ways]
    rcases Nat.eq_or_lt_of_le hle with heq | hlt
    · exact ⟨⟨start, slots⟩, mem_rounds.2 (.inl rfl), heq⟩
    · exact ⟨way, mem_rounds.2 (.inr ⟨way, hway, hlt, hstop, mem_rounds.2 (.inl rfl)⟩), rfl⟩
  | oneOrMore =>
    rw [ways]
    exact ⟨way, mem_roundsFromOne.2 ⟨way, hway, .inl rfl⟩, rfl⟩
  | zeroOrOne =>
    rw [ways]
    exact ⟨way, mem_order.2 (.inl hway), rfl⟩

/-- A round of a repetition and more after it. A round that does not move on is left out. -/
theorem HasWay.again {kind : Repetition} {start middle stop : Nat} (repeated : kind ≠ .zeroOrOne)
    (h : HasWay text (child.ways text) start middle) (hle : start ≤ middle)
    (h' : HasWay text (ways text (.loop kind greedy child)) middle stop) :
    HasWay text (ways text (.loop kind greedy child)) start stop := by
  intro hstart
  obtain ⟨hmiddle, hround⟩ := h hstart
  obtain ⟨hstop, hrest⟩ := h' hmiddle
  refine ⟨hstop, fun slots => ?_⟩
  rcases Nat.eq_or_lt_of_le hle with rfl | hlt
  · exact hrest slots
  · obtain ⟨next, hnext, rfl⟩ := hround slots
    obtain ⟨way, hway, hposition⟩ := hrest next.slots
    cases kind with
    | zeroOrMore =>
      rw [ways] at hway ⊢
      exact ⟨way, mem_rounds.2 (.inr ⟨next, hnext, hlt, hmiddle, hway⟩), hposition⟩
    | oneOrMore =>
      rw [ways] at hway ⊢
      exact ⟨way, mem_roundsFromOne.2 ⟨next, hnext, .inr ⟨hlt, hmiddle, hway⟩⟩, hposition⟩
    | zeroOrOne => exact absurd rfl repeated

/-- A way of a branch is one of the branches. -/
theorem mem_waysOfBranches {branch : List Node} (hbranch : branch ∈ branches)
    (hmem : next ∈ waysOfRow text branch way) : next ∈ waysOfBranches text branches way := by
  induction branches with
  | nil => cases hbranch
  | cons first rest ih =>
    rw [waysOfBranches, List.mem_append]
    rcases List.mem_cons.1 hbranch with rfl | hrest
    · exact .inl hmem
    · exact .inr (ih hrest)

/-- A group has the ways of its branches. -/
theorem HasWay.group {index : Option Nat} {branch : List Node} {start stop : Nat}
    (hbranch : branch ∈ branches) (h : HasWay text (waysOfRow text branch) start stop) :
    HasWay text (ways text (.group index branches)) start stop := by
  intro hstart
  obtain ⟨hstop, hrow⟩ := h hstart
  refine ⟨hstop, fun slots => ?_⟩
  cases index with
  | none =>
    rw [ways]
    obtain ⟨way, hway, hposition⟩ := hrow slots
    exact ⟨way, mem_waysOfBranches hbranch hway, hposition⟩
  | some index =>
    rw [ways]
    obtain ⟨way, hway, hposition⟩ := hrow (slots.set (2 * index) (some start))
    exact ⟨_, List.mem_map_of_mem (mem_waysOfBranches hbranch hway), hposition⟩

/-- **Whatever is matched is the end of a way.** -/
theorem Matches.hasWay {start stop : Nat} (h : Matches text node start stop) :
    HasWay text (node.ways text) start stop := by
  -- With the match of a node comes a way of the node, and with that of a row a way of the row.
  refine h.rec (motive_1 := fun node start stop _ => HasWay text (node.ways text) start stop)
    (motive_2 := fun row start stop _ => HasWay text (waysOfRow text row) start stop)
    ?char ?oneOf ?assert ?skip ?once ?again ?group ?nil ?cons
  case char =>
    intro c start here
    refine hasWay_next here fun slots => ?_
    rw [ways, if_pos here]
    exact List.mem_singleton_self _
  case oneOf =>
    intro set c start here within
    refine hasWay_next here fun slots => ?_
    rw [ways, if_pos (by rw [here]; exact within)]
    exact List.mem_singleton_self _
  case assert =>
    intro assertion start holds
    refine .here fun slots => ?_
    rw [ways, if_pos holds]
    exact List.mem_singleton_self _
  case skip =>
    -- The way that leaves the repetition at once is among them, whichever comes first.
    intro kind greedy child start optional
    refine .here fun slots => ?_
    cases kind with
    | zeroOrMore =>
      rw [ways]
      exact mem_rounds.2 (.inl rfl)
    | oneOrMore => exact absurd rfl optional
    | zeroOrOne =>
      rw [ways]
      exact mem_order.2 (.inr rfl)
  case once => exact fun round hround => hround.once round.le
  case again => exact fun repeated round _ hround hrest => .again repeated hround round.le hrest
  case group => exact fun hchosen _ hrow => hrow.group hchosen
  case nil =>
    refine .here fun slots => ?_
    rw [waysOfRow]
    exact List.mem_singleton_self _
  case cons =>
    intro node rest start middle stop _ _ hfirst hothers hstart
    -- The rest goes on with what the first node has noted.
    obtain ⟨hmiddle, hnode⟩ := hfirst hstart
    obtain ⟨hstop, hrest⟩ := hothers hmiddle
    refine ⟨hstop, fun slots => ?_⟩
    obtain ⟨next, hnext, rfl⟩ := hnode slots
    obtain ⟨way, hway, hposition⟩ := hrest next.slots
    rw [waysOfRow]
    exact ⟨way, List.mem_flatMap.2 ⟨next, hnext, hway⟩, hposition⟩

end Node

end Emend
