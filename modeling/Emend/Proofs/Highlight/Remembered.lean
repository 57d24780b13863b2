import Emend.Highlight.Highlighter
import Emend.Highlight.Trace
import Emend.Text.Splice

/-!
# What a highlighter remembers

A state of the scan is as good as the beginning of the text if the scan of the whole text comes
through it: `Reached`. The tags from there on are then those of the whole scan (`drop_tags`). A
highlighter is sound for a text if all that it remembers is reached in this sense. A request keeps a
highlighter sound, and its tags are a slice of those of the text: `Sound.highlight`.

An edit makes another text, and what was decided by looking into the old one may be wrong in the
new. The position that `alter` is given keeps two characters between a remembered state and the
edit. A delimiter is looked for no later than one character before the state that its end leads to,
so if it never looks at more than three characters it has not seen the edited text: `Sound.alter`.
-/

namespace Emend

/-- Whether the delimiter begins at a position, and where it ends, depends on at most this many
characters from there on. -/
def Delimiter.SeesAtMost (count : Nat) (delimiter : Delimiter) : Prop :=
  ∀ text other position, text.AgreesBelow (position + count) other →
    delimiter.endAt? text position = delimiter.endAt? other position

/-- Whether a text occurs depends on as many characters as it has. -/
theorem Delimiter.occursAt_congr {text other : Source} {position : Nat} {chars : List Char}
    (h : text.AgreesBelow (position + chars.length) other) :
    occursAt text position chars = occursAt other position chars := by
  induction chars generalizing position with
  | nil => rfl
  | cons c rest ih =>
    have hhere : text.charAt? position = other.charAt? position := by
      refine h position ?_
      rw [List.length_cons]
      omega
    have hrest : text.AgreesBelow (position + 1 + rest.length) other := by
      refine h.mono ?_
      rw [List.length_cons]
      omega
    rw [occursAt, occursAt, hhere, ih hrest]

/-- A delimiter that is a text sees as many characters as it has. -/
theorem Delimiter.seesAtMost_text {chars : List Char} {count : Nat} (h : chars.length ≤ count) :
    (Delimiter.text chars).SeesAtMost count := by
  intro text other position hagrees
  have hoccurs : occursAt text position chars = occursAt other position chars :=
    occursAt_congr (hagrees.mono (by omega))
  rw [endAt?, endAt?, hoccurs]

/-- Both delimiters of the region see at most this many characters. -/
structure Region.SeesAtMost (count : Nat) (region : Region) : Prop where
  /-- The opening one does. -/
  opening : region.opening.SeesAtMost count
  /-- The closing one does. -/
  closing : region.closing.SeesAtMost count

namespace ScanState

variable {regions : List Region} {text other : Source} {state : ScanState}

/-- The scan of the text comes through the state. -/
inductive Reached (regions : List Region) (text : Source) : ScanState → Prop where
  /-- It begins at the beginning. -/
  | origin : Reached regions text .origin
  /-- It goes on with the next token. -/
  | next {state : ScanState} (h : Reached regions text state) :
    Reached regions text (state.next regions text).1

/-- **The tags behind a state** that the scan comes through are those of the scan from there on. -/
theorem Reached.drop_tags (h : Reached regions text state) :
    (tags regions text).drop state.position = tagsFrom regions text state := by
  induction h with
  | origin => rfl
  | @next state h ih =>
    have hlt := lt_next regions text state
    have hlength := length_tagsFrom regions text (state.next regions text).1
    -- The token's own tags are dropped from those that follow its beginning.
    have hdrop : (tags regions text).drop (state.next regions text).1.position =
        (tagsFrom regions text state).drop
          ((state.next regions text).1.position - state.position) := by
      rw [← ih, List.drop_drop, Nat.add_sub_cancel' (Nat.le_of_lt hlt)]
    rw [hdrop]
    rw [tagsFrom]
    split
    · next hinside =>
      dsimp only
      generalize (state.next regions text).1 = next at hlt hlength ⊢
      generalize (state.next regions text).2 = tag
      by_cases hsize : next.position ≤ text.size
      · rw [Nat.min_eq_left hsize, List.drop_left' List.length_replicate]
      · have hnone : tagsFrom regions text next = [] := by
          rw [← List.length_eq_zero_iff, hlength]
          omega
        rw [hnone, List.append_nil, List.drop_eq_nil_of_le]
        rw [List.length_replicate]
        omega
    · have hnone : tagsFrom regions text (state.next regions text).1 = [] := by
        rw [← List.length_eq_zero_iff, hlength]
        omega
      rw [hnone, List.drop_nil]

/-- The tags of a token, and those behind it. -/
theorem tagsFrom_of_lt (h : state.position < text.size) :
    tagsFrom regions text state =
      List.replicate (min (state.next regions text).1.position text.size - state.position)
        (state.next regions text).2 ++ tagsFrom regions text (state.next regions text).1 := by
  rw [tagsFrom, dif_pos h]

/-! ## Another text -/

/-- Which region opens depends on three characters, if no delimiter sees more. -/
theorem openedAt?_congr {position number : Nat}
    (hsees : ∀ region ∈ regions, region.SeesAtMost 3)
    (hagrees : text.AgreesBelow (position + 3) other) :
    openedAt? text position regions number = openedAt? other position regions number := by
  induction regions generalizing number with
  | nil => rfl
  | cons region rest ih =>
    have hend := (hsees region List.mem_cons_self).opening text other position hagrees
    have hrest : openedAt? text position rest (number + 1) =
        openedAt? other position rest (number + 1) :=
      ih fun region hmem => hsees region (List.mem_cons_of_mem _ hmem)
    rw [openedAt?, openedAt?, hend, hrest]

/-- A token is the same in texts that agree up to three characters behind its beginning. -/
theorem next_congr (hsees : ∀ region ∈ regions, region.SeesAtMost 3)
    (hagrees : text.AgreesBelow (state.position + 3) other) :
    state.next regions text = state.next regions other := by
  unfold next
  cases hregion : state.region.bind (regions[·]?) with
  | none =>
    dsimp only
    rw [openedAt?_congr hsees hagrees]
  | some region =>
    have hmem : region ∈ regions := by
      obtain ⟨number, _, hnumber⟩ := Option.bind_eq_some_iff.1 hregion
      exact List.mem_of_getElem? hnumber
    have hend := (hsees region hmem).closing text other state.position hagrees
    have hhere : text.charAt? state.position = other.charAt? state.position :=
      hagrees state.position (by omega)
    dsimp only
    rw [hend, width, width, hhere]

/-- **A state that lies two characters before an edit is reached in the new text as well.** -/
theorem Reached.transfer {bound : Nat} (hsees : ∀ region ∈ regions, region.SeesAtMost 3)
    (hagrees : text.AgreesBelow bound other) (h : Reached regions text state)
    (hbefore : state.position + 2 ≤ bound) : Reached regions other state := by
  induction h with
  | origin => exact .origin
  | @next state h ih =>
    -- The token before the state began at least one character earlier.
    have hlt := lt_next regions text state
    have hsame : state.next regions text = state.next regions other :=
      next_congr hsees (hagrees.mono (by omega))
    rw [hsame]
    exact .next (ih (by omega))

end ScanState

namespace RegionHighlighter

variable {highlighter : RegionHighlighter} {text other : Source} {state : ScanState}

/-- All that the highlighter remembers, the scan of the text comes through. -/
structure Sound (highlighter : RegionHighlighter) (text : Source) : Prop where
  /-- The state after the token at which the last request began. -/
  resume : highlighter.resume.Reached highlighter.regions text
  /-- The states at distances. -/
  syncs : ∀ sync ∈ highlighter.syncs, sync.Reached highlighter.regions text
  /-- The furthest of them comes first. -/
  ordered : highlighter.syncs.Pairwise fun sync earlier => earlier.position < sync.position

/-- A new highlighter remembers nothing that could be wrong. -/
theorem sound_ofRegions (regions : List Region) (text : Source) :
    (ofRegions regions).Sound text := by
  refine ⟨.origin, fun sync hmem => ?_, List.pairwise_singleton _ _⟩
  rw [List.mem_singleton.1 hmem]
  exact .origin

/-- The remembered states before a position are among those that are remembered. -/
theorem mem_of_mem_syncsBefore {position : Nat} {sync : ScanState}
    (h : sync ∈ highlighter.syncsBefore position) : sync ∈ highlighter.syncs :=
  (List.dropWhile_sublist _).subset h

/-- The first of them lies before the position. -/
theorem position_lt_of_syncsBefore {position : Nat} {sync : ScanState} {rest : List ScanState}
    (h : highlighter.syncsBefore position = sync :: rest) : sync.position < position := by
  have hhead := List.head?_dropWhile_not (fun state : ScanState => position ≤ state.position)
    highlighter.syncs
  unfold syncsBefore at h
  rw [h] at hhead
  simpa using hhead

/-- **A request begins with a state that is reached**, and no later than at its position. -/
theorem Sound.startFor (h : highlighter.Sound text) (position : Nat) :
    (highlighter.startFor position).1.Reached highlighter.regions text ∧
      (highlighter.startFor position).1.position ≤ position := by
  unfold RegionHighlighter.startFor
  split
  · next heq => exact ⟨h.resume, Nat.le_of_eq heq.symm⟩
  · split
    · next sync rest hsyncs =>
      have hmem : sync ∈ highlighter.syncsBefore position := by
        rw [hsyncs]
        exact List.mem_cons_self
      exact ⟨h.syncs sync (mem_of_mem_syncsBefore hmem),
        Nat.le_of_lt (position_lt_of_syncsBefore hsyncs)⟩
    · exact ⟨.origin, Nat.zero_le position⟩

/-- A state that a scan has reached may be remembered. -/
theorem Sound.remember (h : highlighter.Sound text)
    (hstate : state.Reached highlighter.regions text) : (highlighter.remember state).Sound text := by
  unfold RegionHighlighter.remember
  split
  · next hfar =>
    refine ⟨h.resume, fun sync hmem => ?_, ?_⟩
    · rcases List.mem_cons.1 hmem with rfl | hmem
      · exact hstate
      · exact h.syncs sync hmem
    · refine List.pairwise_cons.2 ⟨fun sync hmem => ?_, h.ordered⟩
      -- The new state lies far behind the furthest one, and that behind all others.
      have hordered := h.ordered
      cases hsyncs : highlighter.syncs with
      | nil =>
        rw [hsyncs] at hmem
        cases hmem
      | cons furthest rest =>
        rw [hsyncs] at hfar hmem hordered
        simp only [List.head?_cons, Option.all_some, decide_eq_true_eq] at hfar
        have hbehind : furthest.position < state.position := by omega
        rcases List.mem_cons.1 hmem with rfl | hmem
        · exact hbehind
        · exact Nat.lt_trans ((List.pairwise_cons.1 hordered).1 sync hmem) hbehind
  · exact h

/-- Remembering a state does not change the regions. -/
@[simp]
theorem regions_remember : (highlighter.remember state).regions = highlighter.regions := by
  unfold RegionHighlighter.remember
  split <;> rfl

/-- The state behind the token at which a request begins may be remembered. -/
theorem Sound.resumeIf (h : highlighter.Sound text)
    (hstate : state.Reached highlighter.regions text) (begins : Bool) :
    (if begins then { highlighter with resume := state } else highlighter).Sound text ∧
      (if begins then { highlighter with resume := state } else highlighter).regions =
        highlighter.regions := by
  cases begins with
  | true => exact ⟨⟨hstate, h.syncs, h.ordered⟩, rfl⟩
  | false => exact ⟨h, rfl⟩

/-! ## Requests -/

/-- What a token adds to a request: as many of its tags as lie in the request. -/
theorem take_drop_replicate {position next start stop size tag : Nat} {rest : List Nat}
    (hstop : stop ≤ size) (hposition : position < stop) (hlt : position < next) :
    ((List.replicate (min next size - position) tag ++ rest).take (stop - position)).drop
        (start - position) =
      List.replicate (min next stop - max position start) tag ++
        (rest.take (stop - next)).drop (start - next) := by
  have hcount : min (stop - position) (min next size - position) - (start - position) =
      min next stop - max position start := by omega
  have htaken : stop - position - (min next size - position) = stop - next := by omega
  rw [List.take_append, List.drop_append, List.take_replicate, List.drop_replicate,
    List.length_replicate, List.length_replicate, hcount, htaken]
  by_cases hnext : next ≤ stop
  · have hdropped : start - position - min (stop - position) (min next size - position) =
        start - next := by omega
    rw [hdropped]
  · -- The token reaches beyond the request, and nothing follows.
    have hnone : stop - next = 0 := by omega
    rw [hnone, List.take_zero, List.drop_nil, List.drop_nil]

/-- **Painting from a state that is reached**: the highlighter stays sound, and the tags are a slice
of those of the scan. -/
theorem Sound.paint {stop : Nat} (h : highlighter.Sound text)
    (hstate : state.Reached highlighter.regions text) (hstop : stop ≤ text.size) (start : Nat)
    (extending : Bool) :
    (highlighter.paint text start stop extending state).1.Sound text ∧
      (highlighter.paint text start stop extending state).1.regions = highlighter.regions ∧
      (highlighter.paint text start stop extending state).2 =
        ((ScanState.tagsFrom highlighter.regions text state).take (stop - state.position)).drop
          (start - state.position) := by
  fun_induction RegionHighlighter.paint highlighter text start stop extending state with
  | case1 highlighter state hinside token next resumed tags hbeyond =>
    have hsize : state.position < text.size := Nat.lt_of_lt_of_le hinside hstop
    have hlt : state.position < next.position := ScanState.lt_next highlighter.regions text state
    have hresumed : resumed.Sound text ∧ resumed.regions = highlighter.regions :=
      h.resumeIf (.next hstate) _
    refine ⟨hresumed.1, hresumed.2, ?_⟩
    rw [ScanState.tagsFrom_of_lt hsize, take_drop_replicate hstop hinside hlt]
    -- The token reaches beyond the request, so it is the last one.
    have hnone : stop - next.position = 0 := by omega
    rw [hnone, List.take_zero, List.drop_nil, List.append_nil]
  | case2 highlighter state hinside token next resumed tags hwithin extended final more hpaint ih =>
    have hsize : state.position < text.size := Nat.lt_of_lt_of_le hinside hstop
    have hlt : state.position < next.position := ScanState.lt_next highlighter.regions text state
    have hresumed : resumed.Sound text ∧ resumed.regions = highlighter.regions :=
      h.resumeIf (.next hstate) _
    have hnext : next.Reached resumed.regions text := by
      rw [hresumed.2]
      exact .next hstate
    have hextended : extended.Sound text ∧ extended.regions = highlighter.regions := by
      dsimp only [extended]
      split
      · exact ⟨hresumed.1.remember hnext, regions_remember.trans hresumed.2⟩
      · exact hresumed
    have hnext' : next.Reached extended.regions text := by
      rw [hextended.2]
      exact .next hstate
    obtain ⟨hfinal, hregions, hmore⟩ := ih hextended.1 hnext'
    rw [hpaint] at hfinal hregions hmore
    refine ⟨hfinal, hregions.trans hextended.2, ?_⟩
    rw [ScanState.tagsFrom_of_lt hsize, take_drop_replicate hstop hinside hlt]
    dsimp only at hmore ⊢
    rw [hmore, hextended.2]
  | case3 highlighter state hout =>
    have hnone : stop - state.position = 0 := by omega
    refine ⟨h, rfl, ?_⟩
    rw [hnone, List.take_zero, List.drop_nil]

/-- **A request to a sound highlighter** keeps it sound, and gives a slice of the tags of the
text. -/
theorem Sound.highlight (h : highlighter.Sound text) (start stop : Nat) :
    (highlighter.highlight text start stop).1.Sound text ∧
      (highlighter.highlight text start stop).1.regions = highlighter.regions ∧
      (highlighter.highlight text start stop).2 =
        sliceOf (ScanState.tags highlighter.regions text) ⟨start, min stop text.size⟩ := by
  obtain ⟨hreached, hle⟩ := h.startFor start
  obtain ⟨hsound, hregions, htags⟩ :=
    h.paint hreached (Nat.min_le_right stop text.size) start (highlighter.startFor start).2
  refine ⟨hsound, hregions, ?_⟩
  have hslice : (highlighter.highlight text start stop).2 =
      (highlighter.paint text start (min stop text.size) (highlighter.startFor start).2
        (highlighter.startFor start).1).2 := rfl
  rw [hslice, htags, ← hreached.drop_tags, ← List.drop_take, List.drop_drop, sliceOf]
  rw [Nat.add_sub_cancel' hle]

/-! ## Edits -/

/-- **After an edit the highlighter is sound for the new text**, if no delimiter sees more than
three characters. -/
theorem Sound.alter {start : Nat} (h : highlighter.Sound text)
    (hsees : ∀ region ∈ highlighter.regions, region.SeesAtMost 3)
    (hagrees : text.AgreesBelow start other) :
    (highlighter.alter (start - 1)).Sound other := by
  have hordered : (highlighter.syncsBefore (start - 1)).Pairwise
      fun sync earlier => earlier.position < sync.position :=
    h.ordered.sublist (List.dropWhile_sublist _)
  -- The states that stay lie before the nearest one, and that before the edit.
  have hstays : ∀ sync ∈ (highlighter.syncsBefore (start - 1)).tail,
      sync.Reached highlighter.regions other := by
    intro sync hmem
    have hmem' := List.mem_of_mem_tail hmem
    refine (h.syncs sync (mem_of_mem_syncsBefore hmem')).transfer hsees hagrees ?_
    cases hsyncs : highlighter.syncsBefore (start - 1) with
    | nil =>
      rw [hsyncs] at hmem
      cases hmem
    | cons nearest rest =>
      have hnearest := position_lt_of_syncsBefore hsyncs
      rw [hsyncs] at hmem hordered
      have hearlier := (List.pairwise_cons.1 hordered).1 sync hmem
      omega
  refine ⟨?_, ?_, ?_⟩
  · show (if start - 1 ≤ highlighter.resume.position then ScanState.origin
      else highlighter.resume).Reached highlighter.regions other
    split
    · exact .origin
    · exact h.resume.transfer hsees hagrees (by omega)
  · unfold RegionHighlighter.alter
    dsimp only
    split
    · intro sync hmem
      rw [List.mem_singleton.1 hmem]
      exact .origin
    · exact hstays
  · unfold RegionHighlighter.alter
    dsimp only
    split
    · exact List.pairwise_singleton _ _
    · exact hordered.sublist (List.tail_sublist _)

end RegionHighlighter

end Emend
