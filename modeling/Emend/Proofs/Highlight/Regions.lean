import Emend.Proofs.Highlight.Remembered

/-!
# The regions of a text and their tags

If the delimiters of every region have the tag of its text, and no region has the tag of plain text,
then the tags of a text follow from its regions: each region has one tag throughout, and all else is
plain. `TagsOf` says so piece by piece, as the scan passes the text, and `tagsOf_spans` that the
tags and the regions of the whole text are related in this way. What holds of a single position is
read off it: in a region the tag is that of the region (`TagsOf.tag_of_mem`), and a tag other than
that of plain text stands in a region (`TagsOf.exists_mem`).
-/

namespace Emend

/-- The delimiters of the region have the tag of its text, which is not that of plain text. -/
structure Region.IsTagged (region : Region) : Prop where
  /-- The delimiters have the tag of the text between them. -/
  delimiters : region.delimiterTag = region.tag
  /-- It tells the region from plain text. -/
  tagged : region.tag ≠ plainTag

/-- No kind of region has the tag of plain text. -/
theorem RegionKind.tag_ne_plainTag (kind : RegionKind) : kind.tag ≠ plainTag := by
  cases kind <;> decide

/-- A rule whose delimiters are texts describes a region with one tag. -/
theorem Region.isTagged_of_ofRule {rule : RegionRule} {region : Region}
    (hliteral : rule.isPattern = false) (h : Region.ofRule rule = .ok region) :
    region.IsTagged := by
  obtain ⟨opening, closing, isPattern, escape, kind⟩ := rule
  obtain rfl : isPattern = false := hliteral
  cases h
  exact ⟨rfl, kind.tag_ne_plainTag⟩

/-- Every region of a highlighter is described by one of its rules. -/
theorem exists_rule_of_mem {rules : List RegionRule} {regions : List Region} {region : Region}
    (h : rules.mapM Region.ofRule = .ok regions) (hmem : region ∈ regions) :
    ∃ rule ∈ rules, Region.ofRule rule = .ok region := by
  induction rules generalizing regions with
  | nil =>
    cases h
    cases hmem
  | cons rule rest ih =>
    rw [List.mapM_cons] at h
    cases hfirst : Region.ofRule rule with
    | error error =>
      rw [hfirst] at h
      cases h
    | ok first =>
      cases hrest : rest.mapM Region.ofRule with
      | error error =>
        rw [hfirst, hrest] at h
        cases h
      | ok others =>
        rw [hfirst, hrest] at h
        cases h
        rcases List.mem_cons.1 hmem with rfl | hothers
        · exact ⟨rule, List.mem_cons_self, hfirst⟩
        · obtain ⟨other, hother, hdescribes⟩ := ih hrest hothers
          exact ⟨other, List.mem_cons_of_mem _ hother, hdescribes⟩

namespace ScanState

variable {regions : List Region} {text : Source} {state : ScanState}

/-! ## Scanning token by token -/

/-- Induction along the tokens of a scan. -/
theorem scan_induction (regions : List Region) (text : Source) {motive : ScanState → Prop}
    (done : ∀ state, text.size ≤ state.position → motive state)
    (token : ∀ state, state.position < text.size → motive (state.next regions text).1 →
      motive state) (state : ScanState) : motive state := by
  induction hleft : text.size - state.position using Nat.strongRecOn generalizing state with
  | ind left ih =>
    by_cases hinside : state.position < text.size
    · have hlt := lt_next regions text state
      exact token state hinside (ih _ (by omega) _ rfl)
    · exact done state (Nat.le_of_not_lt hinside)

/-- At the end of the text no tags are left. -/
theorem tagsFrom_of_le (h : text.size ≤ state.position) : tagsFrom regions text state = [] := by
  rw [tagsFrom, dif_neg (Nat.not_lt.2 h)]

/-- At the end of the text no regions are left. -/
theorem spansFrom_of_le (h : text.size ≤ state.position) : spansFrom regions text state = [] := by
  rw [spansFrom, trace, dif_neg (Nat.not_lt.2 h), List.filterMap_nil]

/-- The next token opens a region, and others follow. -/
theorem spansFrom_of_lt (h : state.position < text.size) :
    spansFrom regions text state =
      (opening? regions text state).toList ++
        spansFrom regions text (state.next regions text).1 := by
  rw [spansFrom, trace, dif_pos h, List.filterMap_cons, spansFrom]
  cases opening? regions text state <;> rfl

/-- A region that is open at the end of the text ends there. -/
theorem regionStop_of_le (h : text.size ≤ state.position) :
    regionStop regions text state = text.size := by
  rw [regionStop, dif_neg (Nat.not_lt.2 h)]

/-- Outside of all regions there is nothing left to end. -/
theorem regionStop_of_none (h : state.region = none) :
    regionStop regions text state = min state.position text.size := by
  by_cases hinside : state.position < text.size
  · rw [regionStop, dif_pos hinside, if_pos h, Nat.min_eq_left (Nat.le_of_lt hinside)]
  · have hout : text.size ≤ state.position := Nat.le_of_not_lt hinside
    rw [regionStop_of_le hout, Nat.min_eq_right hout]

/-- In a region the next token decides. -/
theorem regionStop_of_some {number : Nat} (hinside : state.position < text.size)
    (h : state.region = some number) :
    regionStop regions text state = regionStop regions text (state.next regions text).1 := by
  rw [regionStop, dif_pos hinside, if_neg (by rw [h]; exact Option.some_ne_none number)]

/-- A region ends where it is looked at or further on, and in the text. -/
theorem le_regionStop (regions : List Region) (text : Source) (state : ScanState) :
    min state.position text.size ≤ regionStop regions text state ∧
      regionStop regions text state ≤ text.size := by
  induction state using scan_induction regions text with
  | done state hout =>
    rw [regionStop_of_le hout]
    exact ⟨Nat.min_le_right _ _, Nat.le_refl _⟩
  | token state hinside ih =>
    have hlt := lt_next regions text state
    cases hregion : state.region with
    | none =>
      rw [regionStop_of_none hregion]
      exact ⟨Nat.le_refl _, Nat.min_le_right _ _⟩
    | some number =>
      rw [regionStop_of_some hinside hregion]
      omega

/-! ## Opening and passing a region -/

/-- What is opened is one of the regions. -/
theorem exists_region_of_openedAt? {position number found stop tag : Nat}
    (h : openedAt? text position regions number = some (found, stop, tag)) :
    ∃ offset region, found = number + offset ∧ regions[offset]? = some region ∧
      tag = region.delimiterTag := by
  induction regions generalizing number with
  | nil => cases h
  | cons region rest ih =>
    rw [openedAt?] at h
    split at h
    · cases h
      exact ⟨0, region, rfl, rfl, rfl⟩
    · obtain ⟨offset, other, hfound, hother, htag⟩ := ih h
      exact ⟨offset + 1, other, by omega, hother, htag⟩

/-- Outside of all regions the next token is a plain character, or opens a region with a delimiter
that has its tag. -/
theorem next_of_none (text : Source) (hregions : ∀ region ∈ regions, region.IsTagged)
    (h : state.region = none) :
    state.next regions text = (⟨state.position + 1, none⟩, plainTag) ∨
      ∃ stop number region, regions[number]? = some region ∧
        state.next regions text = (⟨stop, some number⟩, region.tag) := by
  have hbind : state.region.bind (regions[·]?) = none := by rw [h, Option.bind_none]
  unfold next
  rw [hbind]
  dsimp only
  cases hopened : openedAt? text state.position regions 0 with
  | none => exact .inl rfl
  | some opened =>
    obtain ⟨number, stop, tag⟩ := opened
    obtain ⟨offset, region, hfound, hregion, htag⟩ := exists_region_of_openedAt? hopened
    rw [Nat.zero_add] at hfound
    subst hfound
    have hdelimiters := (hregions region (List.mem_of_getElem? hregion)).delimiters
    exact .inr ⟨stop, number, region, hregion, by rw [htag, hdelimiters]⟩

/-- In a region every token has its tag, and closes the region or leaves it open. -/
theorem next_of_some (text : Source) (hregions : ∀ region ∈ regions, region.IsTagged)
    {number : Nat} {region : Region} (h : state.region = some number)
    (hregion : regions[number]? = some region) :
    (state.next regions text).2 = region.tag ∧
      ((state.next regions text).1.region = none ∨
        (state.next regions text).1.region = some number) := by
  have hbind : state.region.bind (regions[·]?) = some region := by
    rw [h]
    exact hregion
  unfold next
  rw [hbind]
  dsimp only
  split
  · exact ⟨(hregions region (List.mem_of_getElem? hregion)).delimiters, .inl rfl⟩
  · exact ⟨rfl, .inr h⟩

/-- A region that is open opens no other. -/
theorem opening?_of_some {number : Nat} (h : state.region = some number) :
    opening? regions text state = none := by
  unfold opening?
  rw [h]
  exact if_neg fun hboth => nomatch hboth.1

/-- **Passing a region.** From within a region the scan comes out where the region ends. Up to there
all tags are those of the region, and no region is opened. -/
theorem exists_outside (text : Source) (hregions : ∀ region ∈ regions, region.IsTagged)
    {number : Nat} {region : Region} (h : state.region = some number)
    (hregion : regions[number]? = some region) :
    ∃ after : ScanState, after.region = none ∧
      regionStop regions text state = min after.position text.size ∧
      tagsFrom regions text state =
        List.replicate (regionStop regions text state - state.position) region.tag ++
          tagsFrom regions text after ∧
      spansFrom regions text state = spansFrom regions text after := by
  induction state using scan_induction regions text with
  | done state hout =>
    have hbehind : text.size ≤ (⟨state.position, none⟩ : ScanState).position := hout
    refine ⟨⟨state.position, none⟩, rfl, ?_, ?_, ?_⟩
    · rw [regionStop_of_le hout, Nat.min_eq_right hout]
    · rw [regionStop_of_le hout, Nat.sub_eq_zero_of_le hout, tagsFrom_of_le hout,
        tagsFrom_of_le hbehind]
      rfl
    · rw [spansFrom_of_le hout, spansFrom_of_le hbehind]
  | token state hinside ih =>
    have hlt := lt_next regions text state
    obtain ⟨htag, hnext⟩ := next_of_some text hregions h hregion
    have htags : tagsFrom regions text state = _ := tagsFrom_of_lt hinside
    have hspans : spansFrom regions text state = _ := spansFrom_of_lt hinside
    rw [opening?_of_some h, Option.toList_none, List.nil_append] at hspans
    rw [htag] at htags
    rw [regionStop_of_some hinside h, htags, hspans]
    generalize (state.next regions text).1 = next at hlt hnext ih ⊢
    rcases hnext with hclosed | hopen
    · -- The closing delimiter is the last token of the region.
      have hstop : regionStop regions text next = _ := regionStop_of_none hclosed
      exact ⟨next, hclosed, hstop, by rw [hstop], rfl⟩
    · obtain ⟨after, hafter, hstop, hmore, hothers⟩ := ih hopen
      obtain ⟨hle, hsize⟩ := le_regionStop regions text next
      have hcount : min next.position text.size - state.position +
          (regionStop regions text next - next.position) =
          regionStop regions text next - state.position := by
        omega
      refine ⟨after, hafter, hstop, ?_, hothers⟩
      rw [hmore, ← List.append_assoc, List.replicate_append_replicate, hcount]

/-! ## Tags from regions -/

/-- The tags of the text from a position on, if it has these regions from there on: those of plain
text outside of the regions, and one other tag throughout each. -/
inductive TagsOf (size : Nat) : Nat → List Nat → List Selection → Prop where
  /-- The text has ended. -/
  | done {position : Nat} (behind : size ≤ position) : TagsOf size position [] []
  /-- A character outside of the regions. -/
  | plain {position : Nat} {tags : List Nat} {spans : List Selection} (inside : position < size)
    (rest : TagsOf size (position + 1) tags spans) :
    TagsOf size position (plainTag :: tags) spans
  /-- A region. -/
  | region {position stop tag : Nat} {tags : List Nat} {spans : List Selection}
    (opened : position < stop) (within : stop ≤ size) (tagged : tag ≠ plainTag)
    (rest : TagsOf size stop tags spans) :
    TagsOf size position (List.replicate (stop - position) tag ++ tags)
      (⟨position, stop⟩ :: spans)

/-- A plain character comes with its tag and without a region. -/
theorem tagsFrom_of_plain (hinside : state.position < text.size)
    (hnext : state.next regions text = (⟨state.position + 1, none⟩, plainTag)) :
    tagsFrom regions text state =
        plainTag :: tagsFrom regions text ⟨state.position + 1, none⟩ ∧
      spansFrom regions text state = spansFrom regions text ⟨state.position + 1, none⟩ := by
  have hopening : opening? regions text state = none := by
    unfold opening?
    rw [hnext]
    exact if_neg fun hboth => hboth.2 rfl
  have hone : min (state.position + 1) text.size - state.position = 1 := by omega
  constructor
  · rw [tagsFrom_of_lt hinside, hnext]
    dsimp only
    rw [hone, List.replicate_one, List.singleton_append]
  · rw [spansFrom_of_lt hinside, hopening, hnext, Option.toList_none, List.nil_append]

/-- A region that is opened has one tag up to where it ends, and the scan goes on there or, if its
last token reaches beyond the text, behind it. -/
theorem exists_behind (text : Source) (hregions : ∀ region ∈ regions, region.IsTagged)
    (hinside : state.position < text.size) (h : state.region = none) {stop number : Nat}
    {region : Region} (hregion : regions[number]? = some region)
    (hnext : state.next regions text = (⟨stop, some number⟩, region.tag)) :
    ∃ after : ScanState, after.region = none ∧ state.position < min after.position text.size ∧
      tagsFrom regions text state =
        List.replicate (min after.position text.size - state.position) region.tag ++
          tagsFrom regions text after ∧
      spansFrom regions text state =
        ⟨state.position, min after.position text.size⟩ :: spansFrom regions text after := by
  have hopening : opening? regions text state =
      some ⟨state.position, regionStop regions text ⟨stop, some number⟩⟩ := by
    unfold opening?
    rw [hnext]
    exact if_pos ⟨h, Option.some_ne_none number⟩
  have hopened : (⟨stop, some number⟩ : ScanState).region = some number := rfl
  obtain ⟨after, hafter, hstop, hmore, hothers⟩ := exists_outside text hregions hopened hregion
  have hlt := lt_next regions text state
  obtain ⟨hle, _⟩ := le_regionStop regions text ⟨stop, some number⟩
  rw [hnext] at hlt
  rw [hstop] at hle hopening hmore
  dsimp only at hlt hle hmore
  have hcount : min stop text.size - state.position + (min after.position text.size - stop) =
      min after.position text.size - state.position := by
    omega
  refine ⟨after, hafter, by omega, ?_, ?_⟩
  · rw [tagsFrom_of_lt hinside, hnext]
    dsimp only
    rw [hmore, ← List.append_assoc, List.replicate_append_replicate, hcount]
  · rw [spansFrom_of_lt hinside, hopening, hnext, hothers]
    rfl

/-- **The tags follow from the regions** of the text, from any place outside of them on. -/
theorem tagsOf_spansFrom (hregions : ∀ region ∈ regions, region.IsTagged)
    (h : state.region = none) :
    TagsOf text.size state.position (tagsFrom regions text state)
      (spansFrom regions text state) := by
  -- By what is left of the text: a region may be passed in one step.
  induction hleft : text.size - state.position using Nat.strongRecOn generalizing state with
  | ind left ih =>
    by_cases hinside : state.position < text.size
    · rcases next_of_none text hregions h with hnext | ⟨stop, number, region, hregion, hnext⟩
      · obtain ⟨htags, hspans⟩ := tagsFrom_of_plain hinside hnext
        have houtside : (⟨state.position + 1, none⟩ : ScanState).region = none := rfl
        have hrest := ih (text.size - (state.position + 1)) (by omega) houtside rfl
        rw [htags, hspans]
        exact .plain hinside hrest
      · have htagged := (hregions region (List.mem_of_getElem? hregion)).tagged
        obtain ⟨after, hafter, hopened, htags, hspans⟩ :=
          exists_behind text hregions hinside h hregion hnext
        rw [htags, hspans]
        refine .region hopened (Nat.min_le_right _ _) htagged ?_
        by_cases hwithin : after.position ≤ text.size
        · rw [Nat.min_eq_left hwithin] at hopened ⊢
          exact ih (text.size - after.position) (by omega) hafter rfl
        · -- A token may reach beyond the end of the text, where nothing follows.
          have hout : text.size ≤ after.position := Nat.le_of_not_le hwithin
          rw [tagsFrom_of_le hout, spansFrom_of_le hout, Nat.min_eq_right hout]
          exact .done (Nat.le_refl _)
    · have hout : text.size ≤ state.position := Nat.le_of_not_lt hinside
      rw [tagsFrom_of_le hout, spansFrom_of_le hout]
      exact .done hout

/-- The tags of a scan tell its regions. -/
theorem tagsOf_spans (text : Source) (hregions : ∀ region ∈ regions, region.IsTagged) :
    TagsOf text.size 0 (tags regions text) (spans regions text) :=
  tagsOf_spansFrom hregions (rfl : origin.region = none)

namespace TagsOf

variable {size first position : Nat} {tags : List Nat} {spans : List Selection} {span : Selection}

/-- A region lies in the text, and has one tag throughout. -/
theorem tag_of_mem (h : TagsOf size first tags spans) (hmem : span ∈ spans) :
    first ≤ span.start ∧ span.start < span.stop ∧ span.stop ≤ size ∧
      ∃ tag, tag ≠ plainTag ∧ ∀ position, span.start ≤ position → position < span.stop →
        tags[position - first]? = some tag := by
  induction h with
  | done behind => cases hmem
  | @plain first tags spans inside rest ih =>
    obtain ⟨hfirst, hlt, hsize, tag, htag, htags⟩ := ih hmem
    refine ⟨by omega, hlt, hsize, tag, htag, fun position hstart hstop => ?_⟩
    have hindex : position - first = position - (first + 1) + 1 := by omega
    rw [hindex, List.getElem?_cons_succ]
    exact htags position hstart hstop
  | @region first stop tag tags spans opened within tagged rest ih =>
    rcases List.mem_cons.1 hmem with rfl | hlater
    · refine ⟨Nat.le_refl _, opened, within, tag, tagged, fun position hstart hstop => ?_⟩
      dsimp only at hstart hstop
      have hlt : position - first < (List.replicate (stop - first) tag).length := by
        rw [List.length_replicate]
        omega
      rw [List.getElem?_append_left hlt, List.getElem?_replicate, if_pos (by omega)]
    · obtain ⟨hfirst, hlt, hsize, other, hother, htags⟩ := ih hlater
      refine ⟨by omega, hlt, hsize, other, hother, fun position hstart hstop => ?_⟩
      have hindex : position - first - (stop - first) = position - stop := by omega
      rw [List.getElem?_append_right (by rw [List.length_replicate]; omega),
        List.length_replicate, hindex]
      exact htags position hstart hstop

/-- What is not plain lies in a region. -/
theorem exists_mem (h : TagsOf size first tags spans) {tag : Nat}
    (htag : tags[position - first]? = some tag) (hne : tag ≠ plainTag) (hfirst : first ≤ position) :
    ∃ span ∈ spans, span.start ≤ position ∧ position < span.stop := by
  induction h with
  | done behind => cases htag
  | @plain first tags spans inside rest ih =>
    by_cases heq : position = first
    · rw [heq, Nat.sub_self] at htag
      exact absurd (Option.some.inj htag).symm hne
    · have hindex : position - first = position - (first + 1) + 1 := by omega
      rw [hindex, List.getElem?_cons_succ] at htag
      exact ih htag (by omega)
  | @region first stop other tags spans opened within tagged rest ih =>
    by_cases hlt : position < stop
    · exact ⟨⟨first, stop⟩, List.mem_cons_self, hfirst, hlt⟩
    · have hindex : position - first - (stop - first) = position - stop := by omega
      rw [List.getElem?_append_right (by rw [List.length_replicate]; omega),
        List.length_replicate, hindex] at htag
      obtain ⟨span, hmem, hspan⟩ := ih htag (Nat.le_of_not_lt hlt)
      exact ⟨span, List.mem_cons_of_mem _ hmem, hspan⟩

end TagsOf

end ScanState

end Emend
