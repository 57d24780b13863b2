import Emend.Proofs.Highlight.Regions
import Mathlib

/-!
# Where a region ends

`RegionHighlighter.regionEnd?` does not look for the region that begins at a position. It looks for
a change of the tag there and for the next change behind it: whatever was remembered before, its
answer is the end of the run of one tag that begins at the position (`Sound.regionEnd?_iff`).

Regions are such runs only where the tags tell them apart. A region that follows another of its kind
does not begin a run; one that ends with the text, or where another of its kind begins, has no
change of the tag at its end; and plain text before a region is a run that is no region.
`regionEnd?_iff_mem_spans` says that these are all the cases in which the answer is wrong.
-/

namespace Emend

/-- The tag of the character before a position. -/
def tagBefore? (tags : List Nat) : (position : Nat) → Option Nat
  | 0 => none
  | position + 1 => tags[position]?

/-- The tag goes on from a position up to `last`, and another one follows. -/
structure EndsTag (tags : List Nat) (tag position last : Nat) : Prop where
  /-- It ends before the position or behind it. -/
  le : position ≤ last + 1
  /-- Up to there all tags are this one. -/
  same : ∀ place, position ≤ place → place ≤ last → tags[place]? = some tag
  /-- Another one follows. -/
  behind : ∃ other, tags[last + 1]? = some other ∧ other ≠ tag

/-- From `start` up to `last` all tags are the same, with another one, or none, before them, and
another one behind them. -/
structure TagRun (tags : List Nat) (start last : Nat) : Prop where
  /-- The run has a position. -/
  le : start ≤ last
  /-- There is one tag throughout. -/
  same : ∀ place, start ≤ place → place ≤ last → tags[place]? = tags[start]?
  /-- The tag before is not the same. -/
  begins : tagBefore? tags start ≠ tags[start]?
  /-- The one behind is another one. -/
  behind : ∃ other, tags[last + 1]? = some other ∧ tags[start]? ≠ some other

section

variable {tags : List Nat} {tag start last : Nat}

/-- A run begins in the text. -/
theorem TagRun.exists_tag (h : TagRun tags start last) : ∃ tag, tags[start]? = some tag := by
  obtain ⟨other, hother, _⟩ := h.behind
  obtain ⟨hlength, _⟩ := List.getElem?_eq_some_iff.1 hother
  have hle := h.le
  exact ⟨tags[start], List.getElem?_eq_getElem (by omega)⟩

/-- A run begins with a change of the tag, and its tag ends where it does. -/
theorem tagRun_iff (htag : tags[start]? = some tag) :
    TagRun tags start last ↔
      tagBefore? tags start ≠ some tag ∧ EndsTag tags tag (start + 1) last := by
  constructor
  · rintro ⟨hle, hsame, hbegins, other, hother, hne⟩
    rw [htag] at hsame hbegins hne
    have hlater : ∀ place, start + 1 ≤ place → place ≤ last → tags[place]? = some tag :=
      fun place hplace => hsame place (Nat.le_of_succ_le hplace)
    exact ⟨hbegins, Nat.succ_le_succ hle, hlater, other, hother,
      fun heq => hne (congrArg some heq.symm)⟩
  · rintro ⟨hbegins, hle, hsame, other, hother, hne⟩
    refine ⟨Nat.le_of_succ_le_succ hle, fun place hplace hlast => ?_, ?_, other, hother, ?_⟩
    · rcases Nat.eq_or_lt_of_le hplace with rfl | hlt
      · rfl
      · rw [htag]
        exact hsame place hlt hlast
    · rw [htag]
      exact hbegins
    · rw [htag]
      exact fun heq => hne (Option.some.inj heq).symm

/-- A tag that does not go on to some later position ends before it. -/
theorem exists_endsTag {place : Nat} {other : Nat} (hother : tags[place]? = some other)
    (hne : other ≠ tag) {position : Nat} (hle : position ≤ place) (hposition : 0 < position) :
    ∃ last, EndsTag tags tag position last := by
  induction hcount : place - position generalizing position with
  | zero =>
    obtain rfl : position = place := by omega
    obtain ⟨last, rfl⟩ : ∃ last, position = last + 1 := ⟨position - 1, by omega⟩
    exact ⟨last, Nat.le_refl _, fun between hbegin hend => absurd hend (by omega), other, hother,
      hne⟩
  | succ count ih =>
    by_cases hhere : tags[position]? = some tag
    · obtain ⟨last, hlast, hsame, hbehind⟩ :=
        ih (show position + 1 ≤ place by omega) (by omega) (by omega)
      refine ⟨last, by omega, fun between hbegin hend => ?_, hbehind⟩
      rcases Nat.eq_or_lt_of_le hbegin with rfl | hlt
      · exact hhere
      · exact hsame between hlt hend
    · obtain ⟨hlength, _⟩ := List.getElem?_eq_some_iff.1 hother
      have hpresent : tags[position]? = some tags[position] :=
        List.getElem?_eq_getElem (by omega)
      obtain ⟨last, rfl⟩ : ∃ last, position = last + 1 := ⟨position - 1, by omega⟩
      refine ⟨last, Nat.le_refl _, fun between hbegin hend => absurd hend (by omega),
        tags[last + 1], hpresent, fun heq => hhere ?_⟩
      rw [hpresent, heq]

end

namespace ScanState

variable {regions : List Region} {text : Source} {state : ScanState}

/-- There is a tag for each character. -/
theorem length_tags (regions : List Region) (text : Source) :
    (tags regions text).length = text.size := by
  have hlength := length_tagsFrom regions text origin
  rwa [origin, Nat.sub_zero] at hlength

/-- What has a tag lies in the text. -/
theorem lt_size_of_tags {place tag : Nat} (h : (tags regions text)[place]? = some tag) :
    place < text.size := by
  obtain ⟨hlength, _⟩ := List.getElem?_eq_some_iff.1 h
  rwa [length_tags] at hlength

/-- The tag of a token is that of each of its characters in the text. -/
theorem Reached.getElem?_tags (h : state.Reached regions text) {place : Nat}
    (hplace : state.position ≤ place) (hnext : place < (state.next regions text).1.position)
    (hsize : place < text.size) :
    (tags regions text)[place]? = some (state.next regions text).2 := by
  have hinside : state.position < text.size := by omega
  have hindex : state.position + (place - state.position) = place := by omega
  have hshort : place - state.position <
      min (state.next regions text).1.position text.size - state.position := by
    omega
  rw [← hindex, ← List.getElem?_drop, h.drop_tags, tagsFrom_of_lt hinside,
    List.getElem?_append_left (by rw [List.length_replicate]; exact hshort),
    List.getElem?_replicate, if_pos hshort]

/-- Within a token its tag does not end. -/
theorem Reached.endsTag_iff (h : state.Reached regions text) {position last : Nat}
    (hposition : state.position ≤ position)
    (hnext : position ≤ (state.next regions text).1.position) :
    EndsTag (tags regions text) (state.next regions text).2 position last ↔
      EndsTag (tags regions text) (state.next regions text).2
        (state.next regions text).1.position last := by
  have htags : ∀ {place : Nat}, position ≤ place →
      place < (state.next regions text).1.position → place < text.size →
      (tags regions text)[place]? = some (state.next regions text).2 :=
    fun hplace => h.getElem?_tags (Nat.le_trans hposition hplace)
  constructor
  · rintro ⟨hle, hsame, other, hother, hne⟩
    have hlength := lt_size_of_tags hother
    have hbeyond : (state.next regions text).1.position ≤ last + 1 := by
      refine Nat.le_of_not_lt fun hwithin => hne ?_
      have hhere := htags hle hwithin hlength
      exact Option.some.inj (hother.symm.trans hhere)
    exact ⟨hbeyond, fun place hplace => hsame place (Nat.le_trans hnext hplace), other, hother, hne⟩
  · rintro ⟨hle, hsame, other, hother, hne⟩
    have hlength := lt_size_of_tags hother
    refine ⟨Nat.le_trans hnext hle, fun place hplace hlast => ?_, other, hother, hne⟩
    by_cases hwithin : place < (state.next regions text).1.position
    · exact htags hplace hwithin (by omega)
    · exact hsame place (Nat.le_of_not_lt hwithin) hlast

end ScanState

namespace RegionHighlighter

variable {regions : List Region} {text : Source} {state : ScanState} {start tag last : Nat}
  {before : Option Nat}

/-! ## Seeking the end -/

/-- Behind the beginning of the run the next token decides. -/
theorem seekEnd_of_inside (hinside : state.position < text.size) (hstart : start < state.position) :
    seekEnd regions text start before (some tag) state =
      if (state.next regions text).2 = tag then
        seekEnd regions text start before (some tag) (state.next regions text).1
      else some (state.position - 1) := by
  have hbegin : ¬state.position ≤ start := Nat.not_le.2 hstart
  have hbefore : ¬state.position < start := by omega
  rw [seekEnd, dif_pos hinside]
  by_cases htag : (state.next regions text).2 = tag
  · simp [htag, hbegin, hbefore]
  · have hany : (some tag).any (· != (state.next regions text).2) = true :=
      bne_iff_ne.2 (Ne.symm htag)
    rw [if_neg htag, if_pos hany]

/-- Once the tag of the run is known, the answer is where it ends. -/
theorem seekEnd_iff_endsTag (h : state.Reached regions text) (hstart : start < state.position) :
    seekEnd regions text start before (some tag) state = some last ↔
      EndsTag (ScanState.tags regions text) tag state.position last := by
  induction state using ScanState.scan_induction regions text with
  | done state hout =>
    rw [seekEnd, dif_neg (Nat.not_lt.2 hout)]
    refine ⟨(nomatch ·), fun ⟨hle, _, other, hother, _⟩ => ?_⟩
    have hlength := ScanState.lt_size_of_tags hother
    omega
  | token state hinside ih =>
    have hlt := ScanState.lt_next regions text state
    rw [seekEnd_of_inside hinside hstart]
    split
    · next htag =>
      subst htag
      rw [ih h.next (Nat.lt_trans hstart hlt)]
      exact (h.endsTag_iff (Nat.le_refl _) (Nat.le_of_lt hlt)).symm
    · next htag =>
      have hhere := h.getElem?_tags (Nat.le_refl _) hlt hinside
      constructor
      · intro heq
        obtain rfl : state.position - 1 = last := Option.some.inj heq
        have hlast : state.position - 1 + 1 = state.position := by omega
        refine ⟨by omega, fun place hplace hbefore => absurd hbefore (by omega), ?_⟩
        rw [hlast]
        exact ⟨_, hhere, htag⟩
      · rintro ⟨hle, hsame, _⟩
        -- The tag here is another one, so the run has ended with the position before.
        have hbefore : ¬state.position ≤ last := fun hwithin => by
          have hsame' := hsame state.position (Nat.le_refl _) hwithin
          exact htag (Option.some.inj (hhere.symm.trans hsame'))
        exact congrArg some (by omega)

/-- From a state that is reached no later than at a position, the answer is the end of the run that
begins there. The tag before it is known once the scan is at the position. -/
theorem seekEnd_iff_tagRun (h : state.Reached regions text) (hstart : state.position ≤ start)
    (hbefore : state.position < text.size → before =
      if state.position = start then tagBefore? (ScanState.tags regions text) start else none) :
    seekEnd regions text start before none state = some last ↔
      TagRun (ScanState.tags regions text) start last := by
  induction state using ScanState.scan_induction regions text generalizing before with
  | done state hout =>
    rw [seekEnd, dif_neg (Nat.not_lt.2 hout)]
    refine ⟨(nomatch ·), fun hrun => ?_⟩
    obtain ⟨tag, htag⟩ := hrun.exists_tag
    have hlength := ScanState.lt_size_of_tags htag
    omega
  | token state hinside ih =>
    have hlt := ScanState.lt_next regions text state
    rw [seekEnd, dif_pos hinside]
    simp only [Option.any_none, Bool.false_eq_true, if_false, Bool.and_eq_true, decide_eq_true_eq]
    -- What is known of the tag before the position after this token.
    generalize hknown : (if state.position < start ∧
      start ≤ (state.next regions text).1.position then some (state.next regions text).2
      else before) = known
    by_cases hnext : start < (state.next regions text).1.position
    · -- The token has the position among its own.
      rw [if_pos ⟨hstart, hnext⟩]
      have hknown' : start < text.size →
          known = tagBefore? (ScanState.tags regions text) start := by
        intro hsize
        rcases Nat.eq_or_lt_of_le hstart with heq | hbehind
        · rw [← hknown, if_neg (by omega), hbefore hinside, if_pos heq]
        · obtain ⟨place, rfl⟩ : ∃ place, start = place + 1 := ⟨start - 1, by omega⟩
          rw [← hknown, if_pos ⟨hbehind, Nat.le_of_lt hnext⟩, tagBefore?,
            h.getElem?_tags (by omega) (by omega) (by omega)]
      have hends : seekEnd regions text start known (some (state.next regions text).2)
          (state.next regions text).1 = some last ↔
          EndsTag (ScanState.tags regions text) (state.next regions text).2 (start + 1) last := by
        rw [seekEnd_iff_endsTag h.next hnext]
        exact (h.endsTag_iff (Nat.le_succ_of_le hstart) hnext).symm
      by_cases hsize : start < text.size
      · rw [tagRun_iff (h.getElem?_tags hstart hnext hsize), ← hknown' hsize, ← hends]
        split
        · next heq => exact ⟨(nomatch ·), fun hboth => absurd heq hboth.1⟩
        · next hne => exact ⟨fun hsome => ⟨hne, hsome⟩, And.right⟩
      · -- The token reaches beyond the end of the text, and so does the position.
        have hsame : known = some (state.next regions text).2 := by
          rw [← hknown, if_pos ⟨by omega, Nat.le_of_lt hnext⟩]
        rw [if_pos hsame]
        refine ⟨(nomatch ·), fun hrun => ?_⟩
        obtain ⟨tag, htag⟩ := hrun.exists_tag
        exact absurd (ScanState.lt_size_of_tags htag) hsize
    · have hnone : ¬(state.position ≤ start ∧ start < (state.next regions text).1.position) :=
        fun hboth => hnext hboth.2
      rw [if_neg hnone]
      refine ih h.next (Nat.le_of_not_lt hnext) fun hinside' => ?_
      by_cases heq : (state.next regions text).1.position = start
      · obtain ⟨place, rfl⟩ : ∃ place, start = place + 1 := ⟨start - 1, by omega⟩
        rw [if_pos heq, ← hknown, if_pos ⟨by omega, Nat.le_of_eq heq.symm⟩, tagBefore?,
          h.getElem?_tags (by omega) (by omega) (by omega)]
      · rw [if_neg heq, ← hknown, if_neg fun hboth => heq (Nat.le_antisymm (by omega) hboth.2),
          hbefore hinside, if_neg (by omega)]

variable {highlighter : RegionHighlighter}

/-- **The answer of a sound highlighter** is the end of the run of one tag that begins at the
position, whatever it remembers. -/
theorem Sound.regionEnd?_iff (h : highlighter.Sound text) (start : Nat) :
    highlighter.regionEnd? text start = some last ↔
      TagRun (ScanState.tags highlighter.regions text) start last := by
  cases start with
  | zero => exact seekEnd_iff_tagRun .origin (Nat.le_refl 0) fun _ => rfl
  | succ position =>
    obtain ⟨hreached, hle⟩ := h.startFor position
    have hbefore : (highlighter.startFor position).1.position ≠ position + 1 :=
      Nat.ne_of_lt (Nat.lt_succ_of_le hle)
    exact seekEnd_iff_tagRun hreached (Nat.le_succ_of_le hle) fun _ => (if_neg hbefore).symm

/-! ## Requests -/

/-- What a highlighter is asked. -/
inductive Request where
  /-- The tags of the positions from `start` up to `stop`. -/
  | highlight (start stop : Nat)
  /-- Where the region ends that begins at a position. -/
  | regionEnd (position : Nat)
  deriving Repr

/-- What a highlighter remembers after a request. -/
def serve (text : Source) (highlighter : RegionHighlighter) : Request → RegionHighlighter
  | .highlight start stop => (highlighter.highlight text start stop).1
  | .regionEnd _ => highlighter

/-- A highlighter stays sound over requests, and keeps its regions. -/
theorem Sound.foldl_serve (h : highlighter.Sound text) (requests : List Request) :
    (requests.foldl (serve text) highlighter).Sound text ∧
      (requests.foldl (serve text) highlighter).regions = highlighter.regions := by
  induction requests generalizing highlighter with
  | nil => exact ⟨h, rfl⟩
  | cons request rest ih =>
    have hserved : (serve text highlighter request).Sound text ∧
        (serve text highlighter request).regions = highlighter.regions := by
      cases request with
      | highlight start stop =>
        obtain ⟨hsound, hregions, _⟩ := h.highlight start stop
        exact ⟨hsound, hregions⟩
      | regionEnd position => exact ⟨h, rfl⟩
    obtain ⟨hsound, hregions⟩ := ih hserved.1
    exact ⟨hsound, hregions.trans hserved.2⟩

end RegionHighlighter

/-! ## Runs and regions -/

/-- At this position the tags of the text tell its regions apart. -/
structure ScanState.TagsTell (regions : List Region) (text : Source) (position : Nat) : Prop where
  /-- A region that begins here does not follow text with its own tag. -/
  before : ∀ stop, ⟨position, stop⟩ ∈ spans regions text →
    tagBefore? (tags regions text) position ≠ (tags regions text)[position]?
  /-- Another tag follows it. -/
  behind : ∀ stop, ⟨position, stop⟩ ∈ spans regions text →
    ∃ other, (tags regions text)[stop]? = some other ∧ (tags regions text)[position]? ≠ some other
  /-- Plain text does not begin here, or no region follows it. -/
  plain : (tags regions text)[position]? = some plainTag →
    tagBefore? (tags regions text) position = some plainTag ∨
      ∀ span ∈ spans regions text, span.start < position

/-- A region is a run if its beginning and its end can be told from the tags. -/
theorem ScanState.TagsTell.tagRun {regions : List Region} {text : Source} {position last : Nat}
    (hregions : ∀ region ∈ regions, region.IsTagged) (h : TagsTell regions text position)
    (hmem : ⟨position, last + 1⟩ ∈ spans regions text) :
    TagRun (tags regions text) position last := by
  obtain ⟨_, hlt, _, tag, _, htags⟩ := (tagsOf_spans text hregions).tag_of_mem hmem
  dsimp only at hlt htags
  have hfirst : (tags regions text)[position]? = some tag := htags position (Nat.le_refl _) hlt
  refine ⟨Nat.le_of_lt_succ hlt, fun place hplace hlast => ?_, h.before _ hmem, h.behind _ hmem⟩
  rw [hfirst]
  exact htags place hplace (Nat.lt_succ_of_le hlast)

/-- A run is a region if its beginning and the region's end can be told from the tags. -/
theorem ScanState.TagsTell.mem_spans {regions : List Region} {text : Source} {position last : Nat}
    (hregions : ∀ region ∈ regions, region.IsTagged) (h : TagsTell regions text position)
    (hrun : TagRun (tags regions text) position last) :
    ⟨position, last + 1⟩ ∈ spans regions text := by
  have htagsOf := tagsOf_spans text hregions
  obtain ⟨tag, htag⟩ := hrun.exists_tag
  obtain ⟨other, hother, hne⟩ := hrun.behind
  have hle := hrun.le
  by_cases hplain : tag = plainTag
  · -- Plain text goes on up to a region, which would begin before the position.
    subst hplain
    exfalso
    have hbegins := hrun.begins
    rw [htag] at hbegins hne
    rcases h.plain htag with hbefore | hlast
    · exact hbegins hbefore
    · have hbehind : (tags regions text)[last + 1 - 0]? = some other := hother
      obtain ⟨span, hmem, hstart, hstop⟩ := htagsOf.exists_mem hbehind
        (fun heq => hne (congrArg some heq.symm)) (Nat.zero_le _)
      obtain ⟨_, _, _, tag, htagged, htags⟩ := htagsOf.tag_of_mem hmem
      have hstart' := hlast span hmem
      have hhere := htags position (Nat.le_of_lt hstart') (by omega)
      exact htagged (Option.some.inj (hhere.symm.trans htag))
  · obtain ⟨⟨start, stop⟩, hmem, hstart, hstop⟩ := htagsOf.exists_mem htag hplain (Nat.zero_le _)
    obtain ⟨_, _, _, tag', _, htags⟩ := htagsOf.tag_of_mem hmem
    dsimp only [Nat.sub_zero] at hstart hstop htags
    have hhere := htags position hstart hstop
    -- Within a region the tag before is the same, so the run begins with the region.
    obtain rfl : start = position := by
      refine Nat.le_antisymm hstart (Nat.le_of_not_lt fun hbefore => hrun.begins ?_)
      obtain ⟨place, rfl⟩ : ∃ place, position = place + 1 := ⟨position - 1, by omega⟩
      rw [tagBefore?, hhere]
      exact htags place (by omega) (by omega)
    obtain ⟨next, hnext, hdiffers⟩ := h.behind stop hmem
    have hrunEnds : last < stop := by
      refine Nat.lt_of_not_le fun hwithin => hdiffers ?_
      rw [← hnext]
      exact (hrun.same stop (by omega) hwithin).symm
    have hregionEnds : stop ≤ last + 1 := by
      refine Nat.le_of_not_lt fun hwithin => hne ?_
      rw [hhere, ← hother]
      exact (htags (last + 1) (by omega) hwithin).symm
    obtain rfl : stop = last + 1 := by omega
    exact hmem

/-- **Runs are regions just where the tags tell them apart.** -/
theorem ScanState.tagRun_iff_mem_spans {regions : List Region} (text : Source) (position : Nat)
    (hregions : ∀ region ∈ regions, region.IsTagged) :
    (∀ last, TagRun (tags regions text) position last ↔
        ⟨position, last + 1⟩ ∈ spans regions text) ↔
      TagsTell regions text position := by
  have htagsOf := tagsOf_spans text hregions
  constructor
  · intro h
    have hspan : ∀ {stop}, ⟨position, stop⟩ ∈ spans regions text →
        ∃ last, stop = last + 1 ∧ TagRun (tags regions text) position last := by
      intro stop hmem
      obtain ⟨_, hlt, _⟩ := htagsOf.tag_of_mem hmem
      obtain ⟨last, rfl⟩ : ∃ last, stop = last + 1 := ⟨stop - 1, by dsimp only at hlt; omega⟩
      exact ⟨last, rfl, (h last).2 hmem⟩
    refine ⟨fun stop hmem => ?_, fun stop hmem => ?_, fun hplain => ?_⟩
    · obtain ⟨last, _, hrun⟩ := hspan hmem
      exact hrun.begins
    · obtain ⟨last, rfl, hrun⟩ := hspan hmem
      exact hrun.behind
    · by_cases hbegins : tagBefore? (tags regions text) position = some plainTag
      · exact .inl hbegins
      refine .inr fun span hmem => Nat.lt_of_not_le fun hstart => ?_
      obtain ⟨_, hlt, _, tag, htagged, htags⟩ := htagsOf.tag_of_mem hmem
      have hthere := htags span.start (Nat.le_refl _) hlt
      have hne : position ≠ span.start := by
        rintro rfl
        exact htagged (Option.some.inj (hthere.symm.trans hplain))
      -- The plain text is a run, but no region begins with it.
      obtain ⟨last, hends⟩ := exists_endsTag hthere htagged
        (show position + 1 ≤ span.start by omega) (Nat.succ_pos _)
      have hrun := (h last).1 ((tagRun_iff hplain).2 ⟨hbegins, hends⟩)
      obtain ⟨_, hlt', _, tag', htagged', htags'⟩ := htagsOf.tag_of_mem hrun
      have hhere := htags' position (Nat.le_refl _) hlt'
      exact htagged' (Option.some.inj (hhere.symm.trans hplain))
  · exact fun h last => ⟨h.mem_spans hregions, h.tagRun hregions⟩

namespace RegionHighlighter

/-- A highlighter for rules remembers nothing yet, and its regions are those of the rules. -/
theorem exists_regions_of_ofRules {rules : List RegionRule} {fresh : RegionHighlighter}
    (h : ofRules rules = .ok fresh) :
    ∃ regions, rules.mapM Region.ofRule = .ok regions ∧ fresh = ofRegions regions := by
  unfold ofRules at h
  cases hregions : rules.mapM Region.ofRule with
  | error error =>
    rw [hregions] at h
    cases h
  | ok regions =>
    rw [hregions] at h
    cases h
    exact ⟨regions, rfl, rfl⟩

/-- **Where a region ends, as a highlighter for literal rules tells it** after any requests on a
text. It always answers with the end of the run of one tag that begins at the position; this is the
last position of the region that begins there, and no answer if none does, just if the tags tell the
region apart. -/
theorem regionEnd?_iff_mem_spans {rules : List RegionRule} {fresh : RegionHighlighter}
    (hliteral : ∀ rule ∈ rules, rule.isPattern = false) (hrules : ofRules rules = .ok fresh)
    (text : Source) (requests : List Request) (position : Nat) :
    (∀ last, (requests.foldl (serve text) fresh).regionEnd? text position = some last ↔
        TagRun (ScanState.tags fresh.regions text) position last) ∧
      ((∀ last, (requests.foldl (serve text) fresh).regionEnd? text position = some last ↔
          ⟨position, last + 1⟩ ∈ ScanState.spans fresh.regions text) ↔
        ScanState.TagsTell fresh.regions text position) := by
  obtain ⟨regions, hmapped, rfl⟩ := exists_regions_of_ofRules hrules
  have htagged : ∀ region ∈ regions, region.IsTagged := by
    intro region hmem
    obtain ⟨rule, hrule, hdescribes⟩ := exists_rule_of_mem hmapped hmem
    exact Region.isTagged_of_ofRule (hliteral rule hrule) hdescribes
  obtain ⟨hsound, hregions⟩ := (sound_ofRegions regions text).foldl_serve requests
  have hrun : ∀ last, (requests.foldl (serve text) (ofRegions regions)).regionEnd? text position =
      some last ↔ TagRun (ScanState.tags regions text) position last := by
    intro last
    rw [hsound.regionEnd?_iff, hregions]
    rfl
  refine ⟨hrun, ?_⟩
  have hiff := ScanState.tagRun_iff_mem_spans text position htagged
  exact Iff.trans (forall_congr' fun last => iff_congr (hrun last) Iff.rfl) hiff

/-- A string between plain characters, after requests in it and at its beginning. -/
theorem regionEnd?_string :
    ∃ fresh, ofRules [.string "\"" "\"" (some '\\'), .comment "/*" "*/"] = .ok fresh ∧
      ([.highlight 2 3, .regionEnd 1].foldl (serve (.ofList "a\"b\"c".toList)) fresh).regionEnd?
        (.ofList "a\"b\"c".toList) 1 = some 3 := by
  let fresh : RegionHighlighter := .ofRegions
    [⟨.text ['"'], .text ['"'], some '\\', RegionKind.string.tag, RegionKind.string.tag⟩,
      ⟨.text ['/', '*'], .text ['*', '/'], none, RegionKind.comment.tag, RegionKind.comment.tag⟩]
  have hrules : ofRules [.string "\"" "\"" (some '\\'), .comment "/*" "*/"] = .ok fresh := rfl
  have htags : ScanState.tags fresh.regions (.ofList "a\"b\"c".toList) = [1, 2, 2, 2, 1] := by
    set_option maxRecDepth 1000 in cbv
  have hspans : ScanState.spans fresh.regions (.ofList "a\"b\"c".toList) = [⟨1, 4⟩] := by
    set_option maxRecDepth 1000 in cbv
  have htell : ScanState.TagsTell fresh.regions (.ofList "a\"b\"c".toList) 1 := by
    refine ⟨fun stop _ => ?_, fun stop hmem => ?_, fun hplain => ?_⟩
    · rw [htags]
      decide
    · rw [hspans, List.mem_singleton] at hmem
      obtain rfl : stop = 4 := congrArg Selection.stop hmem
      rw [htags]
      exact ⟨1, rfl, by decide⟩
    · rw [htags] at hplain
      cases hplain
  have hmem : ⟨1, 3 + 1⟩ ∈ ScanState.spans fresh.regions (.ofList "a\"b\"c".toList) := by
    rw [hspans]
    exact List.mem_cons_self
  have hends := regionEnd?_iff_mem_spans (by decide) hrules (.ofList "a\"b\"c".toList)
    [.highlight 2 3, .regionEnd 1] 1
  exact ⟨fresh, hrules, (hends.2.2 htell 3).2 hmem⟩

/-- A string that ends with the text has no end for the highlighter. -/
theorem not_regionEnd?_mem_spans :
    ¬∀ (rules : List RegionRule) (fresh : RegionHighlighter),
      (∀ rule ∈ rules, rule.isPattern = false) → ofRules rules = .ok fresh →
      ∀ (text : Source) (requests : List Request) (position last : Nat),
      (requests.foldl (serve text) fresh).regionEnd? text position = some last ↔
        ⟨position, last + 1⟩ ∈ ScanState.spans fresh.regions text := by
  intro h
  let fresh : RegionHighlighter := .ofRegions
    [⟨.text ['"'], .text ['"'], none, RegionKind.string.tag, RegionKind.string.tag⟩]
  have hends := h [.string "\"" "\"" none] fresh (by decide) rfl (.ofList "\"ab\"".toList) [] 0 3
  have hspans : ScanState.spans fresh.regions (.ofList "\"ab\"".toList) = [⟨0, 4⟩] := by
    set_option maxRecDepth 1000 in cbv
  have hnone : fresh.regionEnd? (.ofList "\"ab\"".toList) 0 = none := by
    set_option maxRecDepth 1000 in cbv
  rw [hspans, List.foldl_nil, hnone] at hends
  cases hends.2 List.mem_cons_self

end RegionHighlighter

end Emend
