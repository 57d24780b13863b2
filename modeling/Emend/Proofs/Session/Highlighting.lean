import Emend.Proofs.Command.Keeping
import Emend.Proofs.Document.Travel
import Emend.Proofs.Highlight.Remembered
import Emend.Proofs.Session.Operation
import Mathlib

/-!
# Highlighting a document that is edited

The highlighter of a document answers requests for parts of the text, in any order, and remembers
states of its scan in between; every edit tells it where the text has changed. If no delimiter of
its regions sees more than three characters, none of this shows: each request is answered with the
tags that a new highlighter would give. `Remembers` is the invariant, which every operation keeps
(`remembers_perform`), and `highlight_run` is what follows for the tags.

With a delimiter of four characters it does show: `not_highlight_run`.
-/

namespace Emend

variable {σ : Type}

/-! ## Characters of a document -/

/-- Tags do not change what a scan reads. -/
theorem GapBuffer.source_setTag (buffer : GapBuffer) (position tag : Nat) :
    (buffer.setTag position tag).source = buffer.source := by
  unfold setTag
  dsimp only
  split
  · -- Only the tag of one cell is another.
    have hchar : ∀ index, ((buffer.cells.modify (buffer.cellOf position)
        fun glyph => { glyph with tag }).getD index .filler).char =
        (buffer.cells.getD index .filler).char := by
      intro index
      rw [Array.getD_eq_getD_getElem?, Array.getD_eq_getD_getElem?, Array.getElem?_modify]
      split
      · cases buffer.cells[index]? <;> rfl
      · rfl
    unfold source size
    rw [Array.size_modify]
    congr 1
    funext index
    exact hchar _
  · rfl

/-- Tags of a range do not change what a scan reads. -/
@[simp]
theorem GapBuffer.source_setTags (buffer : GapBuffer) (position : Nat) (tags : List Nat) :
    (buffer.setTags position tags).source = buffer.source := by
  induction tags generalizing buffer position with
  | nil => rfl
  | cons tag tags ih =>
    rw [setTags, ih, source_setTag]

namespace Document

variable {regions : List Region} {doc other : Document} {range : Selection} {text : List Char}

/-- A scan reads the content. -/
theorem charAt?_source (h : doc.IsValid) (position : Nat) :
    doc.source.charAt? position = doc.content[position]? := by
  rw [content_eq_toList, List.getElem?_map]
  exact GapBuffer.charAt?_source h position

/-- An edit leaves alone what lies before it. -/
theorem agreesBelow_of_splice (h : doc.IsValid) (hother : other.IsValid)
    (hrange : range.IsWithin doc.size)
    (hcontent : other.content = splice doc.content range text) :
    doc.source.AgreesBelow range.start other.source := by
  intro position hlt
  have hlength := length_content h
  have hwithin : range.start ≤ doc.content.length := by
    rw [hlength]
    exact Nat.le_trans hrange.1 hrange.2
  have htake : (doc.content.take range.start).length = range.start := by
    rw [List.length_take, Nat.min_eq_left hwithin]
  rw [charAt?_source h, charAt?_source hother, hcontent, splice, List.append_assoc,
    List.getElem?_append_left (by rw [htake]; exact hlt), List.getElem?_take_of_lt hlt]

/-- A slice of a list is clamped to it. -/
theorem sliceOf_clamp {α : Type} {list : List α} {size : Nat} (h : list.length = size)
    (start stop : Nat) :
    sliceOf list ⟨min start (min stop size), min (min stop size) size⟩ =
      sliceOf list ⟨start, stop⟩ := by
  have htake : list.take (min (min stop size) size) = list.take stop := by
    rw [List.take_eq_take_iff, h]
    omega
  unfold sliceOf
  dsimp only
  rw [htake]
  by_cases hle : start ≤ min stop size
  · rw [Nat.min_eq_left hle]
  · -- What begins behind the end is empty in any case.
    have hlength : (list.take stop).length = min stop size := by
      rw [List.length_take, h]
    rw [List.drop_of_length_le (by rw [hlength]; omega),
      List.drop_of_length_le (by rw [hlength]; omega)]

/-! ## The invariant -/

/-- The document highlights these regions, and what is remembered of the scan is right for its
text. -/
structure Remembers (regions : List Region) (doc : Document) : Prop where
  /-- The buffer is valid. -/
  valid : doc.IsValid
  /-- The highlighter is sound for the text. -/
  sound : ∃ scanner, doc.highlighter = .regions scanner ∧ scanner.regions = regions ∧
    scanner.Sound doc.source

/-- Nothing but the buffer and the highlighter matters. -/
theorem Remembers.congr (h : doc.Remembers regions) (hbuffer : other.buffer = doc.buffer)
    (hhighlighter : other.highlighter = doc.highlighter) : other.Remembers regions := by
  obtain ⟨hvalid, hsound⟩ := h
  refine ⟨?_, ?_⟩
  · unfold IsValid
    rw [hbuffer]
    exact hvalid
  · rw [hhighlighter]
    unfold source
    rw [hbuffer]
    exact hsound

/-- **An edit of which the highlighter is told** keeps what is remembered right. -/
theorem Remembers.edited (h : doc.Remembers regions)
    (hsees : ∀ region ∈ regions, region.SeesAtMost 3) (hrange : range.IsWithin doc.size)
    (hother : other.IsValid) (hcontent : other.content = splice doc.content range text)
    (hhighlighter : other.highlighter = doc.highlighter.alter (range.start - 1)) :
    other.Remembers regions := by
  obtain ⟨hvalid, scanner, hscanner, rfl, hsound⟩ := h
  have hagrees := agreesBelow_of_splice hvalid hother hrange hcontent
  refine ⟨hother, scanner.alter (range.start - 1), ?_, rfl, hsound.alter hsees hagrees⟩
  rw [hhighlighter, hscanner]
  rfl

/-- Exchanging a range in the buffer leaves the highlighter alone. -/
@[simp]
theorem highlighter_substitute (doc : Document) (text : List Char) (range : Selection) :
    (doc.substitute text range).highlighter = doc.highlighter := by
  unfold substitute
  split <;> rfl

/-- An edit lets the highlighter forget what it knew from one character before the change on. -/
@[simp]
theorem highlighter_replaceAccepted (doc : Document) (text : List Char) (range : Selection)
    (skip : Option SelectionHandle) (solid : Bool) (origin : EditOrigin) :
    (doc.replaceAccepted text range skip solid origin).highlighter =
      doc.highlighter.alter (range.start - 1) := by
  have hcount : ∀ (other : Document) (count : Nat),
      (other.countFilesAdded count origin).highlighter = other.highlighter := by
    intro other count
    unfold countFilesAdded
    split
    · dsimp only
      split <;> rfl
    · rfl
  unfold replaceAccepted
  rw [hcount]
  unfold announce apply
  dsimp only
  rw [highlighter_substitute]
  rfl

/-- An edit leaves the highlighter remembering nothing wrong. -/
theorem Remembers.replaceAccepted (h : doc.Remembers regions)
    (hsees : ∀ region ∈ regions, region.SeesAtMost 3) {target : Selection}
    (haccept : doc.accept target = .ok range) {skip : Option SelectionHandle} {solid : Bool}
    {origin : EditOrigin} : (doc.replaceAccepted text range skip solid origin).Remembers regions := by
  have hrange := isWithin_of_accept haccept
  exact h.edited hsees hrange (isValid_replaceAccepted h.valid)
    (content_replaceAccepted h.valid hrange) (highlighter_replaceAccepted _ _ _ _ _ _)

/-- A replayed passage is clamped, and then an edit like any other. -/
theorem Remembers.replay (h : doc.Remembers regions)
    (hsees : ∀ region ∈ regions, region.SeesAtMost 3) (passage : Passage) (text : List Char)
    (skip : Option SelectionHandle) : (doc.replay passage text skip).1.Remembers regions := by
  have hrange := Selection.clamp_isWithin ⟨passage.start, passage.stop⟩ doc.size
  refine h.edited hsees hrange (isValid_replay h.valid passage text skip)
    (content_apply h.valid text skip hrange) ?_
  unfold Document.replay Document.apply
  dsimp only
  rw [highlighter_substitute]

/-- A step through the history leaves the highlighter remembering nothing wrong. -/
theorem Remembers.travel (h : doc.Remembers regions)
    (hsees : ∀ region ∈ regions, region.SeesAtMost 3) (redo : Bool)
    (skip : Option SelectionHandle) : (doc.travel redo skip).1.Remembers regions := by
  refine travel_induction (fun doc entry older _ h => ?_) (fun doc entry later _ h => ?_) doc redo h
  · unfold takenBack
    refine Remembers.replay ?_ hsees _ _ _
    exact h.congr rfl rfl
  · unfold appliedAgain
    refine Remembers.replay ?_ hsees _ _ _
    exact h.congr rfl rfl

/-- Another text leaves the highlighter remembering nothing wrong. -/
theorem Remembers.replaceAll (h : doc.Remembers regions)
    (hsees : ∀ region ∈ regions, region.SeesAtMost 3) (text : List Char) :
    (doc.replaceAll text).Remembers regions :=
  replaceAll_of_accepted (fun _ _ h => h.congr rfl rfl) h fun _ _ haccept =>
    h.replaceAccepted hsees haccept

/-- A request changes what is remembered, and the tags of the glyphs. -/
theorem Remembers.highlight (h : doc.Remembers regions) (start stop : Nat) :
    (doc.highlight start stop).1.Remembers regions ∧
      (doc.highlight start stop).2 =
        sliceOf (ScanState.tags regions doc.source) ⟨start, stop⟩ := by
  obtain ⟨hvalid, scanner, hscanner, rfl, hsound⟩ := h
  obtain ⟨hkept, hregions, htags⟩ :=
    hsound.highlight (min start (min stop doc.size)) (min stop doc.size)
  -- Clamping the request does not change the slice.
  have hlength : (ScanState.tags scanner.regions doc.source).length = doc.size :=
    ScanState.length_tagsFrom scanner.regions doc.source .origin
  have hslice : sliceOf (ScanState.tags scanner.regions doc.source)
      ⟨min start (min stop doc.size), min (min stop doc.size) doc.source.size⟩ =
        sliceOf (ScanState.tags scanner.regions doc.source) ⟨start, stop⟩ :=
    sliceOf_clamp hlength start stop
  rw [hslice] at htags
  unfold Document.highlight Highlighter.highlight
  dsimp only
  rw [hscanner]
  refine ⟨⟨GapBuffer.isValid_setTags hvalid _ _, _, rfl, hregions, ?_⟩, htags⟩
  show RegionHighlighter.Sound _ (GapBuffer.setTags _ _ _).source
  rw [GapBuffer.source_setTags]
  exact hkept

/-- What edits keep of what is remembered. -/
theorem editsKeep_remembers (hsees : ∀ region ∈ regions, region.SeesAtMost 3) :
    Run.EditsKeep fun doc _ => doc.Remembers regions := by
  intro doc fresh target text h
  split
  · exact h
  · next range haccept => exact h.replaceAccepted hsees haccept

/-- Reading a file again is an edit. -/
theorem Remembers.reload (h : doc.Remembers regions)
    (hsees : ∀ region ∈ regions, region.SeesAtMost 3) {files : FileSystem} {create : Bool}
    {after : Document} (hreload : doc.reload files create = .ok after) :
    after.Remembers regions :=
  reload_of_replaceAll (fun _ text h => h.replaceAll hsees text) (fun _ h => h.congr rfl rfl)
    (fun _ h => h.congr rfl rfl) (fun _ _ h => h.congr rfl rfl) (fun _ _ h => h.congr rfl rfl)
    (fun _ h => h.congr rfl rfl) h hreload

/-- Writing a file does not touch the text. -/
theorem Remembers.save (h : doc.Remembers regions) {files after : FileSystem} {written : Document}
    (hsave : doc.save files = .ok (written, after)) : written.Remembers regions := by
  unfold Document.save at hsave
  split at hsave
  · cases hsave
  · cases hsave
    exact h.congr rfl rfl

end Document

/-! ## Operations -/

variable {regions : List Region}

/-- **Every operation keeps what is remembered right.** -/
theorem remembers_perform (hsees : ∀ region ∈ regions, region.SeesAtMost 3)
    (operation : Operation σ) (session : Session σ) (h : session.document.Remembers regions) :
    (operation.perform session).document.Remembers regions := by
  have hselections : ∀ (doc : Document) selections, doc.Remembers regions →
      ({ doc with selections } : Document).Remembers regions := fun _ _ h => h.congr rfl rfl
  -- What changes the text is an edit or a replay, and everything else leaves it alone.
  cases operation with
  | replace text target solid origin =>
    exact Document.replaceSkipping_of_accepted h fun _ haccept => h.replaceAccepted hsees haccept
  | replaceAt text handle solid origin =>
    exact Document.replaceAt_of_accepted hselections h fun _ _ haccept =>
      h.replaceAccepted hsees haccept
  | replaceAll text => exact h.replaceAll hsees text
  | interpret env program dot =>
    obtain ⟨_, hafter⟩ := ({ session with dot } : Session σ).interpret_keeps
      (Document.editsKeep_remembers hsees) env program h
    exact hafter
  | undo sel redo => exact h.travel hsees redo none
  | undoAt handle redo =>
    exact Document.undoAt_of_travel hselections (h.travel hsees redo (some handle))
  | flushHistory => exact h.congr rfl rfl
  | setEditable editable => exact h.congr rfl rfl
  | protect count => exact h.congr rfl rfl
  | addSelection sel => exact h.congr rfl rfl
  | setSelection handle sel => exact h.congr rfl rfl
  | eraseSelection handle => exact h.congr rfl rfl
  | highlight start stop => exact (h.highlight start stop).1
  | listen listening =>
    cases listening with
    | true => exact h.congr rfl rfl
    | false => exact h.congr rfl rfl
  | save =>
    simp only [Operation.perform]
    split
    · next document files heq => exact h.save heq
    · exact h
  | reload create =>
    simp only [Operation.perform]
    split
    · next document heq => exact h.reload hsees heq
    · exact h
  | wait clock => exact h.congr rfl rfl
  | changeFiles files => exact h

/-- Any run of operations leaves the highlighter remembering nothing wrong. -/
theorem remembers_run (hsees : ∀ region ∈ regions, region.SeesAtMost 3)
    (operations : List (Operation σ)) (session : Session σ)
    (h : session.document.Remembers regions) :
    (Operation.run operations session).document.Remembers regions := by
  induction operations generalizing session with
  | nil => exact h
  | cons operation rest ih => exact ih _ (remembers_perform hsees operation session h)

/-- **What a highlighter remembers does not show**, as long as no delimiter of its regions sees more
than three characters. After any operations on a document with a new highlighter, a request for any
part of the text is answered with that part of the tags which a new highlighter gives the whole
text. -/
theorem highlight_run {rules : List RegionRule} {fresh : RegionHighlighter}
    (hrules : RegionHighlighter.ofRules rules = .ok fresh)
    (hsees : ∀ region ∈ fresh.regions, region.SeesAtMost 3) (session : Session σ)
    (hvalid : session.document.IsValid) (hfresh : session.document.highlighter = .regions fresh)
    (operations : List (Operation σ)) (start stop : Nat) :
    ((Operation.run operations session).document.highlight start stop).2 =
      sliceOf (fresh.highlight (Operation.run operations session).document.source 0
        (Operation.run operations session).document.size).2 ⟨start, stop⟩ := by
  have hnew : ∃ regions, fresh = .ofRegions regions := by
    unfold RegionHighlighter.ofRules at hrules
    cases hregions : rules.mapM Region.ofRule with
    | error error =>
      rw [hregions] at hrules
      cases hrules
    | ok regions =>
      rw [hregions] at hrules
      cases hrules
      exact ⟨regions, rfl⟩
  have hsound (text : Source) : fresh.Sound text := by
    obtain ⟨regions, rfl⟩ := hnew
    exact RegionHighlighter.sound_ofRegions regions text
  have hremembers : session.document.Remembers fresh.regions :=
    ⟨hvalid, fresh, hfresh, rfl, hsound _⟩
  generalize hdoc : (Operation.run operations session).document = doc
  have hafter := remembers_run hsees operations session hremembers
  rw [hdoc] at hafter
  -- A new highlighter is asked for everything, so its slice is all of the tags.
  obtain ⟨_, _, hall⟩ := (hsound doc.source).highlight 0 doc.size
  have hlength : (ScanState.tags fresh.regions doc.source).length = doc.size :=
    ScanState.length_tagsFrom fresh.regions doc.source .origin
  have hwhole : sliceOf (ScanState.tags fresh.regions doc.source)
      ⟨0, min doc.size doc.source.size⟩ = ScanState.tags fresh.regions doc.source := by
    have hsize : min doc.size doc.source.size = doc.size := Nat.min_self _
    rw [hsize, sliceOf, List.drop_zero, List.take_of_length_le (Nat.le_of_eq hlength)]
  rw [(hafter.highlight start stop).2, hall, hwhole]

/-- The rule for comments between `<!--` and `-->`. -/
def RegionRule.markup : RegionRule :=
  .comment "<!--" "-->"

/-- A session on a text, with a new highlighter. -/
def Session.tagged (fresh : RegionHighlighter) (text : String) : Session Unit :=
  ⟨{ Document.blank "." "+notes" {} with
    buffer := GapBuffer.empty.insert 0 text.toList, highlighter := .regions fresh },
    .empty, (), .point 0, true⟩

/-- The document of such a session is valid. -/
theorem Session.isValid_tagged (fresh : RegionHighlighter) (text : String) :
    (Session.tagged fresh text).document.IsValid := by
  unfold Document.IsValid Session.tagged
  dsimp only
  exact (GapBuffer.represents_ofText text.toList).valid

/-- Comments between two texts of two characters: the first request is made before the comment is
opened. -/
theorem highlight_run_comment :
    ∃ fresh, RegionHighlighter.ofRules [.comment "/*" "*/"] = .ok fresh ∧
      ((Operation.run [.highlight 0 1, .replace ['*'] ⟨1, 2⟩ true .program]
        (Session.tagged fresh "/ab")).document.highlight 1 3).2 =
      sliceOf (fresh.highlight (Operation.run [.highlight 0 1, .replace ['*'] ⟨1, 2⟩ true .program]
        (Session.tagged fresh "/ab")).document.source 0
          (Operation.run [.highlight 0 1, .replace ['*'] ⟨1, 2⟩ true .program]
            (Session.tagged fresh "/ab")).document.size).2 ⟨1, 3⟩ := by
  let fresh : RegionHighlighter := .ofRegions
    [⟨.text ['/', '*'], .text ['*', '/'], none, RegionKind.comment.tag, RegionKind.comment.tag⟩]
  have hrules : RegionHighlighter.ofRules [.comment "/*" "*/"] = .ok fresh := rfl
  have hsees : ∀ region ∈ fresh.regions, region.SeesAtMost 3 := by
    intro region hmem
    rw [List.mem_singleton.1 hmem]
    exact ⟨Delimiter.seesAtMost_text (by decide), Delimiter.seesAtMost_text (by decide)⟩
  exact ⟨fresh, hrules, highlight_run hrules hsees (.tagged fresh "/ab")
    (Session.isValid_tagged fresh "/ab") rfl _ 1 3⟩

/-- A delimiter of four characters: that the second request begins where no comment has begun was
decided before there was one. -/
theorem not_highlight_run :
    ¬∀ (rules : List RegionRule) (fresh : RegionHighlighter),
      RegionHighlighter.ofRules rules = .ok fresh → ∀ (session : Session Unit),
      session.document.IsValid → session.document.highlighter = .regions fresh →
      ∀ (operations : List (Operation Unit)) (start stop : Nat),
      ((Operation.run operations session).document.highlight start stop).2 =
        sliceOf (fresh.highlight (Operation.run operations session).document.source 0
          (Operation.run operations session).document.size).2 ⟨start, stop⟩ := by
  intro h
  let fresh : RegionHighlighter := .ofRegions [⟨.text ['<', '!', '-', '-'],
    .text ['-', '-', '>'], none, RegionKind.comment.tag, RegionKind.comment.tag⟩]
  have hslice := h [.markup] fresh rfl (.tagged fresh "<!-x") (Session.isValid_tagged fresh "<!-x") rfl
    [.highlight 0 1, .replace ['-'] ⟨3, 4⟩ true .program] 1 4
  have hstale : ((Operation.run [.highlight 0 1, .replace ['-'] ⟨3, 4⟩ true .program]
      (Session.tagged fresh "<!-x")).document.highlight 1 4).2 = [1, 1, 1] := by
    set_option maxRecDepth 1000 in cbv
  have hnew : sliceOf (fresh.highlight (Operation.run [.highlight 0 1,
      .replace ['-'] ⟨3, 4⟩ true .program] (Session.tagged fresh "<!-x")).document.source 0
        (Operation.run [.highlight 0 1, .replace ['-'] ⟨3, 4⟩ true .program]
          (Session.tagged fresh "<!-x")).document.size).2 ⟨1, 4⟩ = [3, 3, 3] := by
    set_option maxRecDepth 1000 in cbv
  rw [hstale, hnew] at hslice
  cases hslice

end Emend
