import Emend.Proofs.Document.Following
import Emend.Proofs.Session.OneStep
import Emend.Proofs.Session.Reopening

/-!
# Reading a file again

Reading the file of a document again puts in its text by an edit, then puts the registered
selections back to where they were, and marks the document as saved. The edit is refused if the
document is not editable or a part of it is protected, for it begins at the beginning of the text.
The rest happens all the same: the document counts as unmodified, whatever its file holds.

An edit that is taken is an entry of its own in the history, so one undo takes it back, and nothing
else (`content_undo_reload`). If it is refused, undoing takes back the step before, as it would have
done without reading the file: marks have no part in what an entry puts back
(`buffer_undoEntries_congr`).
-/

namespace Emend

variable {doc : Document}

namespace Document

/-! ## Selections -/

/-- **The registered selections stay where they are**, as far as the new text reaches. -/
theorem get?_replaceAll (doc : Document) (text : List Char) (handle : SelectionHandle) :
    (doc.replaceAll text).selections.get? handle =
      (doc.selections.get? handle).map (·.clamp (doc.replaceAll text).size) := by
  let edited := (doc.replace text doc.whole true .program).1
  -- The edit leaves the same handles registered.
  have hregistered : (edited.selections.get? handle).isSome =
      ((doc.selections.get? handle).map (·.clamp edited.size)).isSome := by
    rw [Option.isSome_map]
    dsimp only [edited]
    unfold replace replaceSkipping
    cases doc.accept doc.whole with
    | error sel => rfl
    | ok range =>
      dsimp only
      rw [selections_replaceAccepted, Selections.get?_shift, if_neg nofun, Option.isSome_map]
  have hset : (doc.selections.toList.foldl
      (fun selections entry => selections.set entry.1 (entry.2.clamp edited.size))
      edited.selections).get? handle =
      (doc.selections.get? handle).map (·.clamp edited.size) := by
    refine Selections.get?_foldl_set (·.clamp edited.size) hregistered (fun entry hmem hentry => ?_)
      ?_
    · obtain ⟨_, sel⟩ := entry
      obtain rfl := hentry
      rw [Selections.mem_toList_iff.1 hmem]
      rfl
    · cases hget : doc.selections.get? handle with
      | some sel => exact .inr ⟨_, Selections.mem_toList_iff.2 hget, rfl⟩
      | none =>
        rw [hget] at hregistered
        exact .inl (Option.not_isSome_iff_eq_none.1 (by rw [hregistered]; exact nofun))
  exact hset

/-! ## Undoing what was read -/

variable {after other : Document} {entry : HistoryEntry} {older : List HistoryEntry}

/-- Undoing a solid entry that has put in the whole text gives the text back that was there. -/
theorem content_undo_whole (hvalid : after.IsValid) (hedit : after.editable = true)
    (happlied : after.history.applied = entry :: older) (hsolid : entry.solid = true)
    (hentry : entry.after = .at 0 after.content) (skip : Option SelectionHandle) :
    (after.travel false skip).1.content = entry.before.text := by
  have hundo : (after.travel false skip).1 = (after.takenBack skip entry older).1 := by
    unfold travel
    rw [hedit, happlied]
    simp only [Bool.not_true, Bool.false_eq_true, if_false, undoEntries_cons, hsolid, if_true]
  have hrange : (⟨entry.after.start, entry.after.stop⟩ : Selection) = after.whole := by
    rw [hentry, whole, ← length_content hvalid]
    exact Selection.ext rfl (Nat.zero_add _)
  have hwithin : Selection.IsWithin ⟨entry.after.start, entry.after.stop⟩ after.size :=
    hrange ▸ after.whole_isWithin
  rw [hundo]
  unfold takenBack
  -- Moving the cursor of the history leaves the text as it is.
  rw [content_replay]
  · rw [hrange]
    exact splice_whole hvalid entry.before.text
  · exact hvalid
  · exact hwithin

/-- What was read is taken back by one undo. -/
theorem content_undo_reload (hvalid : doc.IsValid) (h : doc.TakesAll) {text : List Char}
    {words : List String} {wordsTime : Option Nat}
    (hafter : after = { doc.replaceAll text with
      modified := false, history := (doc.replaceAll text).history.markSaved, words, wordsTime })
    (skip : Option SelectionHandle) : (after.travel false skip).1.content = doc.content := by
  have hcontent : after.content = text := by
    rw [hafter]
    exact h.content_replaceAll hvalid text
  obtain ⟨selections, hreplace⟩ := h.replaceAll text
  rw [hreplace] at hafter
  have hedited : after.IsValid := by
    rw [hafter]
    exact isValid_replaceAccepted hvalid
  have heditable : after.editable = true := by
    rw [hafter]
    exact editable_replaceAccepted.trans h.1
  -- The edit is an entry of its own, as it was not typed.
  have hadd : (doc.history.add (doc.entryFor text doc.whole true .program) doc.clock).applied =
      doc.entryFor text doc.whole true .program :: doc.history.applied := by
    rcases doc.history.add_cases (doc.entryFor text doc.whole true .program) doc.clock with
      heq | ⟨_, _, _, hgoes, _⟩
    · rw [heq]
      rfl
    · cases hgoes
  have happlied : after.history.applied =
      { History.unmark (doc.entryFor text doc.whole true .program) with saved := true } ::
        doc.history.applied.map History.unmark := by
    rw [hafter]
    show (History.markSaved (doc.replaceAccepted text doc.whole none true .program).history).applied
      = _
    rw [history_replaceAccepted, History.markSaved, hadd]
    rfl
  have hundo : (after.travel false skip).1.content = doc.text doc.whole :=
    content_undo_whole hedited heditable happlied rfl (congrArg (Passage.at 0) hcontent.symm) skip
  rw [hundo, text_of_isWithin hvalid doc.whole_isWithin, sliceOf, whole, List.drop_zero,
    ← length_content hvalid, List.take_length]

/-! ## Undoing past a refused edit -/

/-- Two entries put back the same: they differ at most in when they were made and in their marks. -/
structure SameEdit (entry other : HistoryEntry) : Prop where
  /-- They removed the same. -/
  before : entry.before = other.before
  /-- They put in the same. -/
  after : entry.after = other.after
  /-- One begins a step if the other does. -/
  solid : entry.solid = other.solid

/-- Marking a state as saved changes nothing that is put back. -/
theorem sameEdit_markSaved (history : History) :
    List.Forall₂ SameEdit history.applied history.markSaved.applied := by
  have hmark : ∀ entry, SameEdit entry (History.unmark entry) := fun entry => ⟨rfl, rfl, rfl⟩
  unfold History.markSaved
  cases history.applied with
  | nil => exact .nil
  | cons newest older =>
    exact .cons ⟨rfl, rfl, rfl⟩ (List.forall₂_map_right_iff.2 (List.forall₂_same.2 fun entry _ =>
      hmark entry))

/-- What a replacement makes of the buffer depends on the buffer only. -/
theorem buffer_substitute_congr (h : doc.buffer = other.buffer) (text : List Char)
    (range : Selection) :
    (doc.substitute text range).buffer = (other.substitute text range).buffer := by
  unfold substitute
  split
  · dsimp only
    rw [h]
  · dsimp only
    rw [h]

/-- What an entry makes of the buffer depends on the buffer only. -/
theorem buffer_replay_congr (h : doc.buffer = other.buffer) (passage : Passage) (text : List Char)
    (skip : Option SelectionHandle) :
    (doc.replay passage text skip).1.buffer = (other.replay passage text skip).1.buffer := by
  have hsize : doc.size = other.size := congrArg GapBuffer.size h
  show (doc.substitute text (Selection.clamp _ doc.size)).buffer =
    (other.substitute text (Selection.clamp _ other.size)).buffer
  rw [hsize]
  exact buffer_substitute_congr h text _

/-- **What is undone depends on the text and on what the entries put back**, and on nothing else. -/
theorem buffer_undoEntries_congr {entries others : List HistoryEntry}
    (h : List.Forall₂ SameEdit entries others) (hbuffer : doc.buffer = other.buffer)
    (skip : Option SelectionHandle) (last last' : Option Selection) :
    (doc.undoEntries skip last entries).1.buffer =
      (other.undoEntries skip last' others).1.buffer := by
  induction h generalizing doc other last last' with
  | nil => exact hbuffer
  | @cons entry second older rest hsame _ ih =>
    obtain ⟨hbefore, hafter, hsolid⟩ := hsame
    have hback : (doc.takenBack skip entry older).1.buffer =
        (other.takenBack skip second rest).1.buffer := by
      unfold takenBack
      rw [hbefore, hafter]
      apply buffer_replay_congr
      exact hbuffer
    rw [undoEntries_cons, undoEntries_cons, hsolid]
    split
    · exact hback
    · exact ih hback _ _

/-- **What reading a file again leaves.** A regular file that is neither too large nor looks binary
is read without a failure; afterwards the document is unmodified, and each registered selection is
what it was, cut off at the end of the text. But the document shows the text of the file only if it
takes a whole new text, or had that text already: if it is not editable, or a part of it is
protected, its text stays. Likewise one undo of an editable document gives back the text from before
only if that was replaced, or if undoing would have changed nothing without reading the file. -/
theorem reload_shows (hvalid : doc.IsValid) {files : FileSystem} {place : FilePlace}
    {bytes : List UInt8} {executable : Bool}
    (hfind : files.find doc.path = .ok (place, .file bytes executable))
    (hsize : bytes.length ≤ doc.maxFileSize) (hbinary : isBinary bytes = false) (create : Bool) :
    ∃ after, doc.reload files create = .ok after ∧ after.modified = false ∧
      (∀ handle, after.selections.get? handle =
        (doc.selections.get? handle).map (·.clamp after.size)) ∧
      (after.content = Utf8.decodeLossy bytes ↔
        doc.TakesAll ∨ doc.content = Utf8.decodeLossy bytes) ∧
      (¬doc.TakesAll → after.content = doc.content) ∧
      (doc.editable = true → ∀ skip, (after.travel false skip).1.content = doc.content ↔
        doc.TakesAll ∨ (doc.travel false skip).1.content = doc.content) := by
  obtain ⟨after, words, wordsTime, hreload, hafter⟩ :=
    reload_of_load (FileSystem.load_of_find hfind hsize hbinary) create
  have hmodified : after.modified = false := by
    rw [hafter]
  have hselections : ∀ handle, after.selections.get? handle =
      (doc.selections.get? handle).map (·.clamp after.size) := by
    rw [hafter]
    exact get?_replaceAll doc (Utf8.decodeLossy bytes)
  refine ⟨after, hreload, hmodified, hselections, ?_⟩
  by_cases htakes : doc.TakesAll
  · -- The text is replaced by one edit, which undo takes back.
    have hcontent : after.content = Utf8.decodeLossy bytes := by
      obtain ⟨selections, hreplace⟩ := htakes.replaceAll (Utf8.decodeLossy bytes)
      rw [hafter, hreplace]
      exact (content_replaceAccepted hvalid doc.whole_isWithin).trans (splice_whole hvalid _)
    exact ⟨iff_of_true hcontent (.inl htakes), fun hnot => absurd htakes hnot,
      fun _ skip => iff_of_true (content_undo_reload hvalid htakes hafter skip) (.inl htakes)⟩
  · -- The text is refused: the document differs from before in its selections and marks only.
    obtain ⟨selections, hreplace⟩ := replaceAll_of_not_takesAll htakes (Utf8.decodeLossy bytes)
    rw [hreplace] at hafter
    have hcontent : after.content = doc.content := by
      rw [hafter]
      rfl
    refine ⟨?_, fun _ => hcontent, fun hedit skip => ?_⟩
    · rw [hcontent, or_iff_right htakes]
    · have hundo : (after.travel false skip).1.buffer = (doc.travel false skip).1.buffer := by
        have heditable : after.editable = true := by
          rw [hafter]
          exact hedit
        have hbuffer : doc.buffer = after.buffer := by
          rw [hafter]
        have happlied : List.Forall₂ SameEdit doc.history.applied after.history.applied := by
          rw [hafter]
          exact sameEdit_markSaved doc.history
        unfold travel
        rw [heditable, hedit]
        exact (buffer_undoEntries_congr happlied hbuffer skip none none).symm
      rw [content_eq_toList, hundo, ← content_eq_toList, or_iff_right htakes]

end Document

/-- A blank document with a file that holds one letter. -/
def Session.filed : Session Unit :=
  ⟨.blank "." "f" {}, ⟨[(["f"], .file [99] false)]⟩, (), .point 0, true⟩

/-- The bytes of the letter are not binary. -/
theorem isBinary_letter : isBinary [99] = false :=
  have hplain : IsPlainText ['c'] := fun c hc => by
    rw [List.mem_singleton.1 hc]
    decide
  isBinary_encode hplain

/-- A byte below 128 is a character. -/
theorem decodeLossy_letter : Utf8.decodeLossy [99] = ['c'] :=
  Utf8.decodeLossy_encode ['c']

/-- A text that is not that of the file, with a selection. -/
def Session.outdated : Session Unit :=
  Operation.run [.replaceAll "ab".toList, .addSelection ⟨1, 2⟩] .filed

/-- The letter in the file takes the place of the text, and undoing brings that back. -/
theorem Document.reload_shows_letter :
    ∃ after, Session.outdated.document.reload Session.outdated.files false = .ok after ∧
      after.content = ['c'] ∧ after.modified = false ∧
      after.selections.get? ⟨0⟩ = some ⟨1, 1⟩ ∧
      (after.travel false none).1.content = "ab".toList := by
  -- The document is as the theorem asks.
  have hvalid : Session.outdated.document.IsValid :=
    isValid_run _ _ (.blank "." "f" {} .plain)
  have hfind : Session.outdated.files.find Session.outdated.document.path =
      .ok (["f"], .file [99] false) := by
    set_option maxRecDepth 1000 in cbv
  have hlimit : Session.outdated.document.maxFileSize = Settings.maxFileSize {} := by
    set_option maxRecDepth 1000 in cbv
  have hsize : [(99 : UInt8)].length ≤ Session.outdated.document.maxFileSize := by
    rw [hlimit]
    decide
  have hedit : Session.outdated.document.editable = true := by
    set_option maxRecDepth 1000 in cbv
  have hfree : Session.outdated.document.protected? = none := by
    set_option maxRecDepth 1000 in cbv
  have hbefore : Session.outdated.document.content = "ab".toList := by
    set_option maxRecDepth 1000 in cbv
  have hselection : Session.outdated.document.selections.get? ⟨0⟩ = some ⟨1, 2⟩ := by
    set_option maxRecDepth 1000 in cbv
  have htakes : Session.outdated.document.TakesAll :=
    Document.takesAll_of_free hedit hfree
  have hlength : (Session.outdated.document.reload Session.outdated.files false).map (·.size) =
      .ok 1 := by
    set_option maxRecDepth 1000 in cbv
  -- The selection is cut off at the end of the letter.
  obtain ⟨after, hreload, hmodified, hselections, hshows, _, hundo⟩ :=
    reload_shows hvalid hfind hsize isBinary_letter false
  rw [hreload] at hlength
  have hone : after.size = 1 := Except.ok.inj hlength
  have hkept : after.selections.get? ⟨0⟩ = some ⟨1, 1⟩ := by
    rw [hselections, hselection, hone]
    rfl
  exact ⟨after, hreload, (hshows.2 (.inl htakes)).trans decodeLossy_letter, hmodified, hkept,
    ((hundo hedit none).2 (.inl htakes)).trans hbefore⟩

/-- Reading a file again does not always show it. -/
theorem Document.not_reload_shows :
    ¬∀ (start : Session Unit) (operations : List (Operation Unit)) (place : FilePlace)
      (bytes : List UInt8) (executable : Bool) (after : Document),
      start.document.Created →
      (Operation.run operations start).files.find
        (Operation.run operations start).document.path = .ok (place, .file bytes executable) →
      bytes.length ≤ (Operation.run operations start).document.maxFileSize →
      isBinary bytes = false →
      (Operation.run operations start).document.reload (Operation.run operations start).files
        false = .ok after →
      after.content = Utf8.decodeLossy bytes := by
  intro hall
  let operations : List (Operation Unit) := [.replaceAll "ab".toList, .setEditable false]
  have hfind : (Operation.run operations .filed).files.find
      (Operation.run operations .filed).document.path = .ok (["f"], .file [99] false) := by
    set_option maxRecDepth 1000 in cbv
  have hlimit : (Operation.run operations .filed).document.maxFileSize =
      Settings.maxFileSize {} := by
    set_option maxRecDepth 1000 in cbv
  have hcontent : ((Operation.run operations .filed).document.reload
      (Operation.run operations .filed).files false).map (·.content) = .ok "ab".toList := by
    set_option maxRecDepth 1000 in cbv
  cases hreload : (Operation.run operations .filed).document.reload
      (Operation.run operations .filed).files false with
  | error error =>
    rw [hreload] at hcontent
    cases hcontent
  | ok after =>
    have hshows := hall .filed operations ["f"] [99] false after (.blank "." "f" {} .plain) hfind
      (by rw [hlimit]; decide) isBinary_letter hreload
    rw [hreload] at hcontent
    have hafter : after.content = "ab".toList := Except.ok.inj hcontent
    rw [hafter, decodeLossy_letter] at hshows
    exact absurd hshows (by decide)

end Emend
