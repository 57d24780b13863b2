import Emend.Proofs.Command.Keeping
import Emend.Proofs.Document.Travel
import Emend.Proofs.Session.Operation

/-!
# When the flag of an unmodified document can be trusted

A document counts as unmodified right after it was read or written, and again when undo or redo
comes back to that state, which the history knows by its mark: one entry is marked as the last one
before, or the state without entries is. The mark is right as long as what it marks leads to the
text that was last read or written. `Document.Honest` is this invariant.

Three things break it, and `Operation.IsCareful` rules out just these. A keystroke can be added to
the marked entry, which then leads to a longer text. The history can be forgotten while the state
without entries is marked, and the mark stays on whatever text is there. And a document whose file
has become a directory shows a listing. All other operations keep the invariant
(`Honest.perform`), programs among them: the first edit of a program never goes on with what was
typed before, and the later ones never with a marked entry.

The condition is exact (`careful_iff_flag_true`): after a step that is not careful, some steps of
undo, redo and plain replacement lead to a document that counts as unmodified with another text.
-/

namespace Emend

variable {σ : Type} {saved : List Char} {doc : Document}

/-- A marked entry leads to the saved text. -/
def HistoryEntry.MarksSaved (saved : List Char) (entry : HistoryEntry) (content : List Char) :
    Prop :=
  entry.saved = true → content = saved

/-- Recording the entry would add to a marked one. -/
def History.ContinuesMarked (history : History) (entry : HistoryEntry) (now : Nat) : Prop :=
  ∃ previous older, history.applied = previous :: older ∧ previous.saved = true ∧
    history.continues previous entry now = true

/-- The newest entry is not marked. -/
def History.NewestUnmarked (history : History) : Prop :=
  ∀ newest older, history.applied = newest :: older → newest.saved = false

/-- An edit that begins a step and was not typed is an entry of its own. -/
theorem History.not_continues {history : History} {previous entry : HistoryEntry} {now : Nat}
    (hsolid : entry.solid = true) (htyped : entry.typed = false) :
    history.continues previous entry now = false := by
  unfold History.continues
  rw [hsolid, htyped]
  rfl

/-- Recording an edit keeps the mark of the state without entries. -/
@[simp]
theorem History.blankIsSaved_add (history : History) (entry : HistoryEntry) (now : Nat) :
    (history.add entry now).blankIsSaved = history.blankIsSaved := by
  rcases history.add_cases entry now with heq | ⟨_, _, _, _, heq⟩
  · rw [heq]
  · rw [heq]

/-- After recording an edit that adds to no marked entry, the newest one is not marked. -/
theorem History.newestUnmarked_add {history : History} {entry : HistoryEntry} {now : Nat}
    (hentry : entry.saved = false) (h : ¬ history.ContinuesMarked entry now) :
    (history.add entry now).NewestUnmarked := by
  intro newest older hnewest
  rcases history.add_cases entry now with heq | ⟨previous, rest, happlied, hgoes, heq⟩
  · rw [heq] at hnewest
    cases hnewest
    exact hentry
  · rw [heq] at hnewest
    cases hnewest
    -- The mark of the longer entry is that of the one it goes on with.
    cases hsaved : previous.saved with
    | false => exact hsaved
    | true => exact absurd ⟨previous, older, happlied, hsaved, hgoes⟩ h

namespace Document

/-- If the history says that the document is saved, it has the saved text. -/
theorem content_of_isSaved {base last : List Char}
    (hline : doc.OnTimeline (HistoryEntry.MarksSaved saved) base last)
    (hbase : doc.history.blankIsSaved = true → base = saved)
    (hsaved : doc.history.isSaved = true) : doc.content = saved := by
  obtain ⟨_, hstacks, _⟩ := hline
  unfold History.isSaved at hsaved
  split at hsaved
  · next happlied =>
    rw [happlied] at hstacks
    cases hstacks
    exact hbase hsaved
  · next newest older happlied =>
    rw [happlied] at hstacks
    obtain _ | ⟨_, _, here⟩ := hstacks
    exact here hsaved

/-- The document is one whose history marks no text but the saved one, whose flag is right, and
which lets every edit through. -/
structure Honest (saved : List Char) (doc : Document) : Prop where
  /-- Marked entries lead to the saved text, and so does the base if it is marked. -/
  marks : ∃ base last, doc.OnTimeline (HistoryEntry.MarksSaved saved) base last ∧
    (doc.history.blankIsSaved = true → base = saved)
  /-- A document that counts as unmodified has the saved text. -/
  flag : doc.modified = false → doc.content = saved
  /-- The document is editable. -/
  editable : doc.editable = true
  /-- No part of it is protected. -/
  unprotected : doc.protected? = none

/-- An honest document is valid. -/
theorem Honest.valid (h : doc.Honest saved) : doc.IsValid := by
  obtain ⟨_, _, hline, _⟩ := h.marks
  exact hline.valid

/-- Nothing but the text, the history, the flag and the access to the document matters. -/
theorem Honest.congr {other : Document} (h : doc.Honest saved)
    (hbuffer : other.buffer = doc.buffer) (hhistory : other.history = doc.history)
    (hmodified : other.modified = doc.modified) (heditable : other.editable = doc.editable)
    (hprotected : other.protected? = doc.protected?) : other.Honest saved := by
  obtain ⟨⟨base, last, hline, hbase⟩, hflag, hedit, hfree⟩ := h
  have hcontent : other.content = doc.content := by
    rw [content_eq_toList, content_eq_toList, hbuffer]
  constructor
  · refine ⟨base, last, hline.congr hbuffer hhistory, ?_⟩
    rw [hhistory]
    exact hbase
  · rw [hmodified, hcontent]
    exact hflag
  · rw [heditable, hedit]
  · rw [hprotected, hfree]

/-! ## Edits -/

/-- A careful edit keeps the invariant, and leaves an entry without a mark. -/
theorem Honest.replaceAccepted {target range : Selection} {text : List Char}
    {solid : Bool} {origin : EditOrigin} (h : doc.Honest saved) (skip : Option SelectionHandle)
    (haccept : doc.accept target = .ok range)
    (hcareful : ¬ doc.history.ContinuesMarked (doc.entryFor text range solid origin) doc.clock) :
    (doc.replaceAccepted text range skip solid origin).Honest saved ∧
      (doc.replaceAccepted text range skip solid origin).history.NewestUnmarked := by
  obtain ⟨⟨base, last, hline, hbase⟩, hflag, hedit, hfree⟩ := h
  have hsame := sameCore_replaceAccepted doc text range skip solid origin
  refine ⟨⟨⟨base, _, hline.replaceAccepted skip haccept ?_ ?_, ?_⟩, ?_, ?_, ?_⟩, ?_⟩
  · intro hmarked
    cases hmarked
  · intro previous older happlied hgoes hmarked
    exact absurd ⟨previous, older, happlied, hmarked, hgoes⟩ hcareful
  · rw [history_replaceAccepted, History.blankIsSaved_add]
    exact hbase
  · intro hunmodified
    rw [hsame.modified] at hunmodified
    cases hunmodified
  · exact editable_replaceAccepted.trans hedit
  · exact protected_replaceAccepted.trans hfree
  · rw [history_replaceAccepted]
    exact History.newestUnmarked_add rfl hcareful

/-- An edit that begins a step and was not typed is careful. -/
theorem not_continuesMarked_of_solid (doc : Document) (text : List Char) (range : Selection)
    {origin : EditOrigin} (horigin : origin ≠ .keyboard) (now : Nat) :
    ¬ doc.history.ContinuesMarked (doc.entryFor text range true origin) now := by
  rintro ⟨previous, older, _, _, hgoes⟩
  rw [History.not_continues rfl (decide_eq_false horigin)] at hgoes
  cases hgoes

/-- Another text keeps a document honest. -/
theorem Honest.replaceAll (h : doc.Honest saved) (text : List Char) :
    (doc.replaceAll text).Honest saved :=
  replaceAll_of_accepted (fun _ _ h => h.congr rfl rfl rfl rfl rfl) h
    fun _ range haccept =>
      (h.replaceAccepted none haccept (not_continuesMarked_of_solid doc text range (by decide) _)).1

/-- What a program keeps: once it has edited the document, the newest entry has no mark. -/
def HonestSoFar (saved : List Char) (doc : Document) (fresh : Bool) : Prop :=
  doc.Honest saved ∧ (fresh = false → doc.history.NewestUnmarked)

/-- The edits of a program keep a document honest, and leave the newest entry without a mark. -/
theorem editsKeep_honestSoFar (saved : List Char) : Run.EditsKeep (HonestSoFar saved) := by
  rintro doc fresh target text ⟨h, hfresh⟩
  split
  · next sel hrefused =>
    -- An editable document without a protected part refuses nothing.
    unfold accept at hrefused
    rw [h.editable, h.unprotected] at hrefused
    cases hrefused
  · next range haccept =>
    have hcareful : ¬ doc.history.ContinuesMarked
        (doc.entryFor text range fresh .program) doc.clock := by
      cases fresh with
      | true => exact not_continuesMarked_of_solid doc text range (by decide) _
      | false =>
        rintro ⟨previous, older, happlied, hmarked, _⟩
        rw [hfresh rfl previous older happlied] at hmarked
        cases hmarked
    obtain ⟨hafter, hnewest⟩ := h.replaceAccepted none haccept hcareful
    exact ⟨hafter, fun _ => hnewest⟩

/-! ## Undo and redo -/

/-- Taking an entry back keeps a document honest. -/
theorem Honest.takenBack {skip : Option SelectionHandle} {entry : HistoryEntry}
    {older : List HistoryEntry} (h : doc.Honest saved)
    (happlied : doc.history.applied = entry :: older) :
    (doc.takenBack skip entry older).1.Honest saved := by
  obtain ⟨⟨base, last, hline, hbase⟩, _, hedit, hfree⟩ := h
  have hback : (doc.takenBack skip entry older).1.OnTimeline _ base last := hline.back happlied
  have hmarks : (doc.takenBack skip entry older).1.history.blankIsSaved = true → base = saved := by
    rw [history_takenBack]
    exact hbase
  refine ⟨⟨base, last, hback, hmarks⟩, ?_, editable_takenBack.trans hedit,
    protected_takenBack.trans hfree⟩
  intro hunmodified
  rw [modified_takenBack, Bool.not_eq_eq_eq_not, Bool.not_false] at hunmodified
  exact content_of_isSaved hback hmarks hunmodified

/-- Applying an entry again keeps a document honest. -/
theorem Honest.appliedAgain {skip : Option SelectionHandle} {entry : HistoryEntry}
    {later : List HistoryEntry} (h : doc.Honest saved)
    (hundone : doc.history.undone = entry :: later) :
    (doc.appliedAgain skip entry later).1.Honest saved := by
  obtain ⟨⟨base, last, hline, hbase⟩, _, hedit, hfree⟩ := h
  have hforth : (doc.appliedAgain skip entry later).1.OnTimeline _ base last := hline.forth hundone
  have hmarks : (doc.appliedAgain skip entry later).1.history.blankIsSaved = true →
      base = saved := by
    rw [history_appliedAgain]
    exact hbase
  refine ⟨⟨base, last, hforth, hmarks⟩, ?_, editable_appliedAgain.trans hedit,
    protected_appliedAgain.trans hfree⟩
  intro hunmodified
  rw [modified_appliedAgain, Bool.not_eq_eq_eq_not, Bool.not_false] at hunmodified
  exact content_of_isSaved hforth hmarks hunmodified

/-- A step through the history keeps a document honest. -/
theorem Honest.travel (h : doc.Honest saved) (redo : Bool) (skip : Option SelectionHandle) :
    (doc.travel redo skip).1.Honest saved :=
  travel_induction (fun _ _ _ happlied h => h.takenBack happlied)
    (fun _ _ _ hundone h => h.appliedAgain hundone) doc redo h

/-! ## Reading, writing and forgetting -/

/-- Marking the present state makes its text the saved one, whatever was marked before. -/
theorem OnTimeline.honest_markSaved {holds : HistoryEntry → List Char → Prop}
    {base last : List Char} (h : doc.OnTimeline holds base last) (hedit : doc.editable = true)
    (hfree : doc.protected? = none) :
    ({ doc with modified := false, history := doc.history.markSaved } : Document).Honest
      doc.content := by
  obtain ⟨hvalid, hline⟩ := h
  have hmarked : Timeline (HistoryEntry.MarksSaved doc.content) doc.history.markSaved base
      doc.content last :=
    hline.markSaved (fun _ _ _ => nofun) fun _ _ => rfl
  refine ⟨⟨base, last, ⟨hvalid, hmarked⟩, ?_⟩, fun _ => rfl, hedit, hfree⟩
  -- The state without entries is marked only if there are none, and then the text is the base.
  intro hblank
  have hnone : doc.history.canUndo = false := by
    change doc.history.markSaved.blankIsSaved = true at hblank
    unfold History.markSaved at hblank
    rw [History.canUndo, Bool.not_eq_eq_eq_not, Bool.not_false, List.isEmpty_iff]
    cases happlied : doc.history.applied with
    | nil => rfl
    | cons newest older =>
      rw [happlied] at hblank
      cases hblank
  exact (hline.content_eq_base hnone).symm

/-- The whole text is replaced. -/
theorem content_replaceAll (h : doc.Honest saved) (text : List Char) :
    (doc.replaceAll text).content = text :=
  (takesAll_of_free h.editable h.unprotected).content_replaceAll h.valid text

/-- Forgetting the history keeps the invariant if no stale mark is left. -/
theorem Honest.flushHistory (h : doc.Honest saved)
    (hcareful : doc.history.blankIsSaved = true → doc.content = saved) :
    doc.flushHistory.Honest saved :=
  ⟨⟨doc.content, doc.content, ⟨h.valid, .nil, .nil⟩, hcareful⟩, h.flag, h.editable,
    h.unprotected⟩

/-- The saved text after the file is read again: what was read, if it was read as a text. -/
def savedByReload (doc : Document) (files : FileSystem) (saved : List Char) : List Char :=
  match files.load doc.path doc.maxFileSize with
  | .ok (.text text) => text
  | _ => saved

/-- What has been loaded is the saved text. -/
theorem savedByReload_of_load {files : FileSystem} {text : List Char}
    (h : files.load doc.path doc.maxFileSize = .ok (.text text)) :
    doc.savedByReload files saved = text := by
  unfold savedByReload
  rw [h]

/-- If reading fails, the saved text is the one before. -/
theorem savedByReload_of_error {files : FileSystem} {create : Bool} {error : StorageError}
    (h : doc.reload files create = .error error) : doc.savedByReload files saved = saved := by
  unfold Document.reload at h
  unfold savedByReload
  split
  · next text hload =>
    rw [hload] at h
    cases h
  · rfl

/-- Reading the file again keeps the invariant if no other text is listed. -/
theorem Honest.reload {files : FileSystem} {create : Bool} {after : Document}
    (h : doc.Honest saved) (hreload : doc.reload files create = .ok after)
    (hcareful : ∀ text, files.load doc.path doc.maxFileSize = .ok (.listing text) →
      text = saved) :
    after.Honest (doc.savedByReload files saved) := by
  unfold Document.reload at hreload
  unfold savedByReload
  split at hreload
  · cases hreload
  · next text hload =>
    -- The file holds a text, which becomes the saved one.
    have hread := h.replaceAll text
    obtain ⟨base, last, hline, _⟩ := hread.marks
    have hmarked := hline.honest_markSaved hread.editable hread.unprotected
    rw [content_replaceAll h] at hmarked
    rw [hload]
    cases hreload
    dsimp only
    split
    · exact hmarked.congr rfl rfl rfl rfl rfl
    · exact hmarked
  · next text hload =>
    -- A listing is shown without a mark, and the flag is right only if it is the saved text.
    have hname : ({ doc with name := if doc.name.endsWith "/" then doc.name else doc.name ++ "/" } :
        Document).Honest saved := h.congr rfl rfl rfl rfl rfl
    obtain ⟨hmarks, _, hedit, hfree⟩ := hname.replaceAll text
    have hlisted := (content_replaceAll hname text).trans (hcareful text hload)
    rw [hload]
    cases hreload
    obtain ⟨base, last, hline, hbase⟩ := hmarks
    exact ⟨⟨base, last, hline.congr rfl rfl, hbase⟩, fun _ => hlisted, hedit, hfree⟩
  · next hload =>
    -- There is no file: the state without entries loses its mark, and the document its flag.
    rw [hload]
    split at hreload
    · cases hreload
      obtain ⟨⟨base, last, hline, _⟩, _, hedit, hfree⟩ := h
      have hunmarked : ({ doc with
          modified := true, history := doc.history.markBlankUnsaved } : Document).OnTimeline
          (HistoryEntry.MarksSaved saved) base last :=
        ⟨hline.valid, hline.timeline.applied, hline.timeline.undone⟩
      exact ⟨⟨base, last, hunmarked, nofun⟩, nofun, hedit, hfree⟩
    · cases hreload

/-- Writing the file makes the content the saved text. -/
theorem Honest.save {files after : FileSystem} {written : Document} (h : doc.Honest saved)
    (hsave : doc.save files = .ok (written, after)) : written.Honest doc.content := by
  obtain ⟨base, last, hline, _⟩ := h.marks
  have hmarked := hline.honest_markSaved h.editable h.unprotected
  unfold Document.save at hsave
  split at hsave
  · cases hsave
  · cases hsave
    exact hmarked.congr rfl rfl rfl rfl rfl

/-- A document that was opened from a regular file with this text. -/
def OpenedFrom (text : List Char) (doc : Document) : Prop :=
  ∃ files directory name create settings,
    openIn files directory name create settings = .ok doc ∧ isScratchName name = false ∧
      files.load (Path.join directory name) settings.maxFileSize = .ok (.text text)

/-- A document begins with its flag and its mark right. -/
theorem OpenedFrom.honest (h : doc.OpenedFrom saved) : doc.Honest saved := by
  obtain ⟨files, directory, name, create, settings, hopen, hname, hload⟩ := h
  obtain ⟨highlighter, ⟨hscratch, _⟩ | hreload⟩ := openIn_cases hopen
  · rw [hname] at hscratch
    cases hscratch
  · have hblank : (blank directory name settings).Honest [] :=
      ⟨⟨[], [], onTimeline_blank directory name settings, fun _ => rfl⟩,
        fun _ => content_blank directory name settings, rfl, rfl⟩
    have hbegun : ({ blank directory name settings with highlighter } : Document).Honest [] :=
      hblank.congr rfl rfl rfl rfl rfl
    have hread := hbegun.reload hreload
    have hlisted : ∀ text,
        files.load (Path.join directory name) settings.maxFileSize = .ok (.listing text) →
          text = [] := by
      intro text hlisting
      rw [hload] at hlisting
      cases hlisting
    have hsaved : ({ blank directory name settings with highlighter } : Document).savedByReload
        files [] = saved := savedByReload_of_load hload
    have hhonest := hread hlisted
    rw [hsaved] at hhonest
    exact hhonest

/-! ## Careful steps -/

/-- Replacing the selection would be recorded as more of a marked entry. -/
def AddsToMarked (doc : Document) (text : List Char) (target : Selection) (solid : Bool)
    (origin : EditOrigin) : Prop :=
  ∃ range, doc.accept target = .ok range ∧
    doc.history.ContinuesMarked (doc.entryFor text range solid origin) doc.clock

end Document

namespace Operation

/-- The operation does not change what edits the document lets through. -/
def KeepsAccess : Operation σ → Prop
  | .setEditable _ | .protect _ => False
  | _ => True

/-- The text that was last read from the file of the document or written to it, after an operation:
a listing is not the text of a file. -/
def savedAfter (operation : Operation σ) (session : Session σ) (saved : List Char) : List Char :=
  match operation with
  | .save =>
    match session.document.save session.files with
    | .ok _ => session.document.content
    | .error _ => saved
  | .reload _ => session.document.savedByReload session.files saved
  | _ => saved

/-- The saved text after several operations. -/
def savedOfRun : List (Operation σ) → Session σ → List Char → List Char
  | [], _, saved => saved
  | operation :: rest, session, saved =>
    savedOfRun rest (operation.perform session) (operation.savedAfter session saved)

/-- The operation adds to no marked entry, leaves no mark behind on another text when it forgets the
history, and reads no listing in place of the saved text. -/
def IsCareful (operation : Operation σ) (session : Session σ) (saved : List Char) : Prop :=
  match operation with
  | .replace text target solid origin =>
    ¬ session.document.AddsToMarked text target solid origin
  | .replaceAt text handle solid origin =>
    ∀ target, session.document.selections.get? handle = some target →
      ¬ session.document.AddsToMarked text target solid origin
  | .flushHistory =>
    session.document.history.blankIsSaved = true → session.document.content = saved
  | .reload _ =>
    ∀ text, session.files.load session.document.path session.document.maxFileSize =
      .ok (.listing text) → text = saved
  | _ => True

/-- Every step of a run is careful. -/
def RunIsCareful : List (Operation σ) → Session σ → List Char → Prop
  | [], _, _ => True
  | operation :: rest, session, saved =>
    operation.IsCareful session saved ∧
      RunIsCareful rest (operation.perform session) (operation.savedAfter session saved)

/-- A run in two parts is careful if both parts are. -/
theorem runIsCareful_append (first second : List (Operation σ)) (session : Session σ)
    (saved : List Char) :
    RunIsCareful (first ++ second) session saved ↔
      RunIsCareful first session saved ∧
        RunIsCareful second (run first session) (savedOfRun first session saved) := by
  induction first generalizing session saved with
  | nil =>
    simp only [List.nil_append, RunIsCareful, true_and]
    rfl
  | cons operation rest ih =>
    simp only [List.cons_append, RunIsCareful, ih, and_assoc]
    rfl

end Operation

namespace Document

/-- Other selections keep a document honest. -/
theorem Honest.withSelections (h : doc.Honest saved) (selections : Selections) :
    ({ doc with selections } : Document).Honest saved :=
  h.congr rfl rfl rfl rfl rfl

/-- Highlighting changes no characters. -/
theorem Honest.highlight (h : doc.Honest saved) (start stop : Nat) :
    (doc.highlight start stop).1.Honest saved := by
  obtain ⟨⟨base, last, ⟨hvalid, hline⟩, hbase⟩, hflag, hedit, hfree⟩ := h
  have hcontent : (doc.highlight start stop).1.content = doc.content :=
    GapBuffer.chars_setTags hvalid _ _
  refine ⟨⟨base, last, ⟨GapBuffer.isValid_setTags hvalid _ _, ?_⟩, hbase⟩, ?_, hedit, hfree⟩
  · rw [hcontent]
    exact hline
  · rw [hcontent]
    exact hflag

end Document

/-- **A careful operation keeps the invariant.** -/
theorem Document.Honest.perform {operation : Operation σ} {session : Session σ}
    (h : session.document.Honest saved) (haccess : operation.KeepsAccess)
    (hcareful : operation.IsCareful session saved) :
    (operation.perform session).document.Honest (operation.savedAfter session saved) := by
  -- An edit that is let through is careful because the operation is.
  have hreplaced : ∀ {text target skip solid origin range},
      ¬ session.document.AddsToMarked text target solid origin →
      session.document.accept target = .ok range →
      (session.document.replaceAccepted text range skip solid origin).Honest saved :=
    fun hadds haccept => (h.replaceAccepted _ haccept fun hmarked => hadds ⟨_, haccept, hmarked⟩).1
  cases operation with
  | replace text target solid origin =>
    exact Document.replaceSkipping_of_accepted h fun _ haccept => hreplaced hcareful haccept
  | replaceAt text handle solid origin =>
    show (session.document.replaceAt text handle solid origin).Honest saved
    unfold Document.replaceAt
    split
    · exact h
    · next target hget =>
      exact (Document.replaceSkipping_of_accepted h fun _ haccept =>
        hreplaced (hcareful target hget) haccept).withSelections _
  | replaceAll text => exact h.replaceAll text
  | interpret env program dot =>
    obtain ⟨_, hafter, _⟩ := ({ session with dot } : Session σ).interpret_keeps
      (Document.editsKeep_honestSoFar saved) env program ⟨h, nofun⟩
    exact hafter
  -- Steps through the history come to the marks that they know.
  | undo sel redo => exact h.travel redo none
  | undoAt handle redo =>
    exact Document.undoAt_of_travel (fun _ selections h => h.withSelections selections)
      (h.travel redo (some handle))
  | flushHistory => exact h.flushHistory hcareful
  -- What is let through does not change, and the rest has nothing to do with the text.
  | setEditable editable => exact haccess.elim
  | protect count => exact haccess.elim
  | addSelection sel => exact h.congr rfl rfl rfl rfl rfl
  | setSelection handle sel => exact h.congr rfl rfl rfl rfl rfl
  | eraseSelection handle => exact h.congr rfl rfl rfl rfl rfl
  | highlight start stop => exact h.highlight start stop
  | listen listening =>
    cases listening with
    | true => exact h.congr rfl rfl rfl rfl rfl
    | false => exact h.congr rfl rfl rfl rfl rfl
  -- A new mark is set on the text that has been written or read.
  | save =>
    cases hsave : session.document.save session.files with
    | ok written =>
      simp only [Operation.perform, Operation.savedAfter, hsave]
      exact h.save hsave
    | error error =>
      simp only [Operation.perform, Operation.savedAfter, hsave]
      exact h
  | reload create =>
    simp only [Operation.perform, Operation.savedAfter]
    split
    · next document heq => exact h.reload heq hcareful
    · next error heq =>
      rw [Document.savedByReload_of_error heq]
      exact h
  | wait clock => exact h.congr rfl rfl rfl rfl rfl
  | changeFiles files => exact h

/-- A careful run keeps the invariant. -/
theorem Document.Honest.run {operations : List (Operation σ)} {session : Session σ}
    (h : session.document.Honest saved)
    (haccess : ∀ operation ∈ operations, operation.KeepsAccess)
    (hcareful : Operation.RunIsCareful operations session saved) :
    (Operation.run operations session).document.Honest
      (Operation.savedOfRun operations session saved) := by
  induction operations generalizing session saved with
  | nil => exact h
  | cons operation rest ih =>
    obtain ⟨hfirst, hrest⟩ := hcareful
    exact ih (h.perform (haccess operation List.mem_cons_self) hfirst)
      (fun other hmem => haccess other (List.mem_cons_of_mem _ hmem)) hrest

end Emend
