import Emend.Proofs.Command.Keeping
import Emend.Proofs.Document.Travel
import Emend.Proofs.Session.Operation

/-!
# The history tells how the text came about

Whatever happens to a document, its history stays a timeline from a base text to the present one:
the base is the text at the creation or, after that, at the last time when the history was
forgotten. A document is created blank, and what is read when it is opened is its first edit, so the
first base is the empty text.

`Document.GrewFrom` is the invariant. Each operation keeps it (`grewFrom_perform`); for a program
this comes from `Session.interpret_keeps`, since a program only edits. `Document.Faithful` spells
out what follows for the history: it can be replayed in both directions, no range is clamped on the
way, and on an editable document undoing to the end leads to the base and redoing to the end to the
text after all entries.
-/

namespace Emend

variable {σ : Type} {base : List Char} {doc : Document}

namespace Document

/-- The history leads from the base to the text of the document. -/
def GrewFrom (base : List Char) (doc : Document) : Prop :=
  ∃ last, doc.OnTimeline anyEntry base last

/-- What a history is good for, when the text began as `base`. -/
structure Faithful (base : List Char) (doc : Document) : Prop where
  /-- The applied entries turn the base into the content, each at the place where the text reached
  holds what it removed; they can be taken back the same way, and the undone entries can be applied
  from the content on and taken back again. -/
  explains : doc.history.Explains base doc.content
  /-- No range is altered by clamping when entries are taken back. -/
  undoes : ∀ skip, UndoesWithin skip doc doc.history.applied
  /-- No range is altered by clamping when entries are applied again. -/
  redoes : ∀ skip, RedoesWithin skip doc doc.history.undone
  /-- Undoing comes to an end. -/
  undone : doc.editable = true → ∀ sel, ∃ count,
    (undoTimes false count (doc, sel)).1.history.canUndo = false
  /-- It ends with the base. -/
  atBase : ∀ sel count, (undoTimes false count (doc, sel)).1.history.canUndo = false →
    (undoTimes false count (doc, sel)).1.content = base
  /-- Redoing comes to an end, wherever undoing has led to. -/
  redone : doc.editable = true → ∀ sel count, ∃ again,
    (undoTimes true again (undoTimes false count (doc, sel))).1.history.canRedo = false
  /-- It ends with the text after all entries. -/
  atLast : ∀ sel count again,
    (undoTimes true again (undoTimes false count (doc, sel))).1.history.canRedo = false →
      HistoryEntry.applyAll? doc.history.entries base =
        some (undoTimes true again (undoTimes false count (doc, sel))).1.content

/-- A document that grew from a base has a faithful history. -/
theorem GrewFrom.faithful (h : doc.GrewFrom base) : doc.Faithful base := by
  obtain ⟨last, hline⟩ := h
  constructor
  case explains => exact hline.timeline.explains
  case undoes => exact fun skip => hline.undoesWithin skip
  case redoes => exact fun skip => hline.redoesWithin skip
  case undone => exact fun hedit sel => exists_undoTimes_end hedit sel false
  case atBase =>
    intro sel count hnone
    exact (hline.undoTimes sel false count).timeline.content_eq_base hnone
  case redone =>
    intro hedit sel count
    exact exists_undoTimes_end ((editable_undoTimes doc sel false count).trans hedit) _ true
  case atLast =>
    intro sel count again hnone
    -- Undoing and redoing have moved along one timeline, which still ends with the same text.
    have hthere := (hline.undoTimes sel false count).undoTimes
      (undoTimes false count (doc, sel)).2 true again
    rw [hthere.timeline.content_eq_last hnone]
    exact hline.timeline.applyAll?_entries

/-! ## Operations -/

/-- How a document grew can be told from its buffer and its history. -/
theorem GrewFrom.congr {other : Document} (h : doc.GrewFrom base)
    (hbuffer : other.buffer = doc.buffer) (hhistory : other.history = doc.history) :
    other.GrewFrom base := by
  obtain ⟨last, hline⟩ := h
  exact ⟨last, hline.congr hbuffer hhistory⟩

/-- An accepted replacement is one more entry. -/
theorem GrewFrom.replaceAccepted {target range : Selection} {text : List Char}
    {skip : Option SelectionHandle} {solid : Bool} {origin : EditOrigin} (h : doc.GrewFrom base)
    (haccept : doc.accept target = .ok range) :
    (doc.replaceAccepted text range skip solid origin).GrewFrom base := by
  obtain ⟨last, hline⟩ := h
  exact ⟨_, hline.replaceAccepted _ haccept trivial fun _ _ _ _ => trivial⟩

/-- A document with another text grew from the same one. -/
theorem GrewFrom.replaceAll (h : doc.GrewFrom base) (text : List Char) :
    (doc.replaceAll text).GrewFrom base :=
  replaceAll_of_accepted (fun _ _ h => h.congr rfl rfl) h fun _ _ haccept =>
    h.replaceAccepted haccept

/-- A step through the history stays on the timeline that the document grew by. -/
theorem GrewFrom.travel (h : doc.GrewFrom base) (redo : Bool) (skip : Option SelectionHandle) :
    (doc.travel redo skip).1.GrewFrom base := by
  obtain ⟨last, hline⟩ := h
  exact ⟨last, hline.travel redo skip⟩

/-- Marking the state as saved does not change how the document grew. -/
theorem GrewFrom.markSaved (h : doc.GrewFrom base) :
    ({ doc with history := doc.history.markSaved } : Document).GrewFrom base := by
  obtain ⟨last, hvalid, hline⟩ := h
  exact ⟨last, hvalid, hline.markSaved (fun _ _ _ => trivial) fun _ => trivial⟩

/-- Marking the state without entries as unsaved does not change how the document grew. -/
theorem GrewFrom.markBlankUnsaved (h : doc.GrewFrom base) :
    ({ doc with history := doc.history.markBlankUnsaved } : Document).GrewFrom base := by
  obtain ⟨last, hvalid, hline⟩ := h
  exact ⟨last, hvalid, hline.applied, hline.undone⟩

/-- Reading a file again is an edit. -/
theorem GrewFrom.reload (h : doc.GrewFrom base) {files : FileSystem} {create : Bool}
    {after : Document} (hreload : doc.reload files create = .ok after) : after.GrewFrom base :=
  reload_of_replaceAll (fun _ text h => h.replaceAll text) (fun _ h => h.markSaved)
    (fun _ h => h.markBlankUnsaved) (fun _ _ h => h.congr rfl rfl) (fun _ _ h => h.congr rfl rfl)
    (fun _ h => h.congr rfl rfl) h hreload

/-- Writing a file only sets marks. -/
theorem GrewFrom.save (h : doc.GrewFrom base) {files after : FileSystem} {written : Document}
    (hsave : doc.save files = .ok (written, after)) : written.GrewFrom base := by
  unfold Document.save at hsave
  split at hsave
  · cases hsave
  · cases hsave
    exact h.markSaved.congr rfl rfl

/-- What holds of documents without text and is kept by reading a file holds of every created
document. -/
theorem Created.of_reload {P : Document → Prop} (h : doc.Created)
    (hblank : ∀ (directory name : String) (settings : Settings) (highlighter : Highlighter),
      P { Document.blank directory name settings with highlighter })
    (hreload : ∀ (doc after : Document) (files : FileSystem) (create : Bool), P doc →
      doc.reload files create = .ok after → P after) : P doc := by
  cases h with
  | blank directory name settings highlighter => exact hblank directory name settings highlighter
  | opened hopen =>
    obtain ⟨highlighter, ⟨_, rfl⟩ | hread⟩ := openIn_cases hopen
    · exact hblank _ _ _ highlighter
    · exact hreload _ _ _ _ (hblank _ _ _ highlighter) hread

/-- A created document grew from the empty text. -/
theorem Created.grewFrom (h : doc.Created) : doc.GrewFrom [] :=
  h.of_reload
    (fun directory name settings _ =>
      ⟨[], (onTimeline_blank directory name settings).congr rfl rfl⟩)
    fun _ _ _ _ h hread => h.reload hread

/-- Forgetting the history makes the text the base. -/
theorem GrewFrom.flushHistory (h : doc.GrewFrom base) :
    doc.flushHistory.GrewFrom doc.content := by
  obtain ⟨last, hvalid, _⟩ := h
  exact ⟨doc.content, hvalid, .nil, .nil⟩

end Document

/-- Highlighting changes no characters. -/
theorem Document.GrewFrom.highlight (h : doc.GrewFrom base) (start stop : Nat) :
    (doc.highlight start stop).1.GrewFrom base := by
  obtain ⟨last, hvalid, hline⟩ := h
  refine ⟨last, GapBuffer.isValid_setTags hvalid _ _, ?_⟩
  have hcontent : (doc.highlight start stop).1.content = doc.content :=
    GapBuffer.chars_setTags hvalid _ _
  rw [hcontent]
  exact hline

/-- What edits keep of a document that grew from a base. -/
theorem editsKeep_grewFrom (base : List Char) :
    Run.EditsKeep fun doc _ => doc.GrewFrom base := by
  intro doc fresh target text h
  split
  · exact h
  · next range haccept => exact h.replaceAccepted haccept

/-- The base after an operation. -/
def Operation.baseAfter (operation : Operation σ) (session : Session σ) (base : List Char) :
    List Char :=
  match operation with
  | .flushHistory => session.document.content
  | _ => base

/-- **Every operation keeps the invariant.** -/
theorem grewFrom_perform (operation : Operation σ) (session : Session σ)
    (h : session.document.GrewFrom base) :
    (operation.perform session).document.GrewFrom (operation.baseAfter session base) := by
  -- Edits and undo come down to what is proved above; everything else leaves the text and the
  -- history alone.
  have hselections : ∀ (doc : Document) selections, doc.GrewFrom base →
      ({ doc with selections } : Document).GrewFrom base := fun _ _ h => h.congr rfl rfl
  cases operation with
  | replace text target solid origin =>
    exact Document.replaceSkipping_of_accepted h fun _ haccept => h.replaceAccepted haccept
  | replaceAt text handle solid origin =>
    exact Document.replaceAt_of_accepted hselections h fun _ _ haccept =>
      h.replaceAccepted haccept
  | replaceAll text => exact h.replaceAll text
  | interpret env program dot =>
    obtain ⟨_, hafter⟩ := ({ session with dot } : Session σ).interpret_keeps
      (editsKeep_grewFrom base) env program h
    exact hafter
  | undo sel redo => exact h.travel redo none
  | undoAt handle redo => exact Document.undoAt_of_travel hselections (h.travel redo (some handle))
  | flushHistory => exact h.flushHistory
  | setEditable editable => exact h.congr rfl rfl
  | protect count => exact h.congr rfl rfl
  | addSelection sel => exact h.congr rfl rfl
  | setSelection handle sel => exact h.congr rfl rfl
  | eraseSelection handle => exact h.congr rfl rfl
  | highlight start stop => exact h.highlight start stop
  | listen listening =>
    cases listening with
    | true => exact h.congr rfl rfl
    | false => exact h.congr rfl rfl
  | save =>
    simp only [Operation.perform]
    split
    · next document files heq => exact h.save heq
    · exact h
  | reload create =>
    simp only [Operation.perform]
    split
    · next document heq => exact h.reload heq
    · exact h
  | wait clock => exact h.congr rfl rfl
  | changeFiles files => exact h

/-- The base after several operations: the text at the last time when the history was forgotten, or
else what it was before. -/
def Operation.baseOfRun : List (Operation σ) → Session σ → List Char → List Char
  | [], _, base => base
  | operation :: rest, session, base =>
    baseOfRun rest (operation.perform session) (operation.baseAfter session base)

/-- A run keeps the invariant. -/
theorem grewFrom_run (operations : List (Operation σ)) (session : Session σ)
    (h : session.document.GrewFrom base) :
    (Operation.run operations session).document.GrewFrom
      (Operation.baseOfRun operations session base) := by
  induction operations generalizing session base with
  | nil => exact h
  | cons operation rest ih => exact ih _ (grewFrom_perform operation session h)

/-- The buffer of a document stays valid, whatever happens to it. -/
theorem isValid_run (operations : List (Operation σ)) (session : Session σ)
    (hcreated : session.document.Created) :
    (Operation.run operations session).document.IsValid := by
  obtain ⟨_, hline⟩ := grewFrom_run operations session hcreated.grewFrom
  exact hline.valid

/-- **The history is faithful.** After any operations on a created document, the history tells how
the text came about from the base. -/
theorem faithful_run (operations : List (Operation σ)) (session : Session σ)
    (hcreated : session.document.Created) :
    (Operation.run operations session).document.Faithful
      (Operation.baseOfRun operations session []) :=
  (grewFrom_run operations session hcreated.grewFrom).faithful

/-- An edit on a scratch document, taken back, with the history forgotten in between. -/
theorem faithful_run_scratch :
    Document.Created (.scratch "+notes") ∧
      (Operation.run [.replace ['a'] (.point 0) true .program, .flushHistory,
        .replace ['b'] (.point 1) true .program, .undo (.point 0) false]
        (⟨.scratch "+notes", .empty, (), .point 0, true⟩ : Session Unit)).document.Faithful
      (Operation.baseOfRun [.replace ['a'] (.point 0) true .program, .flushHistory,
        .replace ['b'] (.point 1) true .program, .undo (.point 0) false]
        (⟨.scratch "+notes", .empty, (), .point 0, true⟩ : Session Unit) []) :=
  ⟨.blank _ _ _ .plain, faithful_run _ _ (.blank _ _ _ .plain)⟩

end Emend
