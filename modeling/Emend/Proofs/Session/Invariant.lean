import Emend.Proofs.Command.Keeping
import Emend.Proofs.Document.Travel
import Emend.Proofs.Session.Operation

/-!
# What a run keeps

Most operations of a session either leave the text, the history, the listener and the protected part
of a document alone, or come down to accepted replacements and marks in the history. A property that
these keep (`Document.Kept`) is kept by every operation except the few that do something else:
undoing and redoing, and the setting of the listener or of the protected part. `Kept.perform` has
one hypothesis for each of those.

Where a property holds on unless a step of a certain kind is taken, it holds after every beginning
of a run exactly if the run takes no such step: `Operation.never_iff`.
-/

namespace Emend

variable {σ : Type}

namespace Operation

/-- The operation undoes or redoes a step. -/
def travels : Operation σ → Bool
  | .undo _ _ | .undoAt _ _ => true
  | _ => false

/-- The operation changes what is protected. -/
def protects : Operation σ → Bool
  | .protect _ => true
  | _ => false

/-- The operation begins or stops to listen. -/
def listens : Operation σ → Bool
  | .listen _ => true
  | _ => false

/-- No operation of a run is bad where it is performed. -/
def Never (bad : Operation σ → Session σ → Prop) : List (Operation σ) → Session σ → Prop
  | [], _ => True
  | operation :: rest, session =>
    ¬bad operation session ∧ Never bad rest (operation.perform session)

/-- **What holds exactly until something bad happens**: it holds after every beginning of a run if
and only if no operation of the run is bad. -/
theorem never_iff {P : Session σ → Prop} {bad : Operation σ → Session σ → Prop}
    {operations : List (Operation σ)} {session : Session σ}
    (step : ∀ operation ∈ operations, ∀ session, P session →
      (P (operation.perform session) ↔ ¬bad operation session)) (h : P session) :
    Never bad operations session ↔ ∀ front, front <+: operations → P (run front session) := by
  induction operations generalizing session with
  | nil =>
    refine ⟨fun _ front hfront => ?_, fun _ => trivial⟩
    rw [List.prefix_nil.1 hfront]
    exact h
  | cons operation rest ih =>
    have hstep := step operation List.mem_cons_self session h
    have hrest : ∀ other ∈ rest, ∀ session, P session →
        (P (other.perform session) ↔ ¬bad other session) :=
      fun other hmem => step other (List.mem_cons_of_mem _ hmem)
    constructor
    · rintro ⟨hgood, hnever⟩ front hfront
      cases front with
      | nil => exact h
      | cons first others =>
        obtain ⟨rfl, hothers⟩ := List.cons_prefix_cons.1 hfront
        exact (ih hrest (hstep.2 hgood)).1 hnever others hothers
    · intro hall
      have hnext : P (operation.perform session) :=
        hall [operation] (List.prefix_append [operation] rest)
      refine ⟨hstep.1 hnext, (ih hrest hnext).2 fun front hfront => ?_⟩
      exact hall (operation :: front) (List.cons_prefix_cons.2 ⟨rfl, hfront⟩)

/-- A property of documents that undoing and redoing keep is kept by the operations that do. -/
theorem perform_of_travel {P : Document → Prop} {operation : Operation σ} {session : Session σ}
    (hselections : ∀ doc selections, P doc → P { doc with selections })
    (h : ∀ redo skip, P (session.document.travel redo skip).1)
    (htravels : operation.travels = true) :
    P (operation.perform session).document := by
  cases operation with
  | undo sel redo => exact h redo none
  | undoAt handle redo => exact Document.undoAt_of_travel hselections (h redo (some handle))
  | _ => cases htravels

/-- Operations run one part after the other. -/
theorem run_append (first second : List (Operation σ)) (session : Session σ) :
    run (first ++ second) session = run second (run first session) :=
  List.foldl_append

end Operation

namespace Document

variable {P : Document → Prop} {doc other : Document}

/-- The second document has the text, the history, the listener and the protected part of the
first. -/
structure SameText (doc other : Document) : Prop where
  /-- Its buffer is valid if that of the first is. -/
  valid : doc.IsValid → other.IsValid
  /-- It has the same text. -/
  content : other.content = doc.content
  /-- It has the same history. -/
  history : other.history = doc.history
  /-- As many characters are protected. -/
  protected? : other.protected? = doc.protected?
  /-- Its listener has the same events to collect. -/
  events : other.events = doc.events

/-- Documents with the same buffer have the same text. -/
theorem SameText.of_buffer (hbuffer : other.buffer = doc.buffer)
    (hhistory : other.history = doc.history) (hprotected : other.protected? = doc.protected?)
    (hevents : other.events = doc.events) : doc.SameText other := by
  refine ⟨fun hvalid => ?_, ?_, hhistory, hprotected, hevents⟩
  · unfold IsValid
    rw [hbuffer]
    exact hvalid
  · rw [content_eq_toList, content_eq_toList, hbuffer]

/-- A property that depends only on the text, the history, the listener and the protected part, and
that accepted replacements and the marks of the history keep. -/
structure Kept (P : Document → Prop) : Prop where
  /-- Nothing else matters. -/
  same : ∀ {doc other : Document}, P doc → doc.SameText other → P other
  /-- An accepted replacement keeps it. -/
  replaced : ∀ {doc : Document} {target range : Selection}, doc.accept target = .ok range →
    ∀ text skip solid origin, P doc → P (doc.replaceAccepted text range skip solid origin)
  /-- So does the mark of a saved document. -/
  saved : ∀ {doc : Document}, P doc → P { doc with history := doc.history.markSaved }
  /-- So does the mark of a new one. -/
  unsaved : ∀ {doc : Document}, P doc → P { doc with history := doc.history.markBlankUnsaved }
  /-- So does forgetting the history. -/
  flushed : ∀ {doc : Document}, P doc → P doc.flushHistory

namespace Kept

variable (h : Kept P)

include h

/-- The registered selections do not matter. -/
theorem selections (doc : Document) (selections : Selections) (hdoc : P doc) :
    P { doc with selections } :=
  h.same hdoc (.of_buffer rfl rfl rfl rfl)

/-- Another text keeps what is kept. -/
theorem replaceAll (doc : Document) (text : List Char) (hdoc : P doc) : P (doc.replaceAll text) :=
  replaceAll_of_accepted h.selections hdoc fun _ _ haccept =>
    h.replaced haccept text none true .program hdoc

/-- Tags are no part of the text. -/
theorem highlight (hdoc : P doc) (start stop : Nat) (hvalid : doc.IsValid) :
    P (doc.highlight start stop).1 :=
  h.same hdoc ⟨fun hvalid => GapBuffer.isValid_setTags hvalid _ _,
    GapBuffer.chars_setTags hvalid _ _, rfl, rfl, rfl⟩

/-- Reading the file again keeps what is kept. -/
theorem reload {after : Document} {files : FileSystem} {create : Bool} (hdoc : P doc)
    (hreload : doc.reload files create = .ok after) : P after :=
  reload_of_replaceAll h.replaceAll (fun _ => h.saved) (fun _ => h.unsaved)
    (fun _ _ hdoc => h.same hdoc (.of_buffer rfl rfl rfl rfl))
    (fun _ _ hdoc => h.same hdoc (.of_buffer rfl rfl rfl rfl))
    (fun _ hdoc => h.same hdoc (.of_buffer rfl rfl rfl rfl)) hdoc hreload

/-- Writing the file keeps what is kept. -/
theorem save {files after : FileSystem} {written : Document} (hdoc : P doc)
    (hsave : doc.save files = .ok (written, after)) : P written := by
  unfold Document.save at hsave
  split at hsave
  · cases hsave
  · cases hsave
    exact h.same (h.saved hdoc) (.of_buffer rfl rfl rfl rfl)

/-- A program only edits. -/
theorem interpret (env : Environment σ) (program : String) {session : Session σ}
    (hdoc : P session.document) : P (session.interpret env program).2.document := by
  have hedits : Run.EditsKeep fun doc _ => P doc := by
    intro doc fresh target text hdoc
    split
    · exact hdoc
    · next range haccept => exact h.replaced haccept text none fresh .program hdoc
  obtain ⟨_, hafter⟩ := session.interpret_keeps hedits env program hdoc
  exact hafter

/-- **What replacements and marks keep, an operation keeps**, unless it undoes or redoes, or sets
what is protected or who listens. -/
theorem perform (operation : Operation σ) (session : Session σ)
    (hvalid : session.document.IsValid) (hdoc : P session.document)
    (htravel : operation.travels = true → P (operation.perform session).document)
    (hprotect : operation.protects = true → P (operation.perform session).document)
    (hlisten : operation.listens = true → P (operation.perform session).document) :
    P (operation.perform session).document := by
  cases operation with
  | replace text target solid origin =>
    exact replaceSkipping_of_accepted hdoc fun _ haccept =>
      h.replaced haccept text none solid origin hdoc
  | replaceAt text handle solid origin =>
    exact replaceAt_of_accepted h.selections hdoc fun _ _ haccept =>
      h.replaced haccept text (some handle) solid origin hdoc
  | replaceAll text => exact h.replaceAll _ text hdoc
  | interpret env program dot => exact h.interpret env program hdoc
  -- What is left to the caller.
  | undo sel redo => exact htravel rfl
  | undoAt handle redo => exact htravel rfl
  | flushHistory => exact h.flushed hdoc
  | setEditable editable => exact h.same hdoc (.of_buffer rfl rfl rfl rfl)
  | protect count => exact hprotect rfl
  | addSelection sel => exact h.selections _ _ hdoc
  | setSelection handle sel => exact h.selections _ _ hdoc
  | eraseSelection handle => exact h.selections _ _ hdoc
  | highlight start stop => exact h.highlight hdoc start stop hvalid
  | listen listening => exact hlisten rfl
  -- Marks, which are set only where a file is written or read.
  | save =>
    simp only [Operation.perform]
    split
    · next document files heq => exact h.save hdoc heq
    · exact hdoc
  | reload create =>
    simp only [Operation.perform]
    split
    · next document heq => exact h.reload hdoc heq
    · exact hdoc
  | wait clock => exact h.same hdoc (.of_buffer rfl rfl rfl rfl)
  | changeFiles files => exact hdoc

end Kept

end Document

end Emend
