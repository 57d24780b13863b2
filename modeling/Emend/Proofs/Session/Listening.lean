import Emend.Document.Replay
import Emend.Proofs.Session.Invariant
import Emend.Proofs.Session.UndoLog

/-!
# What a listener knows of the text

The events of a replacement tell what it does to the text: applied to the text from before, they
give the text after it (`applyAll_eventsOf`). So a listener that begins with the text and applies
every event holds the text after each edit, be it a single one, one of a program, or the reading of
a file.

A replayed entry of the history changes the text as well, but is not announced. The listener falls
behind with the first undo or redo that leads to another text: `mirrored_iff`.
-/

namespace Emend

variable {σ : Type}

/-- Applying several events and then others. -/
theorem EditEvent.applyAll_append (first second : List EditEvent) (content : List Char) :
    applyAll (first ++ second) content = applyAll second (applyAll first content) :=
  List.foldl_append

/-- A deletion and an insertion at its place are a replacement. -/
theorem splice_splice_nil {α : Type} {list : List α} {range : Selection} (inserted : List α)
    (h : range.IsWithin list.length) :
    splice (splice list range []) (.point range.start) inserted = splice list range inserted := by
  obtain ⟨hle, hsize⟩ := h
  have hlength : (list.take range.start).length = range.start := by
    rw [List.length_take]
    omega
  simp only [splice, Selection.point, List.append_nil]
  rw [List.take_left' hlength, List.drop_left' hlength]

namespace Document

variable {doc : Document} {base : List Char} {range : Selection}

/-- **The events of a replacement tell what it does.** -/
theorem applyAll_eventsOf (doc : Document) {content : List Char} (text : List Char)
    (origin : EditOrigin) (h : range.IsWithin content.length) :
    EditEvent.applyAll (doc.eventsOf text range origin) content = splice content range text := by
  unfold eventsOf
  cases hempty : range.isEmpty with
  | true =>
    -- Nothing is removed, and the insertion is announced even if it is empty.
    have hpoint : Selection.point range.start = range := by
      have heq : range.start = range.stop := by simpa [Selection.isEmpty] using hempty
      ext
      · rfl
      · exact heq
    calc splice content (.point range.start) text = splice content range text := by rw [hpoint]
  | false =>
    cases text with
    | nil => rfl
    | cons c rest =>
      calc splice (splice content range []) (.point range.start) (c :: rest)
        _ = splice content range (c :: rest) := splice_splice_nil _ h

/-- Counting characters sends no event. -/
@[simp]
theorem events_countFilesAdded (doc : Document) (count : Nat) (origin : EditOrigin) :
    (doc.countFilesAdded count origin).events = doc.events := by
  unfold countFilesAdded
  split
  · dsimp only
    split <;> rfl
  · rfl

/-- An accepted replacement announces its events and nothing else. -/
theorem events_replaceAccepted (doc : Document) (text : List Char) (range : Selection)
    (skip : Option SelectionHandle) (solid : Bool) (origin : EditOrigin) :
    (doc.replaceAccepted text range skip solid origin).events =
      doc.events.map (· ++ doc.eventsOf text range origin) := by
  unfold replaceAccepted
  rw [events_countFilesAdded]
  unfold announce apply record substitute eventsOf
  split <;> rfl

/-- Exchanging a range in the buffer sends no event. -/
@[simp]
theorem events_substitute (doc : Document) (text : List Char) (range : Selection) :
    (doc.substitute text range).events = doc.events := by
  unfold substitute
  split <;> rfl

/-- Replaying entries of the history announces nothing. -/
theorem events_travel (doc : Document) (redo : Bool) (skip : Option SelectionHandle) :
    (doc.travel redo skip).1.events = doc.events :=
  travel_same (fun _ _ => rfl) (fun doc _ text => events_substitute doc text _) doc redo

/-- A listener that began with the text `base`, and has applied every event since, holds the present
text. -/
def MirroredFrom (base : List Char) (doc : Document) : Prop :=
  ∃ events, doc.events = some events ∧ EditEvent.applyAll events base = doc.content

/-- A valid document that a listener mirrors. -/
structure Followed (base : List Char) (doc : Document) : Prop where
  /-- The buffer is valid. -/
  valid : doc.IsValid
  /-- The listener holds the text. -/
  mirrored : doc.MirroredFrom base

/-- A listener begins with the text that is there. -/
theorem followed_listen (h : doc.IsValid) : doc.listen.Followed doc.content :=
  ⟨h, [], rfl, rfl⟩

/-- **A listener follows every accepted replacement.** -/
theorem Followed.replaceAccepted {target : Selection} (h : doc.Followed base)
    (haccept : doc.accept target = .ok range) (text : List Char) (skip : Option SelectionHandle)
    (solid : Bool) (origin : EditOrigin) :
    (doc.replaceAccepted text range skip solid origin).Followed base := by
  obtain ⟨hvalid, events, hevents, hcontent⟩ := h
  have hrange := isWithin_of_accept haccept
  have hwithin : range.IsWithin doc.content.length := by
    rw [length_content hvalid]
    exact hrange
  refine ⟨isValid_replaceAccepted hvalid, events ++ doc.eventsOf text range origin, ?_, ?_⟩
  · rw [events_replaceAccepted, hevents]
    rfl
  · calc EditEvent.applyAll (events ++ doc.eventsOf text range origin) base
      _ = EditEvent.applyAll (doc.eventsOf text range origin) doc.content := by
        rw [EditEvent.applyAll_append, hcontent]
      _ = splice doc.content range text := applyAll_eventsOf doc text origin hwithin
      _ = (doc.replaceAccepted text range skip solid origin).content :=
        (content_replaceAccepted hvalid hrange).symm

/-- What else can happen to a document does not lose the listener. -/
theorem kept_followed (base : List Char) : Kept (Followed base) where
  same := fun h hsame => by
    obtain ⟨hvalid, events, hevents, hcontent⟩ := h
    refine ⟨hsame.valid hvalid, events, hsame.events.trans hevents, ?_⟩
    rw [hsame.content]
    exact hcontent
  replaced := fun haccept text skip solid origin h =>
    h.replaceAccepted haccept text skip solid origin
  saved := fun h => ⟨h.valid, h.mirrored⟩
  unsaved := fun h => ⟨h.valid, h.mirrored⟩
  flushed := fun h => ⟨h.valid, h.mirrored⟩

/-- A document whose events are those from before is mirrored exactly if its text is. -/
theorem MirroredFrom.iff_content {other : Document} (h : doc.MirroredFrom base)
    (hevents : other.events = doc.events) :
    other.MirroredFrom base ↔ other.content = doc.content := by
  obtain ⟨events, hsome, hcontent⟩ := h
  constructor
  · rintro ⟨events', hsome', hcontent'⟩
    -- The listener has the same events as before, so it still holds the text from before.
    rw [hevents, hsome] at hsome'
    cases hsome'
    exact hcontent'.symm.trans hcontent
  · intro hsame
    exact ⟨events, hevents.trans hsome, hcontent.trans hsame.symm⟩

end Document

namespace Operation

/-- The operation undoes or redoes a step, and that changes the text. -/
def GoesUnheard (operation : Operation σ) (session : Session σ) : Prop :=
  operation.travels = true ∧
    (operation.perform session).document.content ≠ session.document.content

/-- Undoing and redoing announce nothing, and keep the buffer valid. -/
theorem events_perform_of_travels {operation : Operation σ} (h : operation.travels = true)
    {session : Session σ} (hvalid : session.document.IsValid) :
    (operation.perform session).document.IsValid ∧
      (operation.perform session).document.events = session.document.events := by
  cases operation with
  | undo sel redo =>
    exact ⟨Document.isValid_travel hvalid redo none, Document.events_travel _ redo none⟩
  | undoAt handle redo =>
    refine Document.undoAt_of_travel
      (P := fun doc => doc.IsValid ∧ doc.events = session.document.events) (fun _ _ h => h) ?_
    exact ⟨Document.isValid_travel hvalid redo (some handle),
      Document.events_travel _ redo (some handle)⟩
  | _ => cases h

/-- **A listener follows every operation that does not go unheard**, and falls behind with one that
does. -/
theorem followed_perform_iff {operation : Operation σ} {session : Session σ} {base : List Char}
    (h : session.document.Followed base) (hquiet : operation.listens = false) :
    (operation.perform session).document.Followed base ↔ ¬operation.GoesUnheard session := by
  by_cases htravels : operation.travels = true
  · obtain ⟨hvalid, hevents⟩ := events_perform_of_travels htravels h.valid
    have hiff := h.mirrored.iff_content hevents
    constructor
    · intro hafter hunheard
      exact hunheard.2 (hiff.1 hafter.mirrored)
    · intro hheard
      have hsame := Classical.not_not.1 fun hchanges => hheard ⟨htravels, hchanges⟩
      exact ⟨hvalid, hiff.2 hsame⟩
  · have hafter : (operation.perform session).document.Followed base := by
      refine (Document.kept_followed base).perform operation session h.valid h ?_ ?_ ?_
      · exact fun htravel => absurd htravel htravels
      · intro hprotect
        cases operation with
        | protect count => exact ⟨h.valid, h.mirrored⟩
        | _ => cases hprotect
      · intro hlisten
        rw [hquiet] at hlisten
        cases hlisten
    exact ⟨fun _ hunheard => htravels hunheard.1, fun _ => hafter⟩

end Operation

/-- **When a listener can mirror the text.** A listener that begins with the text of a document, at
any time after its creation, and applies every event that it receives holds the text after every
further operation, exactly if no undo or redo among them leads to another text. -/
theorem mirrored_iff {start : Session σ} (hcreated : start.document.Created)
    (before after : List (Operation σ))
    (hquiet : ∀ operation ∈ after, operation.listens = false) :
    Operation.Never Operation.GoesUnheard after (Operation.run (before ++ [.listen true]) start) ↔
      ∀ front, front <+: after →
        (Operation.run (before ++ .listen true :: front) start).document.MirroredFrom
          (Operation.run before start).document.content := by
  have hbegins : (Operation.run (before ++ [.listen true]) start).document.Followed
      (Operation.run before start).document.content := by
    rw [Operation.run_append]
    exact Document.followed_listen (isValid_run before start hcreated)
  rw [Operation.never_iff (P := fun session => session.document.Followed
    (Operation.run before start).document.content) ?_ hbegins]
  · refine forall_congr' fun front => imp_congr_right fun _ => ?_
    rw [← Operation.run_append, List.append_assoc, List.singleton_append]
    exact ⟨fun h => h.mirrored, fun h => ⟨isValid_run _ _ hcreated, h⟩⟩
  · exact fun operation hmem session h => Operation.followed_perform_iff h (hquiet operation hmem)

/-- A listener that comes to a text: it hears of an edit, and an undo on a document that is not
editable leaves the text as it is. -/
theorem mirrored_iff_readOnly :
    Document.Created (.scratch "+notes") ∧
      (∀ operation ∈ ([.replace ['x', 'y'] ⟨1, 2⟩ true .mouse, .setEditable false,
        .undo (.point 0) false] : List (Operation Unit)), operation.listens = false) ∧
      ∀ front, front <+: [.replace ['x', 'y'] ⟨1, 2⟩ true .mouse, .setEditable false,
          .undo (.point 0) false] →
        (Operation.run ([.replaceAll ['a', 'b', 'c']] ++ .listen true :: front)
          (⟨.scratch "+notes", .empty, (), .point 0, true⟩ : Session Unit)).document.MirroredFrom
          (Operation.run [.replaceAll ['a', 'b', 'c']]
            (⟨.scratch "+notes", .empty, (), .point 0, true⟩ : Session Unit)).document.content := by
  have hcreated : Document.Created (.scratch "+notes") := .blank _ _ _ .plain
  have hquiet : ∀ operation ∈ ([.replace ['x', 'y'] ⟨1, 2⟩ true .mouse, .setEditable false,
      .undo (.point 0) false] : List (Operation Unit)), operation.listens = false := by
    decide
  refine ⟨hcreated, hquiet, (mirrored_iff hcreated _ _ hquiet).1 ⟨?_, ?_, ?_, trivial⟩⟩
  · exact fun hunheard => absurd hunheard.1 (by decide)
  · exact fun hunheard => absurd hunheard.1 (by decide)
  · exact fun hunheard => hunheard.2 (by decide +kernel)

/-- **An undo goes unheard.** The text is gone, and the listener still holds it. -/
theorem not_mirrored :
    ¬∀ (start : Session Unit) (before after : List (Operation Unit)), start.document.Created →
      (∀ operation ∈ after, operation.listens = false) →
      (Operation.run (before ++ .listen true :: after) start).document.MirroredFrom
        (Operation.run before start).document.content := by
  intro hall
  obtain ⟨events, hevents, hcontent⟩ := hall ⟨.scratch "+notes", .empty, (), .point 0, true⟩
    [.replaceAll ['a', 'b', 'c']] [.undo (.point 0) false] (.blank _ _ _ .plain) (by decide)
  have hnone : (Operation.run [.replaceAll ['a', 'b', 'c'], .listen true, .undo (.point 0) false]
      (⟨.scratch "+notes", .empty, (), .point 0, true⟩ : Session Unit)).document.events =
        some [] := by
    decide +kernel
  cases hevents.symm.trans hnone
  exact absurd hcontent (by decide +kernel)

end Emend
