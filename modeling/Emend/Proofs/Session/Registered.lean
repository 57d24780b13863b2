import Emend.Proofs.Document.Selections
import Emend.Proofs.Session.UndoLog

/-!
# Registered selections lie within the text

A registered selection is clamped when it is registered or set, moves along with every edit, and is
set to the range of the new text by an edit or an undo of its own. After all of these it is a range
of the text: `Document.Tracks` is the invariant, which also says what holds in the middle of an edit
that leaves one selection alone.

One step breaks it. An edit of a registered selection that is refused because it begins in the
protected part sends the selection to the end of that part, which may lie behind the end of the
text (`Document.Overshoots`). `selectionsWithin_iff` says that a run keeps all selections within the
text exactly when it takes no such step.
-/

namespace Emend

variable {σ : Type}

namespace Document

variable {doc : Document} {skip : Option SelectionHandle} {handle : SelectionHandle}
  {range : Selection}

/-- Every registered selection is a range of the text. -/
def SelectionsWithin (doc : Document) : Prop :=
  ∀ handle sel, doc.selections.get? handle = some sel → sel.IsWithin doc.size

/-- The registered selections, except for that of `skip`, are ranges of the text of a valid
document. -/
structure Tracks (skip : Option SelectionHandle) (doc : Document) : Prop where
  /-- The buffer is valid. -/
  valid : doc.IsValid
  /-- The selections are ranges of the text. -/
  within : doc.selections.WithinExcept skip doc.size

/-- Tracked selections lie within the text. -/
theorem Tracks.selectionsWithin (h : doc.Tracks none) : doc.SelectionsWithin :=
  fun handle sel => h.within handle sel nofun

/-- Nothing but the buffer and the selections matters. -/
theorem Tracks.congr {other : Document} (h : doc.Tracks skip)
    (hbuffer : other.buffer = doc.buffer) (hselections : other.selections = doc.selections) :
    other.Tracks skip := by
  obtain ⟨hvalid, hwithin⟩ := h
  constructor
  · unfold IsValid
    rw [hbuffer]
    exact hvalid
  · rw [size, hbuffer, hselections]
    exact hwithin

/-- If all selections are tracked, all but one are. -/
theorem Tracks.skipping (h : doc.Tracks none) (skip : Option SelectionHandle) :
    doc.Tracks skip :=
  ⟨h.valid, h.within.weaken skip⟩

/-- When the selection that was left alone is set, all selections are ranges of the text. -/
theorem Tracks.set_skip {sel : Selection} (h : doc.Tracks (some handle))
    (hsel : sel.IsWithin doc.size) :
    ({ doc with selections := doc.selections.set handle sel } : Document).Tracks none :=
  ⟨h.valid, h.within.set_skip hsel⟩

/-! ## Edits -/

/-- Exchanging a range in the buffer does not move the selections. -/
@[simp]
theorem selections_substitute (doc : Document) (text : List Char) (range : Selection) :
    (doc.substitute text range).selections = doc.selections := by
  unfold substitute
  split <;> rfl

/-- What was put into the text ends within it. -/
theorem point_isWithin_substitute (h : doc.IsValid) (text : List Char)
    (hrange : range.IsWithin doc.size) :
    (Selection.point (range.start + text.length)).IsWithin (doc.substitute text range).size := by
  have hcontent : range.IsWithin doc.content.length := by
    rw [length_content h]
    exact hrange
  have hlength : (splice doc.content range text).length + range.length =
      doc.content.length + text.length := length_splice hcontent
  rw [← content_substitute h text hrange, length_content (isValid_substitute h text range),
    length_content h] at hlength
  obtain ⟨hle, hsize⟩ := hrange
  simp only [Selection.length] at hlength
  simp only [Selection.point, Selection.IsWithin]
  omega

/-- Applying an edit moves the selections along. -/
theorem Tracks.apply (h : doc.Tracks skip) (text : List Char) (range : Selection) :
    (doc.apply text range skip).Tracks skip := by
  refine ⟨isValid_apply h.valid text range skip, ?_⟩
  unfold Document.apply
  dsimp only
  rw [selections_substitute]
  exact h.within.shift _ _

/-- Counting characters does not move the selections. -/
@[simp]
theorem selections_countFilesAdded (doc : Document) (count : Nat) (origin : EditOrigin) :
    (doc.countFilesAdded count origin).selections = doc.selections := by
  unfold countFilesAdded
  split
  · dsimp only
    split <;> rfl
  · rfl

/-- An edit keeps track of the selections. -/
theorem Tracks.replaceAccepted (h : doc.Tracks skip) (text : List Char) (range : Selection)
    (solid : Bool) (origin : EditOrigin) :
    (doc.replaceAccepted text range skip solid origin).Tracks skip := by
  -- The entry in the history and the flag come first, the listener and the words last.
  have hrecord : ({ doc with modified := true }.record text range solid origin).Tracks skip :=
    h.congr rfl rfl
  exact (hrecord.apply text range).congr (sameCore_countFilesAdded _ _ _).buffer
    (selections_countFilesAdded _ _ _)

/-- After an edit the text is as long as with the range exchanged. -/
theorem size_replaceAccepted (doc : Document) (text : List Char) (range : Selection)
    (skip : Option SelectionHandle) (solid : Bool) (origin : EditOrigin) :
    (doc.replaceAccepted text range skip solid origin).size = (doc.substitute text range).size :=
  congrArg GapBuffer.size (sameCore_replaceAccepted doc text range skip solid origin).buffer

/-- A replacement that is accepted keeps all other selections within the text, and gives a selection
within it. -/
theorem Tracks.replaceSkipping (h : doc.Tracks skip) {target : Selection} (text : List Char)
    (solid : Bool) (origin : EditOrigin) (haccept : doc.accept target = .ok range) :
    (doc.replaceSkipping text target skip solid origin).1.Tracks skip ∧
      (doc.replaceSkipping text target skip solid origin).2.IsWithin
        (doc.replaceSkipping text target skip solid origin).1.size := by
  unfold Document.replaceSkipping
  rw [haccept]
  refine ⟨h.replaceAccepted text range solid origin, ?_⟩
  dsimp only
  rw [size_replaceAccepted]
  exact point_isWithin_substitute h.valid text (isWithin_of_accept haccept)

/-- A replacement keeps track of the selections, whether it is accepted or not. -/
theorem Tracks.replace (h : doc.Tracks none) (text : List Char) (target : Selection)
    (solid : Bool) (origin : EditOrigin) : (doc.replace text target solid origin).1.Tracks none :=
  replaceSkipping_of_accepted h fun range _ => h.replaceAccepted text range solid origin

/-- Setting selections that are clamped to the size keeps all of them within the text. -/
theorem withinExcept_setAll {selections : Selections} {size : Nat}
    (h : selections.WithinExcept none size) (kept : List (SelectionHandle × Selection)) :
    (kept.foldl (fun selections (handle, sel) => selections.set handle (sel.clamp size))
      selections).WithinExcept none size := by
  induction kept generalizing selections with
  | nil => exact h
  | cons first rest ih => exact ih (h.set first.1 (first.2.clamp_isWithin size))

/-- Another text keeps track of the selections. -/
theorem Tracks.replaceAll (h : doc.Tracks none) (text : List Char) :
    (doc.replaceAll text).Tracks none := by
  obtain ⟨hvalid, hwithin⟩ := h.replace text ⟨0, doc.size⟩ true .program
  exact ⟨hvalid, withinExcept_setAll hwithin _⟩

/-! ## Edits of registered selections -/

/-- A refused replacement gives back its target, or the end of the protected part. -/
theorem accept_error {target after : Selection} (h : doc.accept target = .error after) :
    (doc.editable = false ∧ after = target) ∨
      ∃ count, doc.editable = true ∧ doc.protected? = some count ∧ after = .point count := by
  unfold accept at h
  cases hedit : doc.editable with
  | false =>
    rw [hedit] at h
    cases h
    exact .inl ⟨rfl, rfl⟩
  | true =>
    rw [hedit] at h
    cases hprotected : doc.protected? with
    | none =>
      rw [hprotected] at h
      cases h
    | some count =>
      rw [hprotected] at h
      refine .inr ⟨count, rfl, rfl, ?_⟩
      simp only [Bool.not_true, Bool.false_eq_true, if_false] at h
      split at h
      · cases h
        rfl
      · cases h

/-- When more is protected than there is, every replacement is refused. -/
theorem accept_of_size_lt {count : Nat} (hedit : doc.editable = true)
    (hprotected : doc.protected? = some count) (hlt : doc.size < count) (target : Selection) :
    doc.accept target = .error (.point count) := by
  have hstart : (target.clamp doc.size).start < count := by
    obtain ⟨hle, hsize⟩ := target.clamp_isWithin doc.size
    omega
  unfold accept
  rw [hedit, hprotected]
  exact if_pos hstart

/-- Editing the registered selection sends it behind the end of the text: the document is editable
but more of it is protected than there is. -/
def Overshoots (doc : Document) (handle : SelectionHandle) : Prop :=
  doc.editable = true ∧ (∃ count, doc.protected? = some count ∧ doc.size < count) ∧
    (doc.selections.get? handle).isSome

/-- An edit of a registered selection keeps all selections within the text unless it overshoots. -/
theorem Tracks.replaceAt (h : doc.Tracks none) {text : List Char} {solid : Bool}
    {origin : EditOrigin} (hnot : ¬doc.Overshoots handle) :
    (doc.replaceAt text handle solid origin).Tracks none := by
  unfold Document.replaceAt
  cases hget : doc.selections.get? handle with
  | none => exact h
  | some sel =>
    cases haccept : doc.accept sel with
    | ok range =>
      obtain ⟨htracks, hafter⟩ :=
        (h.skipping (some handle)).replaceSkipping text solid origin haccept
      exact htracks.set_skip hafter
    | error after =>
      -- The document stays, and its selection is what the refusal gives.
      have hafter : after.IsWithin doc.size := by
        obtain ⟨_, rfl⟩ | ⟨count, hedit, hprotected, rfl⟩ := accept_error haccept
        · exact h.selectionsWithin handle _ hget
        · refine ⟨Nat.le_refl _, Nat.le_of_not_lt fun hlt => ?_⟩
          exact hnot ⟨hedit, ⟨count, hprotected, hlt⟩, by rw [hget]; rfl⟩
      dsimp only
      unfold Document.replaceSkipping
      rw [haccept]
      exact (h.skipping (some handle)).set_skip hafter

/-- An edit that overshoots leaves the selection behind the end of the text. -/
theorem Overshoots.not_within (h : doc.Overshoots handle) (text : List Char)
    (solid : Bool) (origin : EditOrigin) :
    ¬(doc.replaceAt text handle solid origin).SelectionsWithin := by
  obtain ⟨hedit, ⟨count, hprotected, hlt⟩, hsome⟩ := h
  obtain ⟨sel, hget⟩ := Option.isSome_iff_exists.1 hsome
  have hafter : doc.replaceAt text handle solid origin =
      { doc with selections := doc.selections.set handle (.point count) } := by
    unfold Document.replaceAt Document.replaceSkipping
    rw [hget]
    dsimp only
    rw [accept_of_size_lt hedit hprotected hlt]
  intro hwithin
  rw [hafter] at hwithin
  have hpoint := hwithin handle (.point count) (by
    rw [Selections.get?_set, if_pos ⟨rfl, hsome⟩])
  exact absurd hpoint.2 (Nat.not_le_of_lt hlt)

/-! ## Undo and redo -/

/-- A replayed entry keeps the selections within the text, and so is the range it puts back. -/
theorem Tracks.replay (h : doc.Tracks skip) (passage : Passage) (text : List Char) :
    (doc.replay passage text skip).1.Tracks skip ∧
      (doc.replay passage text skip).2.IsWithin (doc.replay passage text skip).1.size := by
  have hrange := Selection.clamp_isWithin ⟨passage.start, passage.stop⟩ doc.size
  refine ⟨(h.apply text _).congr rfl rfl, Nat.le_add_right _ _, ?_⟩
  exact (point_isWithin_substitute h.valid text hrange).2

/-- What holds while a step is undone or redone: as long as no range was put back, nothing has
happened; from then on the selection of `skip` is left alone, and the last range lies within the
text. -/
def TracksStep (skip : Option SelectionHandle) (doc : Document) : Option Selection → Prop
  | none => doc.Tracks none
  | some last => doc.Tracks skip ∧ last.IsWithin doc.size

/-- Within a step through the history the selections are tracked. -/
theorem TracksStep.tracks {last : Option Selection} (h : doc.TracksStep skip last) :
    doc.Tracks skip := by
  cases last with
  | none => exact h.skipping skip
  | some last => exact h.1

/-- A replay goes on with a step, whatever has become of the history. -/
theorem TracksStep.replay {last : Option Selection} (h : doc.TracksStep skip last)
    (history : History) (passage : Passage) (text : List Char) :
    ({ doc with history }.replay passage text skip).1.TracksStep skip
      (some ({ doc with history }.replay passage text skip).2) := by
  have hhistory : ({ doc with history } : Document).Tracks skip := h.tracks.congr rfl rfl
  exact hhistory.replay passage text

/-- A step of undo or redo keeps the selections within the text, and gives a range of it. -/
theorem Tracks.travel (h : doc.Tracks none) (redo : Bool) (skip : Option SelectionHandle) :
    (doc.travel redo skip).1.TracksStep skip (doc.travel redo skip).2 :=
  travel_last (P := TracksStep skip) (fun _ _ _ _ _ hstep => hstep.replay _ _ _)
    (fun _ _ _ _ _ hstep => hstep.replay _ _ _) doc redo h

/-- An undo for a registered selection sets it to the range that was put back. -/
theorem Tracks.undoAt (h : doc.Tracks none) (handle : SelectionHandle) (redo : Bool) :
    (doc.undoAt handle redo).Tracks none := by
  have hstep := h.travel redo (some handle)
  unfold Document.undoAt
  split
  · next after last heq =>
    rw [heq] at hstep
    exact hstep.1.set_skip hstep.2
  · next after heq =>
    rw [heq] at hstep
    exact hstep

/-! ## Everything else -/

/-- A new selection is clamped to the text. -/
theorem Tracks.addSelection (h : doc.Tracks none) (sel : Selection) :
    (doc.addSelection sel).2.Tracks none :=
  ⟨h.valid, h.within.add (sel.clamp_isWithin doc.size)⟩

/-- A selection that replaces another one is clamped to the text. -/
theorem Tracks.setSelection (h : doc.Tracks none) (handle : SelectionHandle) (sel : Selection) :
    (doc.setSelection handle sel).Tracks none :=
  ⟨h.valid, h.within.set handle (sel.clamp_isWithin doc.size)⟩

/-- A selection may be forgotten. -/
theorem Tracks.eraseSelection (h : doc.Tracks none) (handle : SelectionHandle) :
    (doc.eraseSelection handle).Tracks none :=
  ⟨h.valid, h.within.erase handle⟩

/-- Tags take no room. -/
theorem Tracks.highlight (h : doc.Tracks none) (start stop : Nat) :
    (doc.highlight start stop).1.Tracks none := by
  obtain ⟨hvalid, hwithin⟩ := h
  have hvalid' : (doc.highlight start stop).1.IsValid := GapBuffer.isValid_setTags hvalid _ _
  have hcontent : (doc.highlight start stop).1.content = doc.content :=
    GapBuffer.chars_setTags hvalid _ _
  have hsize : (doc.highlight start stop).1.size = doc.size := by
    rw [← length_content hvalid', hcontent, length_content hvalid]
  refine ⟨hvalid', ?_⟩
  rw [hsize]
  exact hwithin

/-- Reading a file again is an edit. -/
theorem Tracks.reload (h : doc.Tracks none) {files : FileSystem} {create : Bool}
    {after : Document} (hreload : doc.reload files create = .ok after) : after.Tracks none :=
  reload_of_replaceAll (fun _ text h => h.replaceAll text) (fun _ h => h.congr rfl rfl)
    (fun _ h => h.congr rfl rfl) (fun _ _ h => h.congr rfl rfl) (fun _ _ h => h.congr rfl rfl)
    (fun _ h => h.congr rfl rfl) h hreload

/-- Writing the document keeps track of the selections. -/
theorem Tracks.save (h : doc.Tracks none) {files after : FileSystem} {written : Document}
    (hsave : doc.save files = .ok (written, after)) : written.Tracks none := by
  unfold Document.save at hsave
  split at hsave
  · cases hsave
  · cases hsave
    exact h.congr rfl rfl

/-- A created document has no registered selections. -/
theorem Created.tracks (h : doc.Created) : doc.Tracks none :=
  h.of_reload
    (fun directory name settings _ =>
      ⟨isValid_blank directory name settings, Selections.withinExcept_empty _ _⟩)
    fun _ _ _ _ h hread => h.reload hread

end Document

/-- What edits of a program keep. -/
theorem editsKeep_tracks : Run.EditsKeep fun doc _ => doc.Tracks none := by
  intro doc fresh target text h
  split
  · exact h
  · next range _ => exact h.replaceAccepted text range fresh .program

namespace Operation

/-- The operation is an edit of a registered selection that sends it behind the end of the text. -/
def Overshoots : Operation σ → Session σ → Prop
  | .replaceAt _ handle _ _, session => session.document.Overshoots handle
  | _, _ => False

/-- No operation of a run overshoots. -/
def NeverOvershoots : List (Operation σ) → Session σ → Prop
  | [], _ => True
  | operation :: rest, session =>
    ¬operation.Overshoots session ∧ NeverOvershoots rest (operation.perform session)

/-- **An operation keeps all selections within the text unless it overshoots.** -/
theorem tracks_perform {session : Session σ} (h : session.document.Tracks none)
    (operation : Operation σ) (hnot : ¬operation.Overshoots session) :
    (operation.perform session).document.Tracks none := by
  -- Only an edit through a handle can put a selection outside of the text.
  cases operation with
  | replace text target solid origin => exact h.replace text target solid origin
  | replaceAt text handle solid origin => exact h.replaceAt hnot
  | replaceAll text => exact h.replaceAll text
  | interpret env program dot =>
    obtain ⟨_, hafter⟩ := ({ session with dot } : Session σ).interpret_keeps editsKeep_tracks env
      program h
    exact hafter
  | undo sel redo => exact (h.travel redo none).tracks
  | undoAt handle redo => exact h.undoAt handle redo
  | flushHistory => exact h.congr rfl rfl
  | setEditable editable => exact h.congr rfl rfl
  | protect count => exact h.congr rfl rfl
  | addSelection sel => exact h.addSelection sel
  | setSelection handle sel => exact h.setSelection handle sel
  | eraseSelection handle => exact h.eraseSelection handle
  | highlight start stop => exact h.highlight start stop
  | listen listening =>
    cases listening with
    | true => exact h.congr rfl rfl
    | false => exact h.congr rfl rfl
  | save =>
    simp only [perform]
    split
    · next document files heq => exact h.save heq
    · exact h
  | reload create =>
    simp only [perform]
    split
    · next document heq => exact h.reload heq
    · exact h
  | wait clock => exact h.congr rfl rfl
  | changeFiles files => exact h

/-- An operation that overshoots leaves a selection that is no range of the text. -/
theorem Overshoots.not_within {operation : Operation σ} {session : Session σ}
    (h : operation.Overshoots session) :
    ¬(operation.perform session).document.SelectionsWithin := by
  cases operation with
  | replaceAt text handle solid origin =>
    exact Document.Overshoots.not_within h text solid origin
  | _ => exact h.elim

/-- A run that never overshoots keeps all selections within the text. -/
theorem tracks_run {operations : List (Operation σ)} {session : Session σ}
    (h : session.document.Tracks none) (hnever : NeverOvershoots operations session) :
    (run operations session).document.Tracks none := by
  induction operations generalizing session with
  | nil => exact h
  | cons operation rest ih => exact ih (tracks_perform h operation hnever.1) hnever.2

/-- Nor does any beginning of such a run overshoot. -/
theorem NeverOvershoots.front {front operations : List (Operation σ)} {session : Session σ}
    (h : NeverOvershoots operations session) (hfront : front <+: operations) :
    NeverOvershoots front session := by
  induction front generalizing operations session with
  | nil => trivial
  | cons operation rest ih =>
    obtain ⟨others, rfl⟩ := hfront
    exact ⟨h.1, ih h.2 (List.prefix_append rest others)⟩

/-- If all selections are within the text after every beginning of a run, none of its operations
overshoots. -/
theorem neverOvershoots_of_selectionsWithin {operations : List (Operation σ)}
    {session : Session σ}
    (h : ∀ front, front <+: operations → (run front session).document.SelectionsWithin) :
    NeverOvershoots operations session := by
  induction operations generalizing session with
  | nil => trivial
  | cons operation rest ih =>
    have hfirst := h [operation] (List.prefix_append [operation] rest)
    refine ⟨fun hover => hover.not_within hfirst, ih fun front hfront => ?_⟩
    exact h (operation :: front) (List.cons_prefix_cons.2 ⟨rfl, hfront⟩)

end Operation

/-- **When registered selections are ranges of the text.** After every operation of a run on a
created document all of them are, exactly if no edit of a registered selection is refused while more
is protected than there is. -/
theorem selectionsWithin_iff {session : Session σ} (hcreated : session.document.Created)
    (operations : List (Operation σ)) :
    Operation.NeverOvershoots operations session ↔
      ∀ front, front <+: operations →
        (Operation.run front session).document.SelectionsWithin := by
  constructor
  · intro hnever front hfront
    exact (Operation.tracks_run hcreated.tracks (hnever.front hfront)).selectionsWithin
  · exact Operation.neverOvershoots_of_selectionsWithin

/-- A registered selection is edited where nothing is protected. -/
theorem selectionsWithin_iff_scratch :
    Document.Created (.scratch "+notes") ∧
      Operation.NeverOvershoots [.addSelection (.point 7), .replaceAt ['a', 'b'] ⟨0⟩ true .program]
        (⟨.scratch "+notes", .empty, (), .point 0, true⟩ : Session Unit) ∧
      ∀ front, front <+: [.addSelection (.point 7), .replaceAt ['a', 'b'] ⟨0⟩ true .program] →
        (Operation.run front (⟨.scratch "+notes", .empty, (), .point 0, true⟩ :
          Session Unit)).document.SelectionsWithin := by
  have hcreated : Document.Created (.scratch "+notes") := .blank _ _ _ .plain
  have hnever : Operation.NeverOvershoots
      [.addSelection (.point 7), .replaceAt ['a', 'b'] ⟨0⟩ true .program]
      (⟨.scratch "+notes", .empty, (), .point 0, true⟩ : Session Unit) := by
    refine ⟨id, ?_, trivial⟩
    rintro ⟨_, ⟨count, hprotected, _⟩, _⟩
    cases hprotected
  exact ⟨hcreated, hnever, (selectionsWithin_iff hcreated _).1 hnever⟩

/-- **Registered selections can leave the text.** A protected part stays as long as it is when an
undo takes back its text. An edit of a registered selection is refused then, and sends the selection
to the end of a part that is no longer there. -/
theorem not_selectionsWithin :
    ¬ ∀ (session : Session Unit) (operations : List (Operation Unit)),
      session.document.Created → (Operation.run operations session).document.SelectionsWithin := by
  intro hall
  have hwithin := hall ⟨.scratch "+notes", .empty, (), .point 0, true⟩
    [.replace ['a', 'b', 'c'] (.point 0) true .program, .protect (some 3), .addSelection (.point 3),
      .undo (.point 0) false, .replaceAt ['x'] ⟨0⟩ true .program]
    (.blank _ _ _ .plain)
  have hpoint := hwithin ⟨0⟩ (.point 3) (by decide +kernel)
  exact absurd hpoint.2 (by decide +kernel)

end Emend
