import Emend.Proofs.Session.Invariant
import Emend.Proofs.Session.UndoLog

/-!
# What protection protects from

No edit is accepted that begins in the protected part of a text, so no edit changes it: what is
replaced lies behind it (`Fronted.replaceAccepted`). Undoing and redoing do not ask what is
protected. They replay entries where these lie, and an entry from before the protection may lie in
the protected part.

`protected_iff` says both. The protected characters stay the same exactly as long as no undo or redo
changes them. If no entry of the history begins among them when the protection is set, none ever
does, since entries recorded later lie behind them as well; then nothing can change them.
-/

namespace Emend

variable {σ : Type}

/-- Splicing behind a place leaves what is before it. -/
theorem take_splice {α : Type} {list : List α} {range : Selection} {count : Nat}
    (inserted : List α) (hcount : count ≤ range.start) (h : range.IsWithin list.length) :
    (splice list range inserted).take count = list.take count := by
  obtain ⟨hle, hsize⟩ := h
  have hlength : count ≤ (list.take range.start).length := by
    rw [List.length_take]
    omega
  rw [splice, List.append_assoc, List.take_append_of_le_length hlength, List.take_take,
    Nat.min_eq_left hcount]

namespace Document

variable {doc : Document} {count : Nat} {front : List Char} {target range : Selection}
  {skip : Option SelectionHandle}

/-- Nothing is accepted that begins in the protected part. -/
theorem protected_le_of_accept (hprotected : doc.protected? = some count)
    (h : doc.accept target = .ok range) : count ≤ range.start := by
  unfold accept at h
  split at h
  · cases h
  · rw [hprotected] at h
    dsimp only at h
    split at h
    · cases h
    · next hnot =>
      cases h
      exact Nat.le_of_not_lt hnot

/-- A valid document whose first `count` characters are protected. -/
structure Guarded (count : Nat) (doc : Document) : Prop where
  /-- The buffer is valid. -/
  valid : doc.IsValid
  /-- So many characters are protected. -/
  protected? : doc.protected? = some count

/-- The first `count` characters are protected, and they are `front`. -/
structure Fronted (count : Nat) (front : List Char) (doc : Document) : Prop where
  /-- The characters are protected. -/
  guarded : doc.Guarded count
  /-- These are the characters. -/
  front : doc.content.take count = front

/-- An edit keeps a document guarded. -/
theorem Guarded.replaceAccepted (h : doc.Guarded count) (text : List Char) (range : Selection)
    (skip : Option SelectionHandle) (solid : Bool) (origin : EditOrigin) :
    (doc.replaceAccepted text range skip solid origin).Guarded count :=
  ⟨isValid_replaceAccepted h.valid, protected_replaceAccepted.trans h.protected?⟩

/-- A step through the history keeps a document guarded. -/
theorem Guarded.travel (h : doc.Guarded count) (redo : Bool) (skip : Option SelectionHandle) :
    (doc.travel redo skip).1.Guarded count :=
  ⟨isValid_travel h.valid redo skip, (protected_travel doc redo skip).trans h.protected?⟩

/-- All that a document does keeps it guarded, once its protection is fixed. -/
theorem kept_guarded (count : Nat) : Kept (Guarded count) where
  same := fun h hsame => ⟨hsame.valid h.valid, hsame.protected?.trans h.protected?⟩
  replaced := fun _ text skip solid origin h => h.replaceAccepted text _ skip solid origin
  saved := fun h => ⟨h.valid, h.protected?⟩
  unsaved := fun h => ⟨h.valid, h.protected?⟩
  flushed := fun h => ⟨h.valid, h.protected?⟩

/-- **An accepted replacement leaves the protected characters.** -/
theorem Fronted.replaceAccepted (h : doc.Fronted count front)
    (haccept : doc.accept target = .ok range) (text : List Char) (skip : Option SelectionHandle)
    (solid : Bool) (origin : EditOrigin) :
    (doc.replaceAccepted text range skip solid origin).Fronted count front := by
  obtain ⟨hguarded, hfront⟩ := h
  have hrange := isWithin_of_accept haccept
  have hwithin : range.IsWithin doc.content.length := by
    rw [length_content hguarded.valid]
    exact hrange
  refine ⟨hguarded.replaceAccepted text range skip solid origin, ?_⟩
  rw [content_replaceAccepted hguarded.valid hrange,
    take_splice text (protected_le_of_accept hguarded.protected? haccept) hwithin]
  exact hfront

/-- So does everything that is no edit, and neither undoes nor redoes. -/
theorem kept_fronted (count : Nat) (front : List Char) : Kept (Fronted count front) where
  same := fun h hsame => by
    refine ⟨(kept_guarded count).same h.guarded hsame, ?_⟩
    rw [hsame.content]
    exact h.front
  replaced := fun haccept text skip solid origin h =>
    h.replaceAccepted haccept text skip solid origin
  saved := fun h => ⟨(kept_guarded count).saved h.guarded, h.front⟩
  unsaved := fun h => ⟨(kept_guarded count).unsaved h.guarded, h.front⟩
  flushed := fun h => ⟨(kept_guarded count).flushed h.guarded, h.front⟩

/-! ## Entries behind the protected part -/

/-- The first `count` characters are protected, they are `front`, and no entry of the history begins
among them. -/
structure Sheltered (count : Nat) (front : List Char) (doc : Document) : Prop where
  /-- The history tells how the text came about. -/
  grew : ∃ base, doc.GrewFrom base
  /-- The characters are protected. -/
  fronted : doc.Fronted count front
  /-- The applied entries lie behind them. -/
  applied : ∀ entry ∈ doc.history.applied, count ≤ entry.before.start
  /-- So do those that are undone. -/
  undone : ∀ entry ∈ doc.history.undone, count ≤ entry.before.start

/-- The marks of a saved state do not change where entries begin. -/
theorem start_le_of_mem_map {entries : List HistoryEntry}
    (h : ∀ entry ∈ entries, count ≤ entry.before.start) :
    ∀ entry ∈ entries.map History.unmark, count ≤ entry.before.start := by
  intro entry hmem
  obtain ⟨other, hother, rfl⟩ := List.mem_map.1 hmem
  exact h other hother

/-- The mark of a saved document moves no entry. -/
theorem Sheltered.markSaved (h : doc.Sheltered count front) :
    ({ doc with history := doc.history.markSaved } : Document).Sheltered count front := by
  obtain ⟨⟨base, hgrew⟩, hfronted, happlied, hundone⟩ := h
  have happlied' := start_le_of_mem_map happlied
  refine ⟨⟨base, hgrew.markSaved⟩, (kept_fronted count front).saved hfronted, ?_, ?_⟩
  · intro entry hmem
    dsimp only [History.markSaved] at hmem
    split at hmem
    · cases hmem
    · next newest older heq =>
      rw [heq] at happlied'
      rcases List.mem_cons.1 hmem with rfl | hmem
      · exact happlied' newest List.mem_cons_self
      · exact happlied' entry (List.mem_cons_of_mem _ hmem)
  · intro entry hmem
    dsimp only [History.markSaved] at hmem
    split at hmem
    · exact start_le_of_mem_map hundone entry hmem
    · exact start_le_of_mem_map hundone entry hmem

/-- An entry that is recorded lies behind the protected part, also where it goes on with one that
does. -/
theorem Sheltered.replaceAccepted (h : doc.Sheltered count front)
    (haccept : doc.accept target = .ok range) (text : List Char) (skip : Option SelectionHandle)
    (solid : Bool) (origin : EditOrigin) :
    (doc.replaceAccepted text range skip solid origin).Sheltered count front := by
  obtain ⟨⟨base, hgrew⟩, hfronted, happlied, hundone⟩ := h
  refine ⟨⟨base, hgrew.replaceAccepted haccept⟩,
    hfronted.replaceAccepted haccept text skip solid origin, ?_, ?_⟩
  · rw [history_replaceAccepted]
    have hstart := protected_le_of_accept hfronted.guarded.protected? haccept
    rcases doc.history.add_cases (doc.entryFor text range solid origin) doc.clock with
      heq | ⟨previous, older, hentries, _, heq⟩
    · rw [heq]
      exact List.forall_mem_cons.2 ⟨hstart, happlied⟩
    · rw [heq]
      rw [hentries] at happlied
      exact List.forall_mem_cons.2 (List.forall_mem_cons.1 happlied)
  · rw [history_replaceAccepted]
    rcases doc.history.add_cases (doc.entryFor text range solid origin) doc.clock with
      heq | ⟨_, _, _, _, heq⟩
    · rw [heq]
      exact fun entry hmem => by cases hmem
    · rw [heq]
      exact fun entry hmem => by cases hmem

/-- All that a document does keeps its beginning sheltered. -/
theorem kept_sheltered (count : Nat) (front : List Char) : Kept (Sheltered count front) where
  same := fun h hsame => by
    obtain ⟨⟨base, last, hvalid, hline⟩, hfronted, happlied, hundone⟩ := h
    refine ⟨⟨base, last, hsame.valid hvalid, ?_⟩, (kept_fronted count front).same hfronted hsame,
      ?_, ?_⟩
    · rw [hsame.history, hsame.content]
      exact hline
    · rw [hsame.history]
      exact happlied
    · rw [hsame.history]
      exact hundone
  replaced := fun haccept text skip solid origin h =>
    h.replaceAccepted haccept text skip solid origin
  saved := Sheltered.markSaved
  unsaved := fun h => by
    obtain ⟨⟨base, hgrew⟩, hfronted, happlied, hundone⟩ := h
    exact ⟨⟨base, hgrew.markBlankUnsaved⟩, (kept_fronted count front).unsaved hfronted, happlied,
      hundone⟩
  flushed := fun h => by
    obtain ⟨⟨_, hgrew⟩, hfronted, _, _⟩ := h
    exact ⟨⟨_, hgrew.flushHistory⟩, (kept_fronted count front).flushed hfronted, nofun, nofun⟩

/-- Replaying a passage behind the protected part leaves it, whatever becomes of the history. -/
theorem Fronted.replay (h : doc.Fronted count front) (history : History) (passage : Passage)
    (text : List Char) (hstart : count ≤ passage.start)
    (hwithin : Selection.IsWithin ⟨passage.start, passage.stop⟩ doc.size) :
    ({ doc with history }.replay passage text skip).1.Fronted count front := by
  obtain ⟨⟨hvalid, hprotected⟩, hfront⟩ := h
  have hvalid' : ({ doc with history } : Document).IsValid := hvalid
  refine ⟨⟨isValid_replay hvalid' _ _ _, (protected_replay _ _ _ _).trans hprotected⟩, ?_⟩
  rw [content_replay hvalid' passage text skip hwithin,
    take_splice text hstart (by rw [length_content hvalid']; exact hwithin)]
  exact hfront

/-- **Undoing and redoing replay entries behind the protected part**, if all entries are there. -/
theorem Sheltered.travel (h : doc.Sheltered count front) (redo : Bool)
    (skip : Option SelectionHandle) : (doc.travel redo skip).1.Sheltered count front := by
  refine travel_induction ?_ ?_ doc redo h
  · rintro doc entry older hentries ⟨⟨base, last, hline⟩, hfronted, happlied, hundone⟩
    -- What an entry put there begins where it removed something.
    have hwithin := isWithin_back hline.valid hline.timeline hentries
    have haligned : entry.after.start = entry.before.start := by
      have hstacks := hline.timeline.applied
      rw [hentries] at hstacks
      obtain _ | ⟨_, turns, _⟩ := hstacks
      exact turns.aligned
    rw [hentries] at happlied
    obtain ⟨hentry, holder⟩ := List.forall_mem_cons.1 happlied
    refine ⟨⟨base, last, hline.back hentries⟩, ?_, ?_, ?_⟩
    · have hstart : count ≤ entry.after.start := by
        rw [haligned]
        exact hentry
      exact hfronted.replay _ entry.after entry.before.text hstart hwithin
    · rw [history_takenBack]
      exact holder
    · rw [history_takenBack]
      exact List.forall_mem_cons.2 ⟨hentry, hundone⟩
  · rintro doc entry later hentries ⟨⟨base, last, hline⟩, hfronted, happlied, hundone⟩
    have hwithin := isWithin_forth hline.valid hline.timeline hentries
    rw [hentries] at hundone
    obtain ⟨hentry, hlater⟩ := List.forall_mem_cons.1 hundone
    refine ⟨⟨base, last, hline.forth hentries⟩, ?_, ?_, ?_⟩
    · exact hfronted.replay _ entry.before entry.after.text hentry hwithin
    · rw [history_appliedAgain]
      exact List.forall_mem_cons.2 ⟨hentry, happlied⟩
    · rw [history_appliedAgain]
      exact hlater

end Document

namespace Operation

variable {count : Nat} {front : List Char}

/-- The operation undoes or redoes a step, and that changes one of the first `count` characters. -/
def ReachesFront (count : Nat) (operation : Operation σ) (session : Session σ) : Prop :=
  operation.travels = true ∧ (operation.perform session).document.content.take count ≠
    session.document.content.take count

/-- The characters stay protected. -/
theorem guarded_perform {operation : Operation σ} {session : Session σ}
    (h : session.document.Guarded count) (hfixed : operation.protects = false) :
    (operation.perform session).document.Guarded count := by
  refine (Document.kept_guarded count).perform operation session h.valid h ?_ ?_ ?_
  · exact perform_of_travel (Document.kept_guarded count).selections h.travel
  · intro hprotect
    rw [hfixed] at hprotect
    cases hprotect
  · intro hlisten
    cases operation with
    | listen listening => cases listening <;> exact ⟨h.valid, h.protected?⟩
    | _ => cases hlisten

/-- A run of operations keeps a document guarded. -/
theorem guarded_run {operations : List (Operation σ)} {session : Session σ}
    (h : session.document.Guarded count)
    (hfixed : ∀ operation ∈ operations, operation.protects = false) :
    (run operations session).document.Guarded count := by
  induction operations generalizing session with
  | nil => exact h
  | cons operation rest ih =>
    exact ih (guarded_perform h (hfixed operation List.mem_cons_self)) fun other hmem =>
      hfixed other (List.mem_cons_of_mem _ hmem)

/-- **An operation leaves the protected characters** unless it undoes or redoes a step that changes
them. -/
theorem fronted_perform_iff {operation : Operation σ} {session : Session σ}
    (h : session.document.Fronted count front) (hfixed : operation.protects = false) :
    (operation.perform session).document.Fronted count front ↔
      ¬operation.ReachesFront count session := by
  by_cases htravels : operation.travels = true
  · constructor
    · intro hfronted hreaches
      exact hreaches.2 (hfronted.front.trans h.front.symm)
    · intro hnot
      have hsame := Classical.not_not.1 fun hchanges => hnot ⟨htravels, hchanges⟩
      exact ⟨guarded_perform h.guarded hfixed, hsame.trans h.front⟩
  · refine ⟨fun _ hreaches => htravels hreaches.1, fun _ => ?_⟩
    refine (Document.kept_fronted count front).perform operation session h.guarded.valid h ?_ ?_ ?_
    · exact fun htravel => absurd htravel htravels
    · intro hprotect
      rw [hfixed] at hprotect
      cases hprotect
    · intro hlisten
      cases operation with
      | listen listening =>
        cases listening <;> exact ⟨⟨h.guarded.valid, h.guarded.protected?⟩, h.front⟩
      | _ => cases hlisten

/-- If no entry of the history lies in the protected part, no operation reaches it, and none is
recorded there. -/
theorem sheltered_perform {operation : Operation σ} {session : Session σ}
    (h : session.document.Sheltered count front) (hfixed : operation.protects = false) :
    (operation.perform session).document.Sheltered count front := by
  refine (Document.kept_sheltered count front).perform operation session
    h.fronted.guarded.valid h ?_ ?_ ?_
  · exact perform_of_travel (Document.kept_sheltered count front).selections h.travel
  · intro hprotect
    rw [hfixed] at hprotect
    cases hprotect
  · intro hlisten
    cases operation with
    | listen listening =>
      obtain ⟨⟨base, hgrew⟩, hfronted, happlied, hundone⟩ := h
      cases listening <;>
        exact ⟨⟨base, hgrew.congr rfl rfl⟩,
          ⟨⟨hfronted.guarded.valid, hfronted.guarded.protected?⟩, hfronted.front⟩, happlied,
          hundone⟩
    | _ => cases hlisten

/-- A run on a document whose history lies behind the protected part never reaches it. -/
theorem never_reachesFront {operations : List (Operation σ)} {session : Session σ}
    (h : session.document.Sheltered count front)
    (hfixed : ∀ operation ∈ operations, operation.protects = false) :
    Never (ReachesFront count) operations session := by
  induction operations generalizing session with
  | nil => trivial
  | cons operation rest ih =>
    have hnext := sheltered_perform h (hfixed operation List.mem_cons_self)
    refine ⟨(fronted_perform_iff h.fronted (hfixed operation List.mem_cons_self)).1 hnext.fronted,
      ih hnext fun other hmem => hfixed other (List.mem_cons_of_mem _ hmem)⟩

end Operation

/-- **When the protected part stays the same.** When the beginning of a text is protected, at any
time after the creation of the document, its characters stay the same during all that follows,
exactly if no undo or redo changes them. None does if no entry of the history begins among them when
the protection is set. -/
theorem protected_iff {start : Session σ} (hcreated : start.document.Created)
    (before after : List (Operation σ)) (count : Nat)
    (hfixed : ∀ operation ∈ after, operation.protects = false) :
    (Operation.Never (Operation.ReachesFront count) after
        (Operation.run (before ++ [.protect (some count)]) start) ↔
      ∀ front, front <+: after →
        (Operation.run (before ++ .protect (some count) :: front) start).document.content.take
          count = (Operation.run before start).document.content.take count) ∧
    ((∀ entry ∈ (Operation.run before start).document.history.entries,
        count ≤ entry.before.start) →
      Operation.Never (Operation.ReachesFront count) after
        (Operation.run (before ++ [.protect (some count)]) start)) := by
  have hgrew := grewFrom_run before start hcreated.grewFrom
  have hbegins : (Operation.run (before ++ [.protect (some count)]) start).document.Fronted count
      ((Operation.run before start).document.content.take count) := by
    rw [Operation.run_append]
    exact ⟨⟨isValid_run before start hcreated, rfl⟩, rfl⟩
  constructor
  · rw [Operation.never_iff (P := fun session => session.document.Fronted count
      ((Operation.run before start).document.content.take count)) ?_ hbegins]
    · refine forall_congr' fun front => imp_congr_right fun hfront => ?_
      have hguarded := Operation.guarded_run hbegins.guarded fun operation hmem =>
        hfixed operation (hfront.subset hmem)
      rw [← Operation.run_append, List.append_assoc, List.singleton_append] at hguarded ⊢
      exact ⟨fun h => h.front, fun h => ⟨hguarded, h⟩⟩
    · exact fun operation hmem session h =>
        Operation.fronted_perform_iff h (hfixed operation hmem)
  · intro hbehind
    have hsheltered : (Operation.run (before ++ [.protect (some count)]) start).document.Sheltered
        count ((Operation.run before start).document.content.take count) := by
      rw [Operation.run_append] at hbegins ⊢
      refine ⟨⟨_, hgrew.congr rfl rfl⟩, hbegins, fun entry hmem => ?_, fun entry hmem => ?_⟩
      · exact hbehind entry (List.mem_append_left _ (List.mem_reverse.2 hmem))
      · exact hbehind entry (List.mem_append_right _ hmem)
    exact Operation.never_reachesFront hsheltered hfixed

/-- A prompt is put in, the history forgotten, and the prompt protected: an edit of it is refused,
and undoing takes back what was typed behind it. -/
theorem protected_iff_prompt :
    Document.Created (.scratch "+notes") ∧
      (∀ operation ∈ ([.replace [] ⟨0, 2⟩ true .keyboard, .replace ['d'] (.point 2) true .keyboard,
        .undo (.point 0) false] : List (Operation Unit)), operation.protects = false) ∧
      ∀ front, front <+: [.replace [] ⟨0, 2⟩ true .keyboard,
          .replace ['d'] (.point 2) true .keyboard, .undo (.point 0) false] →
        (Operation.run ([.replaceAll ['>', ' '], .flushHistory] ++ .protect (some 2) :: front)
          (⟨.scratch "+notes", .empty, (), .point 0, true⟩ : Session Unit)).document.content.take
            2 =
          (Operation.run [.replaceAll ['>', ' '], .flushHistory]
            (⟨.scratch "+notes", .empty, (), .point 0, true⟩ : Session Unit)).document.content.take
              2 := by
  have hcreated : Document.Created (.scratch "+notes") := .blank _ _ _ .plain
  have hfixed : ∀ operation ∈ ([.replace [] ⟨0, 2⟩ true .keyboard,
      .replace ['d'] (.point 2) true .keyboard, .undo (.point 0) false] : List (Operation Unit)),
      operation.protects = false := by
    decide
  have hentries : (Operation.run [.replaceAll ['>', ' '], .flushHistory]
      (⟨.scratch "+notes", .empty, (), .point 0, true⟩ : Session Unit)).document.history.entries =
        [] := by
    decide +kernel
  obtain ⟨hiff, hnever⟩ := protected_iff
    (show (⟨.scratch "+notes", .empty, (), .point 0, true⟩ : Session Unit).document.Created from
      hcreated) [.replaceAll ['>', ' '], .flushHistory] _ 2 hfixed
  refine ⟨hcreated, hfixed, hiff.1 (hnever ?_)⟩
  rw [hentries]
  exact nofun

/-- **An undo reaches the protected part.** The edit that put the text in is older than the
protection, and undoing it takes the protected characters back. -/
theorem not_protected :
    ¬∀ (start : Session Unit) (before after : List (Operation Unit)) (count : Nat),
      start.document.Created → count ≤ (Operation.run before start).document.size →
      (∀ operation ∈ after, operation.protects = false) →
      (Operation.run (before ++ .protect (some count) :: after) start).document.content.take count =
        (Operation.run before start).document.content.take count := by
  intro hall
  have hsame := hall ⟨.scratch "+notes", .empty, (), .point 0, true⟩ [.replaceAll ['a', 'b', 'c']]
    [.undo (.point 0) false] 2 (.blank _ _ _ .plain) (by decide +kernel) (by decide)
  exact absurd hsame (by decide +kernel)

end Emend
