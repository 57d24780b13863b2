import Emend.Proofs.Document.Timeline

/-!
# Undoing and redoing

A step of undo or redo replays one entry after the other. What one replayed entry preserves, a whole
step preserves: `travel_last` and, where the range that is put back does not matter,
`travel_induction`. With that, the timeline of a document stays as it is while its cursor moves
along it (`OnTimeline.travel`). Since every step on an editable document moves the cursor, undoing
again and again leads to the base and redoing to the last text.

A replay clamps its range. On a timeline this never changes a range, neither in the entries that
a step replays nor in those behind them: `undoesWithin`, `redoesWithin`.
-/

namespace Emend

namespace Document

variable {doc : Document} {skip : Option SelectionHandle} {entry : HistoryEntry}
  {older later : List HistoryEntry} {holds : HistoryEntry → List Char → Prop}
  {base content last : List Char}

/-! ## One entry -/

/-- The document with its newest entry taken back, and the range of the text put back. -/
def takenBack (doc : Document) (skip : Option SelectionHandle) (entry : HistoryEntry)
    (older : List HistoryEntry) : Document × Selection :=
  { doc with history :=
      { doc.history with applied := older, undone := entry :: doc.history.undone } }.replay
    entry.after entry.before.text skip

/-- The document with the next entry applied again, and the range of the text put back. -/
def appliedAgain (doc : Document) (skip : Option SelectionHandle) (entry : HistoryEntry)
    (later : List HistoryEntry) : Document × Selection :=
  { doc with history :=
      { doc.history with applied := entry :: doc.history.applied, undone := later } }.replay
    entry.before entry.after.text skip

/-- Undo takes back one entry, and more until one begins a step. -/
theorem undoEntries_cons (doc : Document) (skip : Option SelectionHandle)
    (last : Option Selection) (entry : HistoryEntry) (older : List HistoryEntry) :
    doc.undoEntries skip last (entry :: older) =
      if entry.solid then ((doc.takenBack skip entry older).1,
        some (doc.takenBack skip entry older).2)
      else (doc.takenBack skip entry older).1.undoEntries skip
        (some (doc.takenBack skip entry older).2) older :=
  rfl

/-- Redo applies one entry, and more until the next one begins a step. -/
theorem redoEntries_cons (doc : Document) (skip : Option SelectionHandle)
    (last : Option Selection) (entry : HistoryEntry) (later : List HistoryEntry) :
    doc.redoEntries skip last (entry :: later) =
      if last.isSome && entry.solid then (doc, last)
      else (doc.appliedAgain skip entry later).1.redoEntries skip
        (some (doc.appliedAgain skip entry later).2) later :=
  rfl

/-- Taking an entry back moves the cursor before it. -/
@[simp]
theorem history_takenBack : (doc.takenBack skip entry older).1.history =
    { doc.history with applied := older, undone := entry :: doc.history.undone } :=
  history_replay _ _ _ _

/-- Applying it again moves the cursor behind it. -/
@[simp]
theorem history_appliedAgain : (doc.appliedAgain skip entry later).1.history =
    { doc.history with applied := entry :: doc.history.applied, undone := later } :=
  history_replay _ _ _ _

/-- The flag of a document tells whether the entry at the cursor is marked. -/
theorem modified_takenBack : (doc.takenBack skip entry older).1.modified =
    !(doc.takenBack skip entry older).1.history.isSaved := by
  rw [history_takenBack]
  exact modified_replay _ _ _ _

/-- After an entry is applied again, the document counts as modified unless its state is known as
saved. -/
theorem modified_appliedAgain : (doc.appliedAgain skip entry later).1.modified =
    !(doc.appliedAgain skip entry later).1.history.isSaved := by
  rw [history_appliedAgain]
  exact modified_replay _ _ _ _

/-- Taking an entry back does not change whether the document can be edited. -/
@[simp]
theorem editable_takenBack : (doc.takenBack skip entry older).1.editable = doc.editable :=
  editable_replay _ _ _ _

/-- Applying an entry again does not change whether the document can be edited. -/
@[simp]
theorem editable_appliedAgain :
    (doc.appliedAgain skip entry later).1.editable = doc.editable :=
  editable_replay _ _ _ _

/-- Taking an entry back does not change what is protected. -/
@[simp]
theorem protected_takenBack : (doc.takenBack skip entry older).1.protected? = doc.protected? :=
  protected_replay _ _ _ _

/-- Applying an entry again does not change what is protected. -/
@[simp]
theorem protected_appliedAgain :
    (doc.appliedAgain skip entry later).1.protected? = doc.protected? :=
  protected_replay _ _ _ _

/-- The newest entry of a timeline lies within the text. -/
theorem isWithin_back (h : doc.IsValid)
    (hline : Timeline holds doc.history base doc.content last)
    (happlied : doc.history.applied = entry :: older) :
    entry.after.range.IsWithin doc.size := by
  have hstacks := hline.applied
  rw [happlied] at hstacks
  obtain _ | ⟨_, turns, _⟩ := hstacks
  rw [← length_content h]
  exact turns.within_after

/-- The next entry of a timeline lies within the text. -/
theorem isWithin_forth (h : doc.IsValid)
    (hline : Timeline holds doc.history base doc.content last)
    (hundone : doc.history.undone = entry :: later) :
    entry.before.range.IsWithin doc.size := by
  have hleads := hline.undone
  rw [hundone] at hleads
  obtain _ | ⟨turns, _, _⟩ := hleads
  rw [← length_content h]
  exact turns.within

/-- A valid document whose text lies on a timeline. -/
structure OnTimeline (holds : HistoryEntry → List Char → Prop) (base last : List Char)
    (doc : Document) : Prop where
  /-- The buffer is valid. -/
  valid : doc.IsValid
  /-- The text is where the cursor of the history is. -/
  timeline : Timeline holds doc.history base doc.content last

/-- A document without text and without history is on a timeline of its own. -/
theorem onTimeline_blank (directory name : String) (settings : Settings) :
    (blank directory name settings).OnTimeline holds [] [] := by
  refine ⟨isValid_blank directory name settings, ?_⟩
  rw [content_blank]
  exact ⟨.nil, .nil⟩

/-- Nothing but the buffer and the history matters. -/
theorem OnTimeline.congr {other : Document} (h : doc.OnTimeline holds base last)
    (hbuffer : other.buffer = doc.buffer) (hhistory : other.history = doc.history) :
    other.OnTimeline holds base last := by
  obtain ⟨hvalid, hline⟩ := h
  refine ⟨?_, ?_⟩
  · unfold IsValid
    rw [hbuffer]
    exact hvalid
  · rw [content_eq_toList, hbuffer, hhistory]
    exact hline

/-- An accepted replacement stays on a timeline, which then ends with its text. -/
theorem OnTimeline.replaceAccepted {target range : Selection} {text : List Char} {solid : Bool}
    {origin : EditOrigin} (h : doc.OnTimeline holds base last) (skip : Option SelectionHandle)
    (haccept : doc.accept target = .ok range)
    (halone : holds (doc.entryFor text range solid origin) (splice doc.content range text))
    (hlonger : ∀ previous older, doc.history.applied = previous :: older →
      doc.history.continues previous (doc.entryFor text range solid origin) doc.clock = true →
      holds (previous.goOn (doc.entryFor text range solid origin) doc.clock)
        (splice doc.content range text)) :
    (doc.replaceAccepted text range skip solid origin).OnTimeline holds base
      (splice doc.content range text) := by
  obtain ⟨hvalid, hline⟩ := h
  have hrange := isWithin_of_accept haccept
  refine ⟨isValid_replaceAccepted hvalid, ?_⟩
  rw [history_replaceAccepted, content_replaceAccepted hvalid hrange]
  exact hline.add (turns_entryFor hvalid hrange text solid origin) halone hlonger

/-- Taking back the newest entry moves one text back. -/
theorem OnTimeline.back (h : doc.OnTimeline holds base last)
    (happlied : doc.history.applied = entry :: older) :
    (doc.takenBack skip entry older).1.OnTimeline holds base last := by
  obtain ⟨hvalid, hline⟩ := h
  have hwithin := isWithin_back hvalid hline happlied
  have hstacks := hline.applied
  rw [happlied] at hstacks
  obtain _ | ⟨below, turns, here⟩ := hstacks
  refine ⟨isValid_replay (by exact hvalid) _ _ _, ?_⟩
  have hcontent : (doc.takenBack skip entry older).1.content =
      splice doc.content entry.after.range entry.before.text := by
    unfold takenBack
    exact content_replay (by exact hvalid) entry.after entry.before.text skip hwithin
  rw [hcontent, turns.put_back, history_takenBack]
  exact ⟨below, .next turns here hline.undone⟩

/-- Applying the next entry again moves one text forth. -/
theorem OnTimeline.forth (h : doc.OnTimeline holds base last)
    (hundone : doc.history.undone = entry :: later) :
    (doc.appliedAgain skip entry later).1.OnTimeline holds base last := by
  obtain ⟨hvalid, hline⟩ := h
  have hwithin := isWithin_forth hvalid hline hundone
  have hleads := hline.undone
  rw [hundone] at hleads
  obtain _ | ⟨turns, here, beyond⟩ := hleads
  refine ⟨isValid_replay (by exact hvalid) _ _ _, ?_⟩
  have hcontent : (doc.appliedAgain skip entry later).1.content =
      splice doc.content entry.before.range entry.after.text := by
    unfold appliedAgain
    exact content_replay (by exact hvalid) entry.before entry.after.text skip hwithin
  rw [hcontent, ← turns.put, history_appliedAgain]
  exact ⟨hline.applied.push turns here, beyond⟩

/-! ## One step -/

/-- What taking back one entry preserves of a document and of the range that was put back last,
undoing a step preserves. -/
theorem undoEntries_last {P : Document → Option Selection → Prop}
    (back : ∀ doc last entry older, doc.history.applied = entry :: older → P doc last →
      P (doc.takenBack skip entry older).1 (some (doc.takenBack skip entry older).2))
    (doc : Document) (last : Option Selection) (entries : List HistoryEntry)
    (happlied : doc.history.applied = entries) (h : P doc last) :
    P (doc.undoEntries skip last entries).1 (doc.undoEntries skip last entries).2 := by
  induction entries generalizing doc last with
  | nil => exact h
  | cons entry older ih =>
    have hnext := back doc last entry older happlied h
    rw [undoEntries_cons]
    split
    · exact hnext
    · exact ih _ _ (by rw [history_takenBack]) hnext

/-- What applying one entry again preserves of a document and of the range that was put back last,
redoing a step preserves. -/
theorem redoEntries_last {P : Document → Option Selection → Prop}
    (forth : ∀ doc last entry later, doc.history.undone = entry :: later → P doc last →
      P (doc.appliedAgain skip entry later).1 (some (doc.appliedAgain skip entry later).2))
    (doc : Document) (last : Option Selection) (entries : List HistoryEntry)
    (hundone : doc.history.undone = entries) (h : P doc last) :
    P (doc.redoEntries skip last entries).1 (doc.redoEntries skip last entries).2 := by
  induction entries generalizing doc last with
  | nil => exact h
  | cons entry later ih =>
    have hnext := forth doc last entry later hundone h
    rw [redoEntries_cons]
    split
    · exact h
    · exact ih _ _ (by rw [history_appliedAgain]) hnext

/-- **What one replayed entry preserves, a step of undo or redo preserves**, also of the range that
was put back last, which is none at first. -/
theorem travel_last {P : Document → Option Selection → Prop}
    (back : ∀ doc last entry older, doc.history.applied = entry :: older → P doc last →
      P (doc.takenBack skip entry older).1 (some (doc.takenBack skip entry older).2))
    (forth : ∀ doc last entry later, doc.history.undone = entry :: later → P doc last →
      P (doc.appliedAgain skip entry later).1 (some (doc.appliedAgain skip entry later).2))
    (doc : Document) (redo : Bool) (h : P doc none) :
    P (doc.travel redo skip).1 (doc.travel redo skip).2 := by
  unfold travel
  split
  · exact h
  · split
    · exact redoEntries_last forth doc none _ rfl h
    · exact undoEntries_last back doc none _ rfl h

/-- The same for what does not concern the range: undoing a step. -/
theorem undoEntries_induction {P : Document → Prop}
    (back : ∀ doc entry older, doc.history.applied = entry :: older → P doc →
      P (doc.takenBack skip entry older).1)
    (doc : Document) (last : Option Selection) (entries : List HistoryEntry)
    (happlied : doc.history.applied = entries) (h : P doc) :
    P (doc.undoEntries skip last entries).1 :=
  undoEntries_last (P := fun doc _ => P doc) (fun doc _ => back doc) doc last entries happlied h

/-- The same for what does not concern the range: redoing a step. -/
theorem redoEntries_induction {P : Document → Prop}
    (forth : ∀ doc entry later, doc.history.undone = entry :: later → P doc →
      P (doc.appliedAgain skip entry later).1)
    (doc : Document) (last : Option Selection) (entries : List HistoryEntry)
    (hundone : doc.history.undone = entries) (h : P doc) :
    P (doc.redoEntries skip last entries).1 :=
  redoEntries_last (P := fun doc _ => P doc) (fun doc _ => forth doc) doc last entries hundone h

/-- The same for what does not concern the range: either of them. -/
theorem travel_induction {P : Document → Prop}
    (back : ∀ doc entry older, doc.history.applied = entry :: older → P doc →
      P (doc.takenBack skip entry older).1)
    (forth : ∀ doc entry later, doc.history.undone = entry :: later → P doc →
      P (doc.appliedAgain skip entry later).1)
    (doc : Document) (redo : Bool) (h : P doc) : P (doc.travel redo skip).1 :=
  travel_last (P := fun doc _ => P doc) (fun doc _ => back doc) (fun doc _ => forth doc) doc redo h

/-- A step for a registered selection ends with the selection set. -/
theorem undoAt_of_travel {P : Document → Prop} {handle : SelectionHandle} {redo : Bool}
    (hselections : ∀ doc selections, P doc → P { doc with selections })
    (h : P (doc.travel redo (some handle)).1) : P (doc.undoAt handle redo) := by
  unfold undoAt
  split
  · next after last heq =>
    rw [heq] at h
    exact hselections _ _ h
  · next after heq =>
    rw [heq] at h
    exact h

/-- A step of undo or redo stays on the timeline. -/
theorem OnTimeline.travel (h : doc.OnTimeline holds base last) (redo : Bool)
    (skip : Option SelectionHandle) :
    (doc.travel redo skip).1.OnTimeline holds base last :=
  travel_induction (fun _ _ _ happlied h => h.back happlied)
    (fun _ _ _ hundone h => h.forth hundone) doc redo h

/-- What a document has outside its history, and replaying an entry leaves as it is, a step of undo
or redo leaves as it is. -/
theorem travel_same {α : Type} {f : Document → α}
    (hhistory : ∀ doc history, f { doc with history } = f doc)
    (hreplay : ∀ doc passage text, f (doc.replay passage text skip).1 = f doc)
    (doc : Document) (redo : Bool) : f (doc.travel redo skip).1 = f doc :=
  travel_induction (P := fun other => f other = f doc)
    (fun other _ _ _ h => (hreplay _ _ _).trans ((hhistory other _).trans h))
    (fun other _ _ _ h => (hreplay _ _ _).trans ((hhistory other _).trans h)) doc redo rfl

/-- A step through the history does not change whether the document can be edited. -/
@[simp]
theorem editable_travel (doc : Document) (redo : Bool) (skip : Option SelectionHandle) :
    (doc.travel redo skip).1.editable = doc.editable :=
  travel_same (fun _ _ => rfl) (fun doc passage text => editable_replay doc passage text skip)
    doc redo

/-- A step through the history does not change what is protected. -/
@[simp]
theorem protected_travel (doc : Document) (redo : Bool) (skip : Option SelectionHandle) :
    (doc.travel redo skip).1.protected? = doc.protected? :=
  travel_same (fun _ _ => rfl) (fun doc passage text => protected_replay doc passage text skip)
    doc redo

/-- A step through the history keeps a document valid. -/
theorem isValid_travel (h : doc.IsValid) (redo : Bool) (skip : Option SelectionHandle) :
    (doc.travel redo skip).1.IsValid :=
  travel_induction (fun _ _ _ _ h => isValid_replay (by exact h) _ _ _)
    (fun _ _ _ _ h => isValid_replay (by exact h) _ _ _) doc redo h

/-- Undoing on an editable document takes back an entry as long as there is one. -/
theorem length_applied_travel_lt (skip : Option SelectionHandle) (hedit : doc.editable = true)
    (hcan : doc.history.canUndo = true) :
    (doc.travel false skip).1.history.applied.length < doc.history.applied.length := by
  unfold Document.travel
  rw [hedit]
  cases happlied : doc.history.applied with
  | nil => simp [History.canUndo, happlied] at hcan
  | cons entry older =>
    have hfirst : (doc.takenBack skip entry older).1.history.applied = older := by
      rw [history_takenBack]
    -- The first entry goes whatever it is, and no entry comes back after that.
    have hbound : (doc.undoEntries skip none (entry :: older)).1.history.applied.length ≤
        older.length := by
      rw [undoEntries_cons]
      split
      · exact Nat.le_of_eq (congrArg List.length hfirst)
      · apply undoEntries_induction (P := fun other => other.history.applied.length ≤ older.length)
        · intro other newest rest hother hle
          rw [hother, List.length_cons] at hle
          rw [history_takenBack]
          exact Nat.le_of_succ_le hle
        · exact hfirst
        · exact Nat.le_of_eq (congrArg List.length hfirst)
    exact Nat.lt_succ_of_le hbound

/-- Redoing on an editable document applies an entry again as long as there is one. -/
theorem length_undone_travel_lt (skip : Option SelectionHandle) (hedit : doc.editable = true)
    (hcan : doc.history.canRedo = true) :
    (doc.travel true skip).1.history.undone.length < doc.history.undone.length := by
  unfold Document.travel
  rw [hedit]
  cases hundone : doc.history.undone with
  | nil => simp [History.canRedo, hundone] at hcan
  | cons entry later =>
    have hfirst : (doc.appliedAgain skip entry later).1.history.undone = later := by
      rw [history_appliedAgain]
    -- The first entry goes even if it begins a step, since nothing was applied before it.
    have hbound : (doc.redoEntries skip none (entry :: later)).1.history.undone.length ≤
        later.length := by
      rw [redoEntries_cons]
      apply redoEntries_induction (P := fun other => other.history.undone.length ≤ later.length)
      · intro other next rest hother hle
        rw [hother, List.length_cons] at hle
        rw [history_appliedAgain]
        exact Nat.le_of_succ_le hle
      · exact hfirst
      · exact Nat.le_of_eq (congrArg List.length hfirst)
    exact Nat.lt_succ_of_le hbound

/-- Undoing on an editable document ends with a replayed entry, so its flag follows the history. -/
theorem modified_travel (redo : Bool) (skip : Option SelectionHandle) (hedit : doc.editable = true)
    (hcan : (if redo then doc.history.canRedo else doc.history.canUndo) = true) :
    (doc.travel redo skip).1.modified = !(doc.travel redo skip).1.history.isSaved := by
  unfold Document.travel
  rw [hedit]
  cases redo with
  | true =>
    cases hundone : doc.history.undone with
    | nil => simp [History.canRedo, hundone] at hcan
    | cons entry later =>
      show (doc.redoEntries skip none (entry :: later)).1.modified =
        !(doc.redoEntries skip none (entry :: later)).1.history.isSaved
      rw [redoEntries_cons]
      exact redoEntries_induction (P := fun other => other.modified = !other.history.isSaved)
        (fun _ _ _ _ _ => modified_appliedAgain) _ _ _ (by rw [history_appliedAgain])
        modified_appliedAgain
  | false =>
    cases happlied : doc.history.applied with
    | nil => simp [History.canUndo, happlied] at hcan
    | cons entry older =>
      show (doc.undoEntries skip none (entry :: older)).1.modified =
        !(doc.undoEntries skip none (entry :: older)).1.history.isSaved
      rw [undoEntries_cons]
      split
      · exact modified_takenBack
      · exact undoEntries_induction (P := fun other => other.modified = !other.history.isSaved)
          (fun _ _ _ _ _ => modified_takenBack) _ _ _ (by rw [history_takenBack])
          modified_takenBack

/-- No entry is lost or changed by undo and redo, nor is the mark of the state without entries. -/
theorem entries_travel (doc : Document) (redo : Bool) (skip : Option SelectionHandle) :
    (doc.travel redo skip).1.history.entries = doc.history.entries ∧
      (doc.travel redo skip).1.history.blankIsSaved = doc.history.blankIsSaved := by
  refine travel_induction (P := fun other => other.history.entries = doc.history.entries ∧
    other.history.blankIsSaved = doc.history.blankIsSaved) ?_ ?_ doc redo ⟨rfl, rfl⟩
  · -- The entry moves from the end of the applied ones to the beginning of the undone ones.
    rintro other entry older happlied ⟨hentries, hblank⟩
    rw [history_takenBack]
    refine ⟨?_, hblank⟩
    rw [← hentries, History.entries, History.entries, happlied, List.reverse_cons,
      List.append_assoc]
    rfl
  · -- And back.
    rintro other entry later hundone ⟨hentries, hblank⟩
    rw [history_appliedAgain]
    refine ⟨?_, hblank⟩
    rw [← hentries, History.entries, History.entries, hundone, List.reverse_cons,
      List.append_assoc]
    rfl

/-! ## Undoing and then redoing -/

/-- After undoing, no undone entry but the first begins a step. -/
theorem solid_tail_undoEntries (doc : Document) (last : Option Selection)
    (entries : List HistoryEntry) (hloose : ∀ entry ∈ doc.history.undone, entry.solid = false) :
    ∀ entry ∈ (doc.undoEntries skip last entries).1.history.undone.tail,
      entry.solid = false := by
  induction entries generalizing doc last with
  | nil => exact fun entry hmem => hloose entry (List.mem_of_mem_tail hmem)
  | cons first older ih =>
    have hundone : (doc.takenBack skip first older).1.history.undone =
        first :: doc.history.undone := by
      rw [history_takenBack]
    rw [undoEntries_cons]
    split
    · -- An entry that begins a step ends the undoing, and is the first of the undone ones.
      rw [hundone]
      exact hloose
    · next hsolid =>
      apply ih
      intro entry hmem
      rw [hundone] at hmem
      rcases List.mem_cons.1 hmem with rfl | hmem
      · exact Bool.eq_false_iff.2 hsolid
      · exact hloose entry hmem

/-- Redoing applies all entries if none of them begins a step. -/
theorem undone_redoEntries (doc : Document) (last : Option Selection)
    (entries : List HistoryEntry) (hundone : doc.history.undone = entries)
    (hloose : ∀ entry ∈ entries, entry.solid = false) :
    (doc.redoEntries skip last entries).1.history.undone = [] := by
  induction entries generalizing doc last with
  | nil => exact hundone
  | cons entry later ih =>
    have hnext : (doc.appliedAgain skip entry later).1.history.undone = later := by
      rw [history_appliedAgain]
    rw [redoEntries_cons, hloose entry List.mem_cons_self, Bool.and_false]
    exact ih _ _ hnext fun other hmem => hloose other (List.mem_cons_of_mem _ hmem)

/-- Redoing goes back to where undoing started from, if nothing was undone before. -/
theorem undone_travel_travel (hedit : doc.editable = true) (hnone : doc.history.undone = []) :
    ((doc.travel false none).1.travel true none).1.history.undone = [] := by
  have hloose : ∀ entry ∈ (doc.travel false none).1.history.undone.tail, entry.solid = false := by
    unfold Document.travel
    rw [hedit]
    apply solid_tail_undoEntries
    rw [hnone]
    exact fun entry hmem => by cases hmem
  have hedit' := (editable_travel doc false none).trans hedit
  -- The first undone entry is applied whatever it is, and no later one stops the redoing.
  generalize (doc.travel false none).1 = other at hloose hedit'
  unfold Document.travel
  rw [hedit']
  cases hundone : other.history.undone with
  | nil => exact hundone
  | cons entry later =>
    rw [hundone] at hloose
    exact undone_redoEntries (other.appliedAgain none entry later).1
      (some (other.appliedAgain none entry later).2) later (by rw [history_appliedAgain]) hloose

/-- **Undoing and redoing leads back.** The text is the same, and the document counts as unmodified
if the newest entry is marked. -/
theorem OnTimeline.undo_redo (h : doc.OnTimeline holds base last) (hedit : doc.editable = true)
    (hnone : doc.history.undone = []) (hcan : doc.history.canUndo = true) :
    ((doc.travel false none).1.travel true none).1.content = doc.content ∧
      ((doc.travel false none).1.travel true none).1.modified = !doc.history.isSaved := by
  have hundone := undone_travel_travel hedit hnone
  have hback := (h.travel false none).travel true none
  have hedit' := (editable_travel doc false none).trans hedit
  obtain ⟨hentries, hblank⟩ := entries_travel doc false none
  obtain ⟨hentries', hblank'⟩ := entries_travel (doc.travel false none).1 true none
  -- All entries are still there and fewer are applied, so there is one to redo.
  have hredo : (doc.travel false none).1.history.canRedo = true := by
    have hlt := length_applied_travel_lt none hedit hcan
    have hlength := congrArg List.length hentries
    rw [History.canRedo, Bool.not_eq_eq_eq_not, Bool.not_true, List.isEmpty_eq_false_iff]
    intro hempty
    simp only [History.entries, List.length_append, List.length_reverse, hempty, hnone,
      List.length_nil] at hlength
    omega
  -- All entries are still there and none is undone, so the applied ones are the same again.
  have happlied : ((doc.travel false none).1.travel true none).1.history.applied =
      doc.history.applied := by
    have hall := hentries'.trans hentries
    rw [History.entries, History.entries, hundone, hnone, List.append_nil, List.append_nil] at hall
    exact List.reverse_inj.1 hall
  constructor
  · -- Both texts are the last of the one timeline.
    have hthere := hback.timeline.content_eq_last (by rw [History.canRedo, hundone]; rfl)
    have hhere := h.timeline.content_eq_last (by rw [History.canRedo, hnone]; rfl)
    rw [hthere, hhere]
  · have hflag := modified_travel true none hedit' hredo
    rw [hflag, History.isSaved, History.isSaved, happlied, hblank'.trans hblank]

/-! ## Many steps -/

/-- A document and its caller's selection after undoing (or redoing) a number of steps. -/
def undoTimes (redo : Bool) : Nat → Document × Selection → Document × Selection
  | 0, state => state
  | count + 1, (doc, sel) => undoTimes redo count (doc.undo sel redo)

/-- Any number of steps stays on the timeline. -/
theorem OnTimeline.undoTimes (h : doc.OnTimeline holds base last) (sel : Selection) (redo : Bool)
    (count : Nat) : (undoTimes redo count (doc, sel)).1.OnTimeline holds base last := by
  induction count generalizing doc sel with
  | zero => exact h
  | succ count ih => exact ih (h.travel redo none) _

/-- Any number of steps does not change whether the document can be edited. -/
@[simp]
theorem editable_undoTimes (doc : Document) (sel : Selection) (redo : Bool) (count : Nat) :
    (undoTimes redo count (doc, sel)).1.editable = doc.editable := by
  induction count generalizing doc sel with
  | zero => rfl
  | succ count ih => exact (ih _ _).trans (editable_travel doc redo none)

/-- Undoing again and again comes to an end, and so does redoing. -/
theorem exists_undoTimes_end (hedit : doc.editable = true) (sel : Selection) (redo : Bool) :
    ∃ count, (if redo then (undoTimes redo count (doc, sel)).1.history.canRedo
      else (undoTimes redo count (doc, sel)).1.history.canUndo) = false := by
  -- By the number of entries that are left on the side that the steps go to.
  induction hlength : (if redo then doc.history.undone else doc.history.applied).length
    using Nat.strongRecOn generalizing doc sel with
  | ind length ih =>
    cases hcan : (if redo then doc.history.canRedo else doc.history.canUndo) with
    | false => exact ⟨0, hcan⟩
    | true =>
      have hlt : (if redo then (doc.travel redo none).1.history.undone
          else (doc.travel redo none).1.history.applied).length < length := by
        rw [← hlength]
        cases redo with
        | false => exact length_applied_travel_lt none hedit hcan
        | true => exact length_undone_travel_lt none hedit hcan
      obtain ⟨count, hcount⟩ := ih _ hlt ((editable_travel doc redo none).trans hedit)
        ((doc.travel redo none).2.getD sel) rfl
      exact ⟨count + 1, hcount⟩

/-! ## The ranges that are replayed -/

/-- Clamping leaves every range alone that taking back these entries, one after the other,
replaces. -/
def UndoesWithin (skip : Option SelectionHandle) : Document → List HistoryEntry → Prop
  | _, [] => True
  | doc, entry :: older =>
    entry.after.range.clamp doc.size = entry.after.range ∧
      UndoesWithin skip (doc.takenBack skip entry older).1 older

/-- Clamping leaves every range alone that applying these entries again, one after the other,
replaces. -/
def RedoesWithin (skip : Option SelectionHandle) : Document → List HistoryEntry → Prop
  | _, [] => True
  | doc, entry :: later =>
    entry.before.range.clamp doc.size = entry.before.range ∧
      RedoesWithin skip (doc.appliedAgain skip entry later).1 later

/-- On a timeline undo replaces ranges that lie within the text. -/
theorem OnTimeline.undoesWithin (skip : Option SelectionHandle)
    (h : doc.OnTimeline holds base last) : UndoesWithin skip doc doc.history.applied := by
  induction happlied : doc.history.applied generalizing doc with
  | nil => trivial
  | cons entry older ih =>
    have hwithin := isWithin_back h.valid h.timeline happlied
    exact ⟨Selection.clamp_of_isWithin hwithin,
      ih (h.back happlied) (by rw [history_takenBack])⟩

/-- On a timeline redo replaces ranges that lie within the text. -/
theorem OnTimeline.redoesWithin (skip : Option SelectionHandle)
    (h : doc.OnTimeline holds base last) : RedoesWithin skip doc doc.history.undone := by
  induction hundone : doc.history.undone generalizing doc with
  | nil => trivial
  | cons entry later ih =>
    have hwithin := isWithin_forth h.valid h.timeline hundone
    exact ⟨Selection.clamp_of_isWithin hwithin,
      ih (h.forth hundone) (by rw [history_appliedAgain])⟩

end Document

end Emend
