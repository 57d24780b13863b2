import Emend.Proofs.Session.Invariant
import Emend.Proofs.Session.OneStep
import Emend.Proofs.Session.Registered

/-!
# Undo and redo are inverse to each other

Undoing stops behind an entry that begins a step, and redoing stops before one. They lead back to
where the other started from, provided that the cursor of the history lies between two steps: the
next entry to redo begins a step, or nothing is applied (`History.AtBoundary`). Every operation
keeps the cursor there. Recording an edit drops what could be redone, undoing ends with an entry
that begins a step or with no entry applied, and redoing ends before such an entry or with none
left.

A step is seen as a list of entries (`History.IsStep`), which undoing takes from the applied entries
to the undone ones and redoing takes back (`Document.history_travel`). The text goes with the
history along one timeline, and what the last replayed entry put back is what the caller's selection
covers (`Document.OnTimeline.travel_range`). `undo_inverse` puts this together.
-/

namespace Emend

variable {σ : Type} {base last : List Char}

namespace History

variable {history : History} {entries step below rest : List HistoryEntry}

/-! ## Steps -/

/-- The entries, the newest first, are one step on top of those below: none of them begins a step
but the oldest, and that does unless there is nothing below. -/
inductive IsStep (below : List HistoryEntry) : List HistoryEntry → Prop where
  /-- The oldest entry. -/
  | oldest {entry : HistoryEntry} (begins : entry.solid = true ∨ below = []) : IsStep below [entry]
  /-- An entry that goes on with the step. -/
  | newer {entry : HistoryEntry} {step : List HistoryEntry} (loose : entry.solid = false)
    (older : IsStep below step) : IsStep below (entry :: step)

/-- The entries, the next first, begin with a step, or there are none. -/
def Begins : List HistoryEntry → Prop
  | [] => True
  | entry :: _ => entry.solid = true

/-- The entries that redoing applies again, the next first. -/
def nextStep : List HistoryEntry → List HistoryEntry
  | [] => []
  | entry :: later => entry :: later.takeWhile (!·.solid)

/-- The undone entries that are left when a step is redone. -/
def stepBeyond : List HistoryEntry → List HistoryEntry
  | [] => []
  | _ :: later => later.dropWhile (!·.solid)

/-- The newest step and what lies below it are all applied entries. -/
@[simp]
theorem topStep_append_stepBelow (entries : List HistoryEntry) :
    topStep entries ++ stepBelow entries = entries := by
  induction entries with
  | nil => rfl
  | cons entry older ih =>
    rw [topStep, stepBelow]
    split
    · rfl
    · rw [List.cons_append, ih]

/-- The next step to redo and what lies beyond it are all undone entries. -/
@[simp]
theorem nextStep_append_stepBeyond (entries : List HistoryEntry) :
    nextStep entries ++ stepBeyond entries = entries := by
  cases entries with
  | nil => rfl
  | cons entry later => exact congrArg (entry :: ·) List.takeWhile_append_dropWhile

/-- Undoing takes back a step. -/
theorem isStep_topStep (h : entries ≠ []) : IsStep (stepBelow entries) (topStep entries) := by
  induction entries with
  | nil => exact absurd rfl h
  | cons entry older ih =>
    rw [topStep, stepBelow]
    split
    · next hsolid => exact .oldest (.inl hsolid)
    · next hsolid =>
      cases older with
      | nil => exact .oldest (.inr rfl)
      | cons next others =>
        exact .newer (Bool.eq_false_iff.2 hsolid) (ih (List.cons_ne_nil next others))

/-- Undoing takes back the step that lies on top. -/
theorem IsStep.topStep (h : IsStep below step) :
    History.topStep (step ++ below) = step ∧ stepBelow (step ++ below) = below := by
  induction h with
  | oldest begins =>
    rw [List.singleton_append, History.topStep, stepBelow]
    obtain hsolid | rfl := begins
    · rw [if_pos hsolid, if_pos hsolid]
      exact ⟨rfl, rfl⟩
    · split <;> exact ⟨rfl, rfl⟩
  | newer loose older ih =>
    obtain ⟨htop, hbelow⟩ := ih
    rw [List.cons_append, History.topStep, stepBelow, loose, htop, hbelow]
    exact ⟨rfl, rfl⟩

/-- Redoing a step that was taken back applies it again, and goes on as long as no step begins. -/
theorem IsStep.nextStep_reverse (h : IsStep below step) (rest : List HistoryEntry) :
    nextStep (step.reverse ++ rest) = step.reverse ++ rest.takeWhile (!·.solid) ∧
      stepBeyond (step.reverse ++ rest) = rest.dropWhile (!·.solid) := by
  induction h generalizing rest with
  | oldest begins => exact ⟨rfl, rfl⟩
  | @newer entry step loose older ih =>
    obtain ⟨hnext, hbeyond⟩ := ih (entry :: rest)
    rw [List.takeWhile_cons, loose, Bool.not_false, if_pos rfl] at hnext
    rw [List.dropWhile_cons, loose, Bool.not_false, if_pos rfl] at hbeyond
    rw [List.reverse_cons, List.append_assoc, List.append_assoc, List.singleton_append,
      List.singleton_append]
    exact ⟨hnext, hbeyond⟩

/-- Redoing stops where a step begins. -/
theorem IsStep.nextStep (h : IsStep below step) (hbegins : Begins rest) :
    History.nextStep (step.reverse ++ rest) = step.reverse ∧
      stepBeyond (step.reverse ++ rest) = rest := by
  obtain ⟨hnext, hbeyond⟩ := h.nextStep_reverse rest
  rw [hnext, hbeyond]
  cases rest with
  | nil => exact ⟨List.append_nil _, rfl⟩
  | cons entry later =>
    have hsolid : entry.solid = true := hbegins
    rw [List.takeWhile_cons, List.dropWhile_cons, hsolid, Bool.not_true,
      if_neg Bool.false_ne_true, if_neg Bool.false_ne_true, List.append_nil]
    exact ⟨rfl, rfl⟩

/-- What goes on with a step is part of it. -/
theorem IsStep.prepend {loose : List HistoryEntry} (h : IsStep below step)
    (hloose : ∀ entry ∈ loose, entry.solid = false) : IsStep below (loose.reverse ++ step) := by
  induction loose generalizing step with
  | nil => exact h
  | cons entry later ih =>
    rw [List.reverse_cons, List.append_assoc]
    exact ih (.newer (hloose entry List.mem_cons_self) h) fun other hmem =>
      hloose other (List.mem_cons_of_mem _ hmem)

/-- Redoing applies a step, if the cursor lies between two steps. -/
theorem isStep_nextStep (h : entries ≠ []) (hboundary : below = [] ∨ Begins entries) :
    IsStep below (History.nextStep entries).reverse := by
  obtain ⟨entry, later, rfl⟩ := List.exists_cons_of_ne_nil h
  have holdest : IsStep below [entry] := .oldest hboundary.symm
  rw [History.nextStep, List.reverse_cons]
  refine holdest.prepend fun other hmem => ?_
  have hgoes := List.mem_takeWhile_imp hmem
  rwa [Bool.not_eq_eq_eq_not, Bool.not_true] at hgoes

/-- A step that was taken back begins what can be redone. -/
theorem IsStep.begins (h : IsStep below step) (rest : List HistoryEntry) :
    below = [] ∨ Begins (step.reverse ++ rest) := by
  induction h generalizing rest with
  | oldest begins => exact begins.symm
  | @newer entry step loose older ih =>
    rw [List.reverse_cons, List.append_assoc]
    exact ih (entry :: rest)

/-- From the first entry on that begins a step, a step begins. -/
theorem begins_dropWhile (entries : List HistoryEntry) :
    Begins (entries.dropWhile (!·.solid)) := by
  induction entries with
  | nil => trivial
  | cons entry later ih =>
    rw [List.dropWhile_cons]
    split
    · exact ih
    · next hstops =>
      rw [Bool.not_eq_true, Bool.not_eq_eq_eq_not, Bool.not_false] at hstops
      exact hstops

/-- Beyond the next step to redo another one begins, or there is none. -/
theorem begins_stepBeyond (entries : List HistoryEntry) : Begins (stepBeyond entries) := by
  cases entries with
  | nil => trivial
  | cons entry later => exact begins_dropWhile later

/-! ## The cursor -/

/-- The entries that a step of undo or redo replays, in the order in which it does. -/
def replayed (history : History) (redo : Bool) : List HistoryEntry :=
  if redo then nextStep history.undone else topStep history.applied

/-- The history after a step of undo or redo. -/
def travel (history : History) (redo : Bool) : History :=
  if redo then
    { history with
      applied := (nextStep history.undone).reverse ++ history.applied
      undone := stepBeyond history.undone }
  else
    { history with
      applied := stepBelow history.applied
      undone := (topStep history.applied).reverse ++ history.undone }

/-- The cursor lies between two steps: what can be redone begins with a step, or nothing is
applied. -/
def AtBoundary (history : History) : Prop :=
  history.applied = [] ∨ Begins history.undone

/-- A step ends between two steps. -/
theorem atBoundary_travel (history : History) (redo : Bool) :
    (history.travel redo).AtBoundary := by
  cases redo with
  | true => exact .inr (begins_stepBeyond history.undone)
  | false =>
    by_cases happlied : history.applied = []
    · refine .inl ?_
      show stepBelow history.applied = []
      rw [happlied]
      rfl
    · exact (isStep_topStep happlied).begins history.undone

/-- If redo replays something, there is something undone. -/
theorem undone_ne_nil (hcan : history.replayed true ≠ []) : history.undone ≠ [] := by
  intro hnone
  exact hcan (by rw [replayed, if_pos rfl, hnone]; rfl)

/-- If undo replays something, there is something applied. -/
theorem applied_ne_nil (hcan : history.replayed false ≠ []) : history.applied ≠ [] := by
  intro hnone
  exact hcan (by rw [replayed, if_neg Bool.false_ne_true, hnone]; rfl)

/-- As long as there are entries to undo or redo, a step replays some. -/
theorem replayed_ne_nil {redo : Bool}
    (hcan : (if redo then history.canRedo else history.canUndo) = true) :
    history.replayed redo ≠ [] := by
  cases redo with
  | true =>
    have hundone : history.undone ≠ [] := by
      intro hnone
      simp only [canRedo, hnone, List.isEmpty_nil, Bool.not_true, if_true] at hcan
      exact Bool.false_ne_true hcan
    obtain ⟨entry, later, hcons⟩ := List.exists_cons_of_ne_nil hundone
    rw [replayed, if_pos rfl, hcons]
    exact List.cons_ne_nil _ _
  | false =>
    have happlied : history.applied ≠ [] := by
      intro hnone
      simp only [canUndo, hnone, List.isEmpty_nil, Bool.not_true, Bool.false_eq_true,
        if_false] at hcan
    obtain ⟨entry, older, hcons⟩ := List.exists_cons_of_ne_nil happlied
    rw [replayed, if_neg Bool.false_ne_true, hcons, topStep]
    split <;> exact List.cons_ne_nil _ _

/-- At a boundary, the way back replays the entries of the way forth in reverse order. -/
theorem AtBoundary.replayed_travel (h : history.AtBoundary) {redo : Bool}
    (hcan : history.replayed redo ≠ []) :
    (history.travel redo).replayed (!redo) = (history.replayed redo).reverse := by
  cases redo with
  | true => exact (isStep_nextStep (undone_ne_nil hcan) h).topStep.1
  | false =>
    have happlied := applied_ne_nil hcan
    exact ((isStep_topStep happlied).nextStep (h.resolve_left happlied)).1

/-- **A step back and a step forth, or the other way, are inverse at a boundary.** -/
theorem AtBoundary.travel_travel (h : history.AtBoundary) {redo : Bool}
    (hcan : history.replayed redo ≠ []) : (history.travel redo).travel (!redo) = history := by
  cases redo with
  | true =>
    obtain ⟨htop, hbelow⟩ := (isStep_nextStep (undone_ne_nil hcan) h).topStep
    show History.mk (stepBelow ((History.nextStep history.undone).reverse ++ history.applied))
      ((History.topStep ((History.nextStep history.undone).reverse ++ history.applied)).reverse ++
        stepBeyond history.undone) _ _ = history
    rw [htop, hbelow, List.reverse_reverse, nextStep_append_stepBeyond]
    rfl
  | false =>
    have happlied := applied_ne_nil hcan
    obtain ⟨hnext, hbeyond⟩ := (isStep_topStep happlied).nextStep (h.resolve_left happlied)
    show History.mk ((History.nextStep ((History.topStep history.applied).reverse ++
        history.undone)).reverse ++ stepBelow history.applied)
      (stepBeyond ((History.topStep history.applied).reverse ++ history.undone)) _ _ = history
    rw [hnext, hbeyond, List.reverse_reverse, topStep_append_stepBelow]
    rfl

/-- The marks of a saved document do not matter. -/
theorem AtBoundary.markSaved (h : history.AtBoundary) : history.markSaved.AtBoundary := by
  unfold History.markSaved
  cases happlied : history.applied with
  | nil => exact .inl rfl
  | cons newest older =>
    refine .inr ?_
    have hbegins := h.resolve_left (by rw [happlied]; exact List.cons_ne_nil newest older)
    cases hundone : history.undone with
    | nil => trivial
    | cons entry later =>
      rw [hundone] at hbegins
      exact hbegins

end History

/-- What an entry puts back when it is redone or undone. -/
def HistoryEntry.putBack (entry : HistoryEntry) (redo : Bool) : Passage :=
  if redo then entry.after else entry.before

namespace Document

variable {doc there again : Document} {redo : Bool} {skip : Option SelectionHandle}
  {holds : HistoryEntry → List Char → Prop}

/-! ## Documents -/

/-- Once an entry has been applied again, those follow that begin no step. -/
theorem history_redoEntries (doc : Document) (last : Selection) (entries : List HistoryEntry)
    (hundone : doc.history.undone = entries) :
    (doc.redoEntries skip (some last) entries).1.history =
      { doc.history with
        applied := (entries.takeWhile (!·.solid)).reverse ++ doc.history.applied
        undone := entries.dropWhile (!·.solid) } := by
  induction entries generalizing doc last with
  | nil =>
    show doc.history = History.mk doc.history.applied [] _ _
    rw [← hundone]
  | cons entry later ih =>
    rw [redoEntries_cons, List.takeWhile_cons, List.dropWhile_cons]
    cases hsolid : entry.solid with
    | true =>
      show doc.history = History.mk doc.history.applied (entry :: later) _ _
      rw [← hundone]
    | false =>
      show ((doc.appliedAgain skip entry later).1.redoEntries skip _ later).1.history =
        History.mk ((entry :: later.takeWhile (!·.solid)).reverse ++ doc.history.applied)
          (later.dropWhile (!·.solid)) _ _
      rw [ih (doc.appliedAgain skip entry later).1 _ (by rw [history_appliedAgain]),
        history_appliedAgain, List.reverse_cons, List.append_assoc]
      rfl

/-- What a step of undo or redo makes of the history. -/
theorem history_travel (hedit : doc.editable = true) (redo : Bool)
    (skip : Option SelectionHandle) :
    (doc.travel redo skip).1.history = doc.history.travel redo := by
  unfold Document.travel
  rw [hedit]
  cases redo with
  | false => exact history_undoEntries doc none doc.history.applied rfl
  | true =>
    show (doc.redoEntries skip none doc.history.undone).1.history = History.mk
      ((History.nextStep doc.history.undone).reverse ++ doc.history.applied)
      (History.stepBeyond doc.history.undone) _ _
    cases hundone : doc.history.undone with
    | nil =>
      show doc.history = History.mk doc.history.applied [] _ _
      rw [← hundone]
    | cons entry later =>
      -- The first entry is applied whatever it is.
      show ((doc.appliedAgain skip entry later).1.redoEntries skip _ later).1.history =
        History.mk ((entry :: later.takeWhile (!·.solid)).reverse ++ doc.history.applied)
          (later.dropWhile (!·.solid)) _ _
      rw [history_redoEntries (doc.appliedAgain skip entry later).1 _ later
        (by rw [history_appliedAgain]), history_appliedAgain, List.reverse_cons,
        List.append_assoc]
      rfl

/-! ## What is put back -/

/-- The range is where the text lies that an entry has put back. -/
structure HoldsPutBack (doc : Document) (redo : Bool) (entry : HistoryEntry) (range : Selection) :
    Prop where
  /-- It is the range of the passage. -/
  range_eq : range = (entry.putBack redo).range
  /-- It lies within the text. -/
  within : range.IsWithin doc.size
  /-- The text there is that of the passage. -/
  text : doc.text range = (entry.putBack redo).text

/-- On a timeline the next entry can be found with what it removes. -/
theorem OnTimeline.holds_removed {entry : HistoryEntry} {later : List HistoryEntry}
    (h : doc.OnTimeline holds base last) (hundone : doc.history.undone = entry :: later) :
    doc.HoldsPutBack false entry entry.before.range := by
  have hwithin := isWithin_forth h.valid h.timeline hundone
  have hleads := h.timeline.undone
  rw [hundone] at hleads
  obtain _ | ⟨turns, _, _⟩ := hleads
  exact ⟨rfl, hwithin, (text_of_isWithin h.valid hwithin).trans turns.removed⟩

/-- And the newest entry with what it put there. -/
theorem OnTimeline.holds_inserted {entry : HistoryEntry} {older : List HistoryEntry}
    (h : doc.OnTimeline holds base last) (happlied : doc.history.applied = entry :: older) :
    doc.HoldsPutBack true entry entry.after.range := by
  have hwithin := isWithin_back h.valid h.timeline happlied
  have hstacks := h.timeline.applied
  rw [happlied] at hstacks
  obtain _ | ⟨_, turns, _⟩ := hstacks
  exact ⟨rfl, hwithin, (text_of_isWithin h.valid hwithin).trans turns.inserted⟩

/-- The range that taking back an entry gives is that of what it had removed. -/
theorem OnTimeline.range_takenBack {entry : HistoryEntry} {older : List HistoryEntry}
    (h : doc.OnTimeline holds base last) (happlied : doc.history.applied = entry :: older) :
    (doc.takenBack skip entry older).2 = entry.before.range := by
  have hwithin := isWithin_back h.valid h.timeline happlied
  have hstacks := h.timeline.applied
  rw [happlied] at hstacks
  obtain _ | ⟨_, turns, _⟩ := hstacks
  have hlength := length_sliceOf turns.within
  have hle := turns.within.1
  rw [turns.removed] at hlength
  show Selection.mk (entry.after.range.clamp doc.size).start
    ((entry.after.range.clamp doc.size).start + entry.before.text.length) = _
  rw [Selection.clamp_of_isWithin hwithin, hlength]
  simp only [Passage.range, Selection.length, turns.aligned] at hle ⊢
  rw [Nat.add_sub_cancel' hle]

/-- The range that applying an entry again gives is that of what it puts there. -/
theorem OnTimeline.range_appliedAgain {entry : HistoryEntry} {later : List HistoryEntry}
    (h : doc.OnTimeline holds base last) (hundone : doc.history.undone = entry :: later) :
    (doc.appliedAgain skip entry later).2 = entry.after.range := by
  have hwithin := isWithin_forth h.valid h.timeline hundone
  have hleads := h.timeline.undone
  rw [hundone] at hleads
  obtain _ | ⟨turns, _, _⟩ := hleads
  show Selection.mk (entry.before.range.clamp doc.size).start
    ((entry.before.range.clamp doc.size).start + entry.after.text.length) = _
  rw [Selection.clamp_of_isWithin hwithin, turns.range_after]

/-- What holds after every replayed entry: the document is on its timeline, and the entry that was
moved last is at the cursor, with the range of what it put back. -/
def AfterReplay (holds : HistoryEntry → List Char → Prop) (base last : List Char) (redo : Bool)
    (doc : Document) (place : Option Selection) : Prop :=
  doc.OnTimeline holds base last ∧ ∃ entry range, place = some range ∧
    (if redo then doc.history.applied else doc.history.undone).head? = some entry ∧
    doc.HoldsPutBack redo entry range

/-- Taking an entry back selects what it has put back. -/
theorem OnTimeline.afterReplay_back {entry : HistoryEntry} {older : List HistoryEntry}
    (h : doc.OnTimeline holds base last) (happlied : doc.history.applied = entry :: older) :
    AfterReplay holds base last false (doc.takenBack skip entry older).1
      (some (doc.takenBack skip entry older).2) := by
  have hline : (doc.takenBack skip entry older).1.OnTimeline holds base last := h.back happlied
  have hundone : (doc.takenBack skip entry older).1.history.undone =
      entry :: doc.history.undone := by
    rw [history_takenBack]
  refine ⟨hline, entry, _, congrArg some (h.range_takenBack happlied), ?_,
    hline.holds_removed hundone⟩
  rw [if_neg Bool.false_ne_true, hundone]
  rfl

/-- Applying an entry again selects what it has put there. -/
theorem OnTimeline.afterReplay_forth {entry : HistoryEntry} {later : List HistoryEntry}
    (h : doc.OnTimeline holds base last) (hundone : doc.history.undone = entry :: later) :
    AfterReplay holds base last true (doc.appliedAgain skip entry later).1
      (some (doc.appliedAgain skip entry later).2) := by
  have hline : (doc.appliedAgain skip entry later).1.OnTimeline holds base last :=
    h.forth hundone
  have happlied : (doc.appliedAgain skip entry later).1.history.applied =
      entry :: doc.history.applied := by
    rw [history_appliedAgain]
  refine ⟨hline, entry, _, congrArg some (h.range_appliedAgain hundone), ?_,
    hline.holds_inserted happlied⟩
  rw [if_pos rfl, happlied]
  rfl

/-- **What a step puts back last, the range that it gives covers.** -/
theorem OnTimeline.afterReplay (h : doc.OnTimeline holds base last) (hedit : doc.editable = true)
    (hcan : doc.history.replayed redo ≠ []) :
    AfterReplay holds base last redo (doc.travel redo skip).1 (doc.travel redo skip).2 := by
  unfold Document.travel
  rw [hedit]
  cases redo with
  | false =>
    show AfterReplay holds base last false (doc.undoEntries skip none doc.history.applied).1
      (doc.undoEntries skip none doc.history.applied).2
    cases happlied : doc.history.applied with
    | nil => exact absurd happlied (History.applied_ne_nil hcan)
    | cons entry older =>
      have hfirst : AfterReplay holds base last false (doc.takenBack skip entry older).1
        (some (doc.takenBack skip entry older).2) := h.afterReplay_back happlied
      rw [undoEntries_cons]
      split
      · exact hfirst
      · exact undoEntries_last (fun _ _ _ _ happlied h => h.1.afterReplay_back happlied) _ _ older
          (by rw [history_takenBack]) hfirst
  | true =>
    show AfterReplay holds base last true (doc.redoEntries skip none doc.history.undone).1
      (doc.redoEntries skip none doc.history.undone).2
    cases hundone : doc.history.undone with
    | nil => exact absurd hundone (History.undone_ne_nil hcan)
    | cons entry later =>
      rw [redoEntries_cons]
      exact redoEntries_last (fun _ _ _ _ hundone h => h.1.afterReplay_forth hundone) _ _ later
        (by rw [history_appliedAgain]) (h.afterReplay_forth hundone)

/-! ## Steps of a caller -/

/-- A caller takes a step of undo or redo, which leads to a document and to a place of the caller's
selection. -/
inductive Steps (doc : Document) (redo : Bool) : Document → Option Selection → Prop where
  /-- The caller's selection is not registered. -/
  | undo (sel : Selection) : Steps doc redo (doc.undo sel redo).1 (some (doc.undo sel redo).2)
  /-- The caller's selection is registered. -/
  | undoAt (handle : SelectionHandle)
    (registered : (doc.selections.get? handle).isSome = true) :
    Steps doc redo (doc.undoAt handle redo) ((doc.undoAt handle redo).selections.get? handle)

/-- A step has replayed these entries, one after the other: undoing has moved them from the applied
entries to the undone ones, or redoing has moved them back. The text that the last of them put back
is what the caller's selection covers. -/
structure Replays (doc after : Document) (redo : Bool) (entries : List HistoryEntry)
    (entry : HistoryEntry) (own : Option Selection) : Prop where
  /-- An undo has taken the entries back. -/
  undone : redo = false → doc.history.applied = entries ++ after.history.applied ∧
    after.history.undone = entries.reverse ++ doc.history.undone
  /-- A redo has applied them again. -/
  redone : redo = true → doc.history.undone = entries ++ after.history.undone ∧
    after.history.applied = entries.reverse ++ doc.history.applied
  /-- This one came last. -/
  last : entries.getLast? = some entry
  /-- The caller's selection is where its text is. -/
  own : ∃ range, own = some range ∧ after.HoldsPutBack redo entry range

/-- A selection stays registered when others edit. -/
theorem registered_travel (handle : SelectionHandle) (doc : Document) (redo : Bool)
    (skip : Option SelectionHandle) :
    ((doc.travel redo skip).1.selections.get? handle).isSome =
      (doc.selections.get? handle).isSome := by
  refine travel_same (f := fun doc => (doc.selections.get? handle).isSome) (fun _ _ => rfl) ?_
    doc redo
  intro doc passage text
  show (Selections.get? (Selections.shift _ _ _ _) handle).isSome = _
  rw [Selections.get?_shift, selections_substitute]
  split
  · rfl
  · rw [Option.isSome_map]

/-- The step of a caller is one of the document, apart from where the caller's selection goes. -/
theorem Steps.exists_travel {own : Option Selection} (h : doc.Steps redo there own)
    (hplace : ∀ skip, (doc.travel redo skip).2.isSome = true) :
    ∃ skip selections, there = { (doc.travel redo skip).1 with selections } ∧
      own = (doc.travel redo skip).2 := by
  cases h with
  | undo sel =>
    obtain ⟨place, hsome⟩ := Option.isSome_iff_exists.1 (hplace none)
    refine ⟨none, _, rfl, ?_⟩
    show some ((doc.travel redo none).2.getD sel) = _
    rw [hsome]
    rfl
  | undoAt handle registered =>
    obtain ⟨place, hsome⟩ := Option.isSome_iff_exists.1 (hplace (some handle))
    have htravel : doc.travel redo (some handle) =
      ((doc.travel redo (some handle)).1, some place) := Prod.ext rfl hsome
    have hundo : doc.undoAt handle redo = { (doc.travel redo (some handle)).1 with
        selections := (doc.travel redo (some handle)).1.selections.set handle place } := by
      unfold Document.undoAt
      rw [htravel]
    refine ⟨some handle, _, hundo, ?_⟩
    rw [hundo, hsome]
    show Selections.get? (Selections.set _ _ _) _ = _
    rw [Selections.get?_set, registered_travel, if_pos ⟨rfl, registered⟩]

/-- Where entries can be replayed, a step replays them, and stays on the timeline. -/
theorem Steps.replays {own : Option Selection} (h : doc.Steps redo there own)
    (hline : doc.OnTimeline holds base last) (hedit : doc.editable = true)
    (hcan : doc.history.replayed redo ≠ []) :
    there.OnTimeline holds base last ∧ there.editable = true ∧
      there.history = doc.history.travel redo ∧
      ∃ entry, doc.Replays there redo (doc.history.replayed redo) entry own := by
  have hplace : ∀ skip, (doc.travel redo skip).2.isSome = true := by
    intro skip
    obtain ⟨_, entry, range, hsome, _⟩ := hline.afterReplay hedit hcan
    rw [hsome]
    rfl
  obtain ⟨skip, selections, rfl, rfl⟩ := h.exists_travel hplace
  have hhistory := history_travel hedit redo skip
  obtain ⟨hafter, entry, range, hsome, hnewest, hholds⟩ := hline.afterReplay hedit hcan
  refine ⟨hafter.congr rfl rfl, (editable_travel doc redo skip).trans hedit, hhistory, entry, ?_⟩
  rw [hhistory] at hnewest
  -- The entry at the cursor is the last one that was moved there.
  have hlast (rest : List HistoryEntry) :
      ((doc.history.replayed redo).reverse ++ rest).head? =
        (doc.history.replayed redo).getLast? := by
    rw [List.head?_append_of_ne_nil _ (List.reverse_ne_nil_iff.2 hcan), List.head?_reverse]
  refine ⟨?undone, ?redone, ?last, range, hsome, hholds.range_eq, hholds.within, hholds.text⟩
  case undone =>
    rintro rfl
    show _ = _ ++ (doc.travel false skip).1.history.applied ∧
      (doc.travel false skip).1.history.undone = _
    rw [hhistory]
    exact ⟨(History.topStep_append_stepBelow _).symm, rfl⟩
  case redone =>
    rintro rfl
    show _ = _ ++ (doc.travel true skip).1.history.undone ∧
      (doc.travel true skip).1.history.applied = _
    rw [hhistory]
    exact ⟨(History.nextStep_append_stepBeyond _).symm, rfl⟩
  case last =>
    cases redo with
    | false => exact (hlast doc.history.undone).symm.trans hnewest
    | true => exact (hlast doc.history.applied).symm.trans hnewest

/-! ## All operations -/

/-- Edits and marks keep the cursor between two steps. -/
theorem kept_atBoundary : Kept fun doc => doc.history.AtBoundary where
  same := by
    intro doc other h hsame
    rw [hsame.history]
    exact h
  replaced := by
    intro doc target range _ text skip solid origin _
    refine .inr ?_
    rw [history_replaceAccepted, History.undone_add]
    trivial
  saved := fun h => h.markSaved
  unsaved := fun h => h
  flushed := fun _ => .inl rfl

/-- A step through the history stops between two steps. -/
theorem travel_atBoundary (h : doc.history.AtBoundary) (redo : Bool)
    (skip : Option SelectionHandle) : (doc.travel redo skip).1.history.AtBoundary := by
  cases hedit : doc.editable with
  | true =>
    rw [history_travel hedit]
    exact History.atBoundary_travel _ _
  | false =>
    unfold Document.travel
    rw [hedit]
    exact h

end Document

/-- **Every operation leaves the cursor between two steps.** -/
theorem atBoundary_perform (operation : Operation σ) {session : Session σ}
    (hvalid : session.document.IsValid) (h : session.document.history.AtBoundary) :
    (operation.perform session).document.history.AtBoundary := by
  refine Document.kept_atBoundary.perform operation session hvalid h ?_ ?_ ?_
  · exact Operation.perform_of_travel (P := fun doc => doc.history.AtBoundary)
      (fun _ _ h => h) fun redo skip => Document.travel_atBoundary h redo skip
  · intro hprotect
    cases operation with
    | protect count => exact h
    | _ => cases hprotect
  · intro hlisten
    cases operation with
    | listen listening => cases listening <;> exact h
    | _ => cases hlisten

/-- Between operations the cursor always stands between two steps. -/
theorem atBoundary_run (operations : List (Operation σ)) {session : Session σ}
    (hgrew : session.document.GrewFrom base) (h : session.document.history.AtBoundary) :
    (Operation.run operations session).document.history.AtBoundary := by
  induction operations generalizing session base with
  | nil => exact h
  | cons operation rest ih =>
    obtain ⟨_, hline⟩ := id hgrew
    exact ih (grewFrom_perform operation session hgrew)
      (atBoundary_perform operation hline.valid h)

/-- A created document has nothing to redo. -/
theorem Document.Created.atBoundary {doc : Document} (h : doc.Created) :
    doc.history.AtBoundary :=
  h.of_reload (P := fun doc => doc.history.AtBoundary) (fun _ _ _ _ => .inl rfl)
    fun _ _ _ _ h hread => Document.kept_atBoundary.reload h hread

/-- **Undo and redo are inverse to each other.** After any operations on a created document, as long
as it is editable: a step of undo that replays an entry, and a step of redo after it, lead back to
the same text and the same history, with the cursor where it was; and so do a step of redo and a step
of undo after it. After each of the two steps the caller's selection covers the text that the last
replayed entry put back, and nothing else. -/
theorem undo_inverse {start : Session σ} (hcreated : start.document.Created)
    (operations : List (Operation σ)) {doc there again : Document} {redo : Bool}
    {own own' : Option Selection} (hreached : doc = (Operation.run operations start).document)
    (hedit : doc.editable = true)
    (hcan : (if redo then doc.history.canRedo else doc.history.canUndo) = true)
    (hthere : doc.Steps redo there own) (hagain : there.Steps (!redo) again own') :
    again.content = doc.content ∧ again.history = doc.history ∧
      (∃ entries entry, doc.Replays there redo entries entry own) ∧
      ∃ entries entry, there.Replays again (!redo) entries entry own' := by
  have hboundary : doc.history.AtBoundary := by
    rw [hreached]
    exact atBoundary_run operations hcreated.grewFrom hcreated.atBoundary
  have hgrew := grewFrom_run operations start hcreated.grewFrom
  rw [← hreached] at hgrew
  obtain ⟨last, hline⟩ := hgrew
  have hsome := History.replayed_ne_nil hcan
  obtain ⟨hlineThere, heditThere, hhistoryThere, entry, hreplays⟩ :=
    hthere.replays hline hedit hsome
  have hsomeBack : there.history.replayed (!redo) ≠ [] := by
    rw [hhistoryThere, hboundary.replayed_travel hsome]
    exact List.reverse_ne_nil_iff.2 hsome
  obtain ⟨hlineAgain, _, hhistoryAgain, entry', hreplays'⟩ :=
    hagain.replays hlineThere heditThere hsomeBack
  have hhistory : again.history = doc.history := by
    rw [hhistoryAgain, hhistoryThere, hboundary.travel_travel hsome]
  refine ⟨?_, hhistory, ⟨_, entry, hreplays⟩, _, entry', hreplays'⟩
  -- Both texts are what the same entries make of the base.
  have hcontent := hlineAgain.timeline.applied.applyAll?
  rw [hhistory, hline.timeline.applied.applyAll?] at hcontent
  exact (Option.some.inj hcontent).symm

/-- Two edits, of which the second goes on with the step of the first. -/
def Operation.pair : List (Operation Unit) :=
  [.replace "ab".toList (.point 0) true .program, .replace "cd".toList (.point 2) false .program]

/-- The session after the two edits. -/
def Session.pair : Session Unit :=
  Operation.run Operation.pair .notes

/-- Both are undone at once and redone at once, and the selection goes to the second. -/
theorem undo_inverse_pair :
    (Session.pair.document.undo (.point 0) false).1.content = [] ∧
      ((Session.pair.document.undo (.point 0) false).1.undo (.point 0) true).1.content =
        "abcd".toList ∧
      ∃ entries entry, (Session.pair.document.undo (.point 0) false).1.Replays
        ((Session.pair.document.undo (.point 0) false).1.undo (.point 0) true).1 true entries entry
        (some ⟨2, 4⟩) := by
  have hedit : Session.pair.document.editable = true := by decide +kernel
  have hcan : (if false then Session.pair.document.history.canRedo
      else Session.pair.document.history.canUndo) = true := by
    decide +kernel
  have hcontent : Session.pair.document.content = "abcd".toList := by decide +kernel
  have hundone : (Session.pair.document.undo (.point 0) false).1.content = [] := by
    decide +kernel
  have hown : ((Session.pair.document.undo (.point 0) false).1.undo (.point 0) true).2 =
      ⟨2, 4⟩ := by
    decide +kernel
  have hcreated : Session.notes.document.Created := .blank "." "+notes" {} .plain
  have hthere : Session.pair.document.Steps false (Session.pair.document.undo (.point 0) false).1
    (some (Session.pair.document.undo (.point 0) false).2) := .undo (.point 0)
  obtain ⟨hback, _, _, hreplays⟩ := undo_inverse hcreated Operation.pair rfl hedit hcan hthere
    (.undo (.point 0))
  exact ⟨hundone, hback.trans hcontent, hown ▸ hreplays⟩

end Emend
