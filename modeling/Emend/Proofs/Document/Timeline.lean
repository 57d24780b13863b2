import Emend.Document.Replay
import Emend.Proofs.Document.Editing

/-!
# The texts that a history goes through

An entry of a history turns one text into another: `HistoryEntry.Turns`. It says more than that the
entry can be applied. The text that it put there begins where the removed one began and is as long
as its range says; without that the entry could not be taken back, and a keystroke could not be
added to it.

A history is a timeline from a base text to the present one if its applied entries turn the base
into the present text, one after the other, and its undone entries go on from there. What else
holds of an entry and the text after it is a parameter, `holds`: nothing where only the texts
matter, and what the mark of a saved document promises where that matters.

Recording an edit keeps a timeline (`Timeline.add`), whether the edit becomes an entry of its own or
goes on with the typing before it, and so does replaying an entry (`Timeline.back`,
`Timeline.forth`). A timeline explains the text in the sense of `History.Explains`.
-/

namespace Emend

/-- The range of a passage. -/
def Passage.range (passage : Passage) : Selection :=
  ⟨passage.start, passage.stop⟩

/-- A passage that lies where it says can be replaced. -/
theorem Passage.replace?_of_isWithin {passage : Passage} {content : List Char}
    (hwithin : passage.range.IsWithin content.length)
    (htext : sliceOf content passage.range = passage.text) (text : List Char) :
    passage.replace? content text = some (splice content passage.range text) :=
  if_pos ⟨hwithin.1, hwithin.2, htext⟩

namespace HistoryEntry

/-- The entry turns the text `old` into `new`. -/
structure Turns (entry : HistoryEntry) (old new : List Char) : Prop where
  /-- The new passage begins where the removed one began. -/
  aligned : entry.after.start = entry.before.start
  /-- The new passage is as long as its text. -/
  exact : entry.after.stop = entry.after.start + entry.after.text.length
  /-- The removed passage lies within the old text. -/
  within : entry.before.range.IsWithin old.length
  /-- The removed passage holds what the old text has there. -/
  removed : sliceOf old entry.before.range = entry.before.text
  /-- The new text has the new passage in its place. -/
  put : new = splice old entry.before.range entry.after.text

variable {entry : HistoryEntry} {old middle new : List Char}

/-- The range of the new passage. -/
theorem Turns.range_after (h : entry.Turns old new) :
    entry.after.range = ⟨entry.before.range.start,
      entry.before.range.start + entry.after.text.length⟩ := by
  simp only [Passage.range, h.exact, h.aligned]

/-- The entry can be applied to the old text. -/
theorem Turns.applyTo? (h : entry.Turns old new) : entry.applyTo? old = some new := by
  rw [HistoryEntry.applyTo?, Passage.replace?_of_isWithin h.within h.removed, h.put]

/-- The new passage lies within the new text. -/
theorem Turns.within_after (h : entry.Turns old new) :
    entry.after.range.IsWithin new.length := by
  have hlength : (splice old entry.before.range entry.after.text).length +
      entry.before.range.length = old.length + entry.after.text.length := length_splice h.within
  have hwithin := h.within
  rw [← h.put] at hlength
  rw [h.range_after]
  simp only [Selection.IsWithin, Selection.length] at hwithin hlength ⊢
  omega

/-- Putting the removed text back gives the old text. -/
theorem Turns.put_back (h : entry.Turns old new) :
    splice new entry.after.range entry.before.text = old := by
  rw [h.range_after, h.put, ← h.removed]
  exact splice_splice_sliceOf h.within

/-- The new passage holds what the new text has there. -/
theorem Turns.inserted (h : entry.Turns old new) :
    sliceOf new entry.after.range = entry.after.text := by
  rw [h.range_after, h.put]
  exact sliceOf_splice h.within

/-- The entry can be taken back from the new text. -/
theorem Turns.takeBackFrom? (h : entry.Turns old new) : entry.takeBackFrom? new = some old := by
  rw [HistoryEntry.takeBackFrom?, Passage.replace?_of_isWithin h.within_after h.inserted,
    h.put_back]

/-- Only the passages of an entry matter. -/
theorem Turns.congr {other : HistoryEntry} (h : entry.Turns old new)
    (hbefore : other.before = entry.before) (hafter : other.after = entry.after) :
    other.Turns old new := by
  constructor
  · rw [hbefore, hafter, h.aligned]
  · rw [hafter, h.exact]
  · rw [hbefore]
    exact h.within
  · rw [hbefore]
    exact h.removed
  · rw [hbefore, hafter]
    exact h.put

/-- An entry that removes nothing has an empty range. -/
theorem Turns.stop_eq_start (h : entry.Turns old new) (hempty : entry.before.text = []) :
    entry.before.stop = entry.before.start := by
  have hlength := length_sliceOf h.within
  have hle := h.within.1
  rw [h.removed, hempty] at hlength
  simp only [Passage.range, Selection.length, List.length_nil] at hlength hle
  omega

/-- Inserting right behind an insertion is inserting more at once. -/
theorem splice_splice_point (content first second : List Char) {position : Nat}
    (h : position ≤ content.length) :
    splice (splice content ⟨position, position⟩ first)
        ⟨position + first.length, position + first.length⟩ second =
      splice content ⟨position, position⟩ (first ++ second) := by
  -- The first insertion ends what lies before the second.
  have hlength : (content.take position ++ first).length = position + first.length := by
    rw [List.length_append, List.length_take, Nat.min_eq_left h]
  simp only [splice]
  rw [List.take_left' hlength, List.drop_left' hlength]
  simp only [List.append_assoc]

/-- **Typing goes on.** An insertion right behind an earlier one, as one entry with it. -/
theorem Turns.append {previous longer : HistoryEntry} (hprevious : previous.Turns old middle)
    (hentry : entry.Turns middle new) (hnothing : previous.before.text = [])
    (hnone : entry.before.text = []) (hbehind : previous.after.stop = entry.after.start)
    (hbefore : longer.before = previous.before)
    (hafter : longer.after = previous.after.append entry.after) : longer.Turns old new := by
  -- Both remove nothing, so their ranges are points, and the second lies behind the first's text.
  have hpoint := hprevious.stop_eq_start hnothing
  have hpoint' := hentry.stop_eq_start hnone
  have hstart : entry.before.start = previous.before.start + previous.after.text.length :=
    calc entry.before.start = entry.after.start := hentry.aligned.symm
      _ = previous.after.stop := hbehind.symm
      _ = previous.after.start + previous.after.text.length := hprevious.exact
      _ = previous.before.start + previous.after.text.length := by rw [hprevious.aligned]
  constructor
  · rw [hafter, hbefore]
    exact hprevious.aligned
  · rw [hafter]
    simp only [Passage.append, List.length_append]
    rw [hentry.exact, ← hbehind, hprevious.exact, Nat.add_assoc]
  · rw [hbefore]
    exact hprevious.within
  · rw [hbefore]
    exact hprevious.removed
  · have hle : previous.before.start ≤ old.length := by
      rw [← hpoint]
      exact hprevious.within.2
    rw [hbefore, hafter, hentry.put, hprevious.put]
    simp only [Passage.range, Passage.append, hpoint, hpoint', hstart]
    exact splice_splice_point old previous.after.text entry.after.text hle

/-- Applying two lists of entries one after the other. -/
@[simp]
theorem applyAll?_append (first second : List HistoryEntry) (content : List Char) :
    applyAll? (first ++ second) content =
      (applyAll? first content).bind (applyAll? second) := by
  rw [applyAll?, List.foldlM_append]
  rfl

/-- Taking back two lists of entries one after the other. -/
@[simp]
theorem takeBackAll?_append (first second : List HistoryEntry) (content : List Char) :
    takeBackAll? (first ++ second) content =
      (takeBackAll? first content).bind (takeBackAll? second) := by
  rw [takeBackAll?, List.foldlM_append]
  rfl

/-- The first entry is applied first. -/
theorem applyAll?_cons (entry : HistoryEntry) (rest : List HistoryEntry) (content : List Char) :
    applyAll? (entry :: rest) content = (entry.applyTo? content).bind (applyAll? rest) :=
  List.foldlM_cons ..

/-- The first entry is taken back first. -/
theorem takeBackAll?_cons (entry : HistoryEntry) (rest : List HistoryEntry)
    (content : List Char) :
    takeBackAll? (entry :: rest) content =
      (entry.takeBackFrom? content).bind (takeBackAll? rest) :=
  List.foldlM_cons ..

end HistoryEntry

/-! ## Timelines -/

section Timeline

variable {holds : HistoryEntry → List Char → Prop} {base content last : List Char}
  {entry : HistoryEntry} {entries older later : List HistoryEntry} {history : History}

/-- Nothing more than its passages is asked of an entry. -/
abbrev anyEntry : HistoryEntry → List Char → Prop :=
  fun _ _ => True

/-- The entries, the newest first, turn the base into the text. -/
inductive Stacks (holds : HistoryEntry → List Char → Prop) (base : List Char) :
    List HistoryEntry → List Char → Prop where
  /-- No entries leave the base. -/
  | nil : Stacks holds base [] base
  /-- The newest entry turns the text that the older ones lead to. -/
  | push {entry : HistoryEntry} {older : List HistoryEntry} {old new : List Char}
    (below : Stacks holds base older old) (turns : entry.Turns old new)
    (here : holds entry new) : Stacks holds base (entry :: older) new

/-- The entries, the next first, lead from the text to the last one. -/
inductive Leads (holds : HistoryEntry → List Char → Prop) :
    List HistoryEntry → List Char → List Char → Prop where
  /-- No entries stay at the text. -/
  | nil {content : List Char} : Leads holds [] content content
  /-- The next entry turns the text, and the later ones lead on. -/
  | next {entry : HistoryEntry} {later : List HistoryEntry} {old new last : List Char}
    (turns : entry.Turns old new) (here : holds entry new)
    (beyond : Leads holds later new last) : Leads holds (entry :: later) old last

/-- The history tells how the base became the text, and how to go on from there to `last`. -/
structure Timeline (holds : HistoryEntry → List Char → Prop) (history : History)
    (base content last : List Char) : Prop where
  /-- The applied entries turn the base into the text. -/
  applied : Stacks holds base history.applied content
  /-- The undone entries lead from the text to the last one. -/
  undone : Leads holds history.undone content last

/-- One more entry at the end. -/
theorem Leads.snoc {new : List Char} (h : Leads holds entries content last)
    (turns : entry.Turns last new) (here : holds entry new) :
    Leads holds (entries ++ [entry]) content new := by
  induction h with
  | nil => exact .next turns here .nil
  | next first holds _ ih => exact .next first holds (ih turns)

/-- Read from the oldest entry on, a stack leads from the base to the text. -/
theorem Stacks.leads (h : Stacks holds base entries content) :
    Leads holds entries.reverse base content := by
  induction h with
  | nil => exact .nil
  | push _ turns here ih =>
    rw [List.reverse_cons]
    exact ih.snoc turns here

/-- Entries that lead on from a text are stacked on those that lead to it. -/
theorem Leads.stacks (h : Leads holds entries content last)
    (below : Stacks holds base older content) :
    Stacks holds base (entries.reverse ++ older) last := by
  induction h generalizing older with
  | nil => exact below
  | next turns here _ ih =>
    rw [List.reverse_cons, List.append_assoc]
    exact ih (below.push turns here)

/-- Entries that lead from one text to another turn the one into the other. -/
theorem Leads.applyAll? (h : Leads holds entries content last) :
    HistoryEntry.applyAll? entries content = some last := by
  induction h with
  | nil => rfl
  | next turns here beyond ih =>
    rw [HistoryEntry.applyAll?_cons, turns.applyTo?, Option.bind_some, ih]

/-- Taken back in the other order, they turn the other into the one. -/
theorem Leads.takeBackAll? (h : Leads holds entries content last) :
    HistoryEntry.takeBackAll? entries.reverse last = some content := by
  induction h with
  | nil => rfl
  | next turns here beyond ih =>
    rw [List.reverse_cons, HistoryEntry.takeBackAll?_append, ih, Option.bind_some,
      HistoryEntry.takeBackAll?_cons, turns.takeBackFrom?]
    rfl

/-- A stack is applied from the oldest entry on. -/
theorem Stacks.applyAll? (h : Stacks holds base entries content) :
    HistoryEntry.applyAll? entries.reverse base = some content :=
  h.leads.applyAll?

/-- It is taken back from the newest entry on. -/
theorem Stacks.takeBackAll? (h : Stacks holds base entries content) :
    HistoryEntry.takeBackAll? entries content = some base := by
  have hback := h.leads.takeBackAll?
  rwa [List.reverse_reverse] at hback

/-- A timeline explains the text. -/
theorem Timeline.explains (h : Timeline holds history base content last) :
    history.Explains base content :=
  ⟨h.applied.applyAll?, h.applied.takeBackAll?,
    last, h.undone.applyAll?, h.undone.takeBackAll?⟩

/-- All entries together lead from the base to the last text. -/
theorem Timeline.applyAll?_entries (h : Timeline holds history base content last) :
    HistoryEntry.applyAll? history.entries base = some last := by
  rw [History.entries, HistoryEntry.applyAll?_append, h.applied.applyAll?, Option.bind_some,
    h.undone.applyAll?]

/-- With no entry applied, the text is the base. -/
theorem Timeline.content_eq_base (h : Timeline holds history base content last)
    (hnone : history.canUndo = false) : content = base := by
  obtain ⟨applied, _⟩ := h
  rw [History.canUndo, Bool.not_eq_eq_eq_not, Bool.not_false, List.isEmpty_iff] at hnone
  rw [hnone] at applied
  cases applied
  rfl

/-- With no entry undone, the text is the last one. -/
theorem Timeline.content_eq_last (h : Timeline holds history base content last)
    (hnone : history.canRedo = false) : content = last := by
  obtain ⟨_, undone⟩ := h
  rw [History.canRedo, Bool.not_eq_eq_eq_not, Bool.not_false, List.isEmpty_iff] at hnone
  rw [hnone] at undone
  cases undone
  rfl

/-- Entries can be changed in everything but their passages, as long as what is to hold of them
still does. -/
theorem Leads.map {holds' : HistoryEntry → List Char → Prop} {f : HistoryEntry → HistoryEntry}
    (hbefore : ∀ entry, (f entry).before = entry.before)
    (hafter : ∀ entry, (f entry).after = entry.after)
    (himp : ∀ entry content, holds entry content → holds' (f entry) content)
    (h : Leads holds entries content last) : Leads holds' (entries.map f) content last := by
  induction h with
  | nil => exact .nil
  | next turns here beyond ih =>
    exact .next (turns.congr (hbefore _) (hafter _)) (himp _ _ here) ih

/-- The same for a stack, read from its oldest entry on. -/
theorem Stacks.map {holds' : HistoryEntry → List Char → Prop} {f : HistoryEntry → HistoryEntry}
    (hbefore : ∀ entry, (f entry).before = entry.before)
    (hafter : ∀ entry, (f entry).after = entry.after)
    (himp : ∀ entry content, holds entry content → holds' (f entry) content)
    (h : Stacks holds base entries content) : Stacks holds' base (entries.map f) content := by
  have hstacks := (h.leads.map hbefore hafter himp).stacks .nil
  rwa [List.append_nil, ← List.map_reverse, List.reverse_reverse] at hstacks

/-- Nothing more than the passages need be asked of the entries. -/
theorem Timeline.any (h : Timeline holds history base content last) :
    Timeline anyEntry history base content last := by
  have happlied : Stacks anyEntry base (history.applied.map id) content :=
    h.applied.map (fun _ => rfl) (fun _ => rfl) fun _ _ _ => trivial
  have hundone : Leads anyEntry (history.undone.map id) content last :=
    h.undone.map (fun _ => rfl) (fun _ => rfl) fun _ _ _ => trivial
  rw [List.map_id] at happlied hundone
  exact ⟨happlied, hundone⟩

/-- Only the passages of the newest entry and what is to hold of it matter. -/
theorem Stacks.congrHead {other : HistoryEntry}
    (h : Stacks holds base (entry :: older) content) (hbefore : other.before = entry.before)
    (hafter : other.after = entry.after) (hother : holds other content) :
    Stacks holds base (other :: older) content := by
  obtain _ | ⟨below, turns, _⟩ := h
  exact below.push (turns.congr hbefore hafter) hother

/-- **Marking the present state as saved keeps a timeline.** Every mark but that of the newest
entry goes. -/
theorem Timeline.markSaved {holds' : HistoryEntry → List Char → Prop}
    (h : Timeline holds history base content last)
    (hunmarked : ∀ entry content, holds entry content → holds' (History.unmark entry) content)
    (hmarked : ∀ entry, holds' { History.unmark entry with saved := true } content) :
    Timeline holds' history.markSaved base content last := by
  -- First every mark goes; then the newest entry, if there is one, gets its own.
  have happlied := h.applied.map (f := History.unmark) (fun _ => rfl) (fun _ => rfl) hunmarked
  have hundone := h.undone.map (f := History.unmark) (fun _ => rfl) (fun _ => rfl) hunmarked
  unfold History.markSaved
  cases hentries : history.applied with
  | nil =>
    rw [hentries] at happlied
    exact ⟨happlied, hundone⟩
  | cons newest older =>
    rw [hentries, List.map_cons] at happlied
    exact ⟨happlied.congrHead rfl rfl (hmarked newest), hundone⟩

/-! ## Recording -/

/-- An entry that goes on with the typing of the one before it. -/
structure GoesOn (previous entry : HistoryEntry) : Prop where
  /-- The entry before removes nothing. -/
  nothing : previous.before.text = []
  /-- Nor does this one. -/
  none : entry.before.text = []
  /-- It begins where the one before ended. -/
  behind : previous.after.stop = entry.after.start

/-- An entry that is added to the one before begins where that one ended, and removes nothing. -/
theorem goesOn_of_continues {previous : HistoryEntry} {now : Nat}
    (h : history.continues previous entry now = true) : GoesOn previous entry := by
  unfold History.continues HistoryEntry.isTyping at h
  simp only [Bool.and_eq_true, beq_iff_eq, List.isEmpty_iff] at h
  obtain ⟨⟨⟨⟨_, hnothing⟩, ⟨⟨hnone, _⟩, _⟩⟩, hbehind⟩, _⟩ := h
  exact ⟨hnothing, hnone, hbehind⟩

/-- What `History.add` makes of an entry that goes on with the one before it. -/
def HistoryEntry.goOn (previous entry : HistoryEntry) (now : Nat) : HistoryEntry :=
  { previous with after := previous.after.append entry.after, time := now }

/-- The two things that recording can do: add an entry, or add to the newest one. -/
theorem History.add_cases (history : History) (entry : HistoryEntry) (now : Nat) :
    (history.add entry now =
        { history with applied := { entry with time := now } :: history.applied, undone := [] }) ∨
      ∃ previous older, history.applied = previous :: older ∧
        history.continues previous entry now = true ∧
        history.add entry now =
          { history with applied := previous.goOn entry now :: older, undone := [] } := by
  unfold History.add
  cases happlied : history.applied with
  | nil => exact .inl rfl
  | cons previous older =>
    dsimp only
    split
    · next hgoes => exact .inr ⟨previous, older, rfl, hgoes, rfl⟩
    · exact .inl rfl

/-- **Recording an edit keeps a timeline.** Whatever else is to hold of entries has to hold of the
one that is recorded, in either of the two forms that it may take. -/
theorem Timeline.add {new : List Char} {now : Nat}
    (h : Timeline holds history base content last) (turns : entry.Turns content new)
    (halone : holds { entry with time := now } new)
    (hlonger : ∀ previous older, history.applied = previous :: older →
      history.continues previous entry now = true → holds (previous.goOn entry now) new) :
    Timeline holds (history.add entry now) base new new := by
  rcases history.add_cases entry now with heq | ⟨previous, older, happlied, hgoes, heq⟩
  · rw [heq]
    exact ⟨h.applied.push (turns.congr rfl rfl) halone, .nil⟩
  · rw [heq]
    -- The longer entry takes the place of the newest one, on the same older entries.
    have hstacks := h.applied
    rw [happlied] at hstacks
    obtain _ | ⟨below, turned, _⟩ := hstacks
    obtain ⟨hnothing, hnone, hbehind⟩ := goesOn_of_continues hgoes
    exact ⟨below.push (turned.append turns hnothing hnone hbehind rfl rfl)
      (hlonger previous older happlied hgoes), .nil⟩

end Timeline

namespace Document

variable {doc : Document} {range : Selection}

/-- The entry of an edit turns the content into what the edit makes of it. -/
theorem turns_entryFor (h : doc.IsValid) (hrange : range.IsWithin doc.size) (text : List Char)
    (solid : Bool) (origin : EditOrigin) :
    (doc.entryFor text range solid origin).Turns doc.content (splice doc.content range text) := by
  have hwithin : range.IsWithin doc.content.length := by
    rw [length_content h]
    exact hrange
  refine ⟨rfl, rfl, hwithin, ?_, rfl⟩
  simp only [entryFor]
  rw [text_eq_sliceOf h, Selection.clamp_of_isWithin hrange]
  rfl

end Document

end Emend
