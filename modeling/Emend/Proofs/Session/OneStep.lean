import Emend.Proofs.Command.Edits
import Emend.Proofs.Session.UndoLog

/-!
# A program as one step of the history

Undoing takes back entries down to the first that begins a step: `stepBelow` tells which entries are
left, and with them which text (`content_undo`). The first edit of a program begins a step, and
nothing that comes later does, whether it becomes an entry of its own or goes on with the one before
it. So undoing takes back the whole program and nothing more.

There is one exception. An edit that the document refuses, since it begins in the protected part,
is the first edit of its program all the same. Then none of the edits that are made begins a step,
and undoing goes on into what was there before. `undo_interpret_iff` tells exactly when undoing
restores the text; redoing brings back what the program made of it in any case.
-/

namespace Emend

variable {σ : Type} {base : List Char}

/-! ## The step on top -/

/-- The entries that are left of the applied ones when a step is undone. -/
def History.stepBelow : List HistoryEntry → List HistoryEntry
  | [] => []
  | entry :: older => if entry.solid then older else stepBelow older

/-- The entries that are taken back then, the newest first. -/
def History.topStep : List HistoryEntry → List HistoryEntry
  | [] => []
  | entry :: older => if entry.solid then [entry] else entry :: topStep older

/-- An entry that was not typed and begins a step stands on all that was there before. -/
theorem History.stepBelow_add_solid {history : History} {entry : HistoryEntry} {now : Nat}
    (hsolid : entry.solid = true) (htyped : entry.typed = false) :
    stepBelow (history.add entry now).applied = history.applied := by
  rcases history.add_cases entry now with heq | ⟨previous, older, _, hgoes, _⟩
  · rw [heq, stepBelow, if_pos hsolid]
  · -- Such an entry does not go on with the typing before it.
    unfold History.continues at hgoes
    rw [hsolid, htyped] at hgoes
    cases hgoes

/-- An entry that does not begin a step belongs to the one on top. -/
theorem History.stepBelow_add {history : History} {entry : HistoryEntry} {now : Nat}
    (hsolid : entry.solid = false) :
    stepBelow (history.add entry now).applied = stepBelow history.applied := by
  rcases history.add_cases entry now with heq | ⟨previous, older, happlied, _, heq⟩
  · rw [heq, stepBelow, if_neg (by rw [hsolid]; exact Bool.false_ne_true)]
  · rw [heq, happlied]
    rfl

/-- What has been recorded leaves nothing to redo. -/
@[simp]
theorem History.undone_add (history : History) (entry : HistoryEntry) (now : Nat) :
    (history.add entry now).undone = [] := by
  rcases history.add_cases entry now with heq | ⟨_, _, _, _, heq⟩
  · rw [heq]
  · rw [heq]

/-- What has been recorded can be taken back. -/
@[simp]
theorem History.canUndo_add (history : History) (entry : HistoryEntry) (now : Nat) :
    (history.add entry now).canUndo = true := by
  rcases history.add_cases entry now with heq | ⟨_, _, _, _, heq⟩
  · rw [heq]
    rfl
  · rw [heq]
    rfl

namespace Document

variable {doc : Document} {skip : Option SelectionHandle}

/-- Undoing moves the entries of the step on top from the applied ones to the undone ones. -/
theorem history_undoEntries (doc : Document) (last : Option Selection)
    (entries : List HistoryEntry) (happlied : doc.history.applied = entries) :
    (doc.undoEntries skip last entries).1.history =
      { doc.history with
        applied := History.stepBelow entries
        undone := (History.topStep entries).reverse ++ doc.history.undone } := by
  induction entries generalizing doc last with
  | nil =>
    show doc.history = History.mk [] doc.history.undone _ _
    rw [← happlied]
  | cons entry older ih =>
    rw [undoEntries_cons, History.stepBelow, History.topStep]
    split
    · exact history_takenBack
    · rw [ih (doc.takenBack skip entry older).1 _ (by rw [history_takenBack]), history_takenBack,
        List.reverse_cons, List.append_assoc]
      rfl

/-- **Where undoing leads to**: the text that the entries below the top step make of the base. -/
theorem GrewFrom.content_undo (h : doc.GrewFrom base) (hedit : doc.editable = true)
    (skip : Option SelectionHandle) :
    HistoryEntry.applyAll? (History.stepBelow doc.history.applied).reverse base =
      some (doc.travel false skip).1.content := by
  obtain ⟨last, hline⟩ := h.travel false skip
  have happlied : (doc.travel false skip).1.history.applied =
      History.stepBelow doc.history.applied := by
    unfold Document.travel
    rw [hedit]
    exact congrArg History.applied (history_undoEntries doc none doc.history.applied rfl)
  have hcontent := hline.timeline.applied.applyAll?
  rw [happlied] at hcontent
  exact hcontent

/-! ## Edits of a program -/

/-- What an accepted replacement preserves, several replacements preserve that do not begin a
step. -/
theorem replaceEach_induction {P : Document → Prop}
    (accepted : ∀ doc target range text, doc.accept target = .ok range → P doc →
      P (doc.replaceAccepted text range none false .program))
    (replacements : List Replacement) (h : P doc) : P (doc.replaceEach false replacements) := by
  induction replacements generalizing doc with
  | nil => exact h
  | cons replacement rest ih =>
    exact ih (replaceSkipping_of_accepted h fun range haccept =>
      accepted doc replacement.range range replacement.text haccept h)

/-- The entries below the top step are these, and the newest entry was recorded last. -/
structure Stands (below : List HistoryEntry) (base : List Char) (doc : Document) : Prop where
  /-- The document grew from the base. -/
  grew : doc.GrewFrom base
  /-- It is editable. -/
  editable : doc.editable = true
  /-- These entries are left when a step is undone. -/
  left : History.stepBelow doc.history.applied = below

/-- More edits that begin no step stand on the same entries. -/
theorem Stands.replaceEach {below : List HistoryEntry} (h : doc.Stands below base)
    (replacements : List Replacement) : (doc.replaceEach false replacements).Stands below base := by
  refine replaceEach_induction (fun doc target range text haccept h => ?_) replacements h
  refine ⟨h.grew.replaceAccepted haccept, ?_, ?_⟩
  · rw [editable_replaceAccepted]
    exact h.editable
  · rw [history_replaceAccepted, History.stepBelow_add (by rfl)]
    exact h.left

/-- A step has just been recorded: there is nothing to redo, and something to undo. -/
structure JustEdited (doc : Document) : Prop where
  /-- Nothing is undone. -/
  nothing : doc.history.undone = []
  /-- Something is applied. -/
  something : doc.history.canUndo = true

/-- After an edit there is something to undo and nothing to redo. -/
theorem justEdited_replaceAccepted (doc : Document) (text : List Char) (range : Selection)
    (solid : Bool) : (doc.replaceAccepted text range skip solid .program).JustEdited := by
  refine ⟨?_, ?_⟩
  · rw [history_replaceAccepted]
    exact History.undone_add _ _ _
  · rw [history_replaceAccepted]
    exact History.canUndo_add _ _ _

/-- Several replacements leave the text and the history alone, or record something. -/
theorem justEdited_replaceEach (doc : Document) (replacements : List Replacement) :
    ((doc.replaceEach false replacements).content = doc.content ∧
      (doc.replaceEach false replacements).history = doc.history) ∨
    (doc.replaceEach false replacements).JustEdited :=
  replaceEach_induction (P := fun other =>
      (other.content = doc.content ∧ other.history = doc.history) ∨ other.JustEdited)
    (fun _ _ _ _ _ _ => .inr (justEdited_replaceAccepted _ _ _ _)) replacements (.inl ⟨rfl, rfl⟩)

/-- A refused edit changes nothing, but the next one begins no step. -/
theorem replaceEach_of_error {first : Replacement} {rest : List Replacement} {sel : Selection}
    (h : doc.accept first.range = .error sel) (solid : Bool) :
    doc.replaceEach solid (first :: rest) = doc.replaceEach false rest := by
  rw [Document.replaceEach, Document.replace, Document.replaceSkipping, h]

/-- After an accepted edit the next one begins no step. -/
theorem replaceEach_of_ok {first : Replacement} {rest : List Replacement} {range : Selection}
    (h : doc.accept first.range = .ok range) (solid : Bool) :
    doc.replaceEach solid (first :: rest) =
      (doc.replaceAccepted first.text range none solid .program).replaceEach false rest := by
  rw [Document.replaceEach, Document.replace, Document.replaceSkipping, h]

/-- The document takes the first of the replacements. -/
def TakesFirst (doc : Document) (replacements : List Replacement) : Prop :=
  ∃ first rest range, replacements = first :: rest ∧ doc.accept first.range = .ok range

/-- If the first replacement is taken, the step stands on all that was there before. -/
theorem TakesFirst.stands {replacements : List Replacement} (h : doc.TakesFirst replacements)
    (hgrew : doc.GrewFrom base) (hedit : doc.editable = true) :
    (doc.replaceEach true replacements).Stands doc.history.applied base ∧
      (doc.replaceEach true replacements).JustEdited := by
  obtain ⟨first, rest, range, rfl, haccept⟩ := h
  have hfirst : (doc.replaceAccepted first.text range none true .program).Stands
      doc.history.applied base := by
    refine ⟨hgrew.replaceAccepted haccept, ?_, ?_⟩
    · rw [editable_replaceAccepted]
      exact hedit
    · rw [history_replaceAccepted]
      exact History.stepBelow_add_solid rfl rfl
  have hedited : (doc.replaceAccepted first.text range none true .program).JustEdited :=
    justEdited_replaceAccepted doc first.text range true
  rw [replaceEach_of_ok haccept]
  refine ⟨hfirst.replaceEach rest, ?_⟩
  obtain ⟨_, hhistory⟩ | hlater := justEdited_replaceEach
    (doc.replaceAccepted first.text range none true .program) rest
  · obtain ⟨hnothing, hsomething⟩ := hedited
    rw [← hhistory] at hnothing hsomething
    exact ⟨hnothing, hsomething⟩
  · exact hlater

/-- If it is refused, what is recorded belongs to the step on top. -/
theorem stands_of_not_takesFirst {replacements : List Replacement}
    (h : ¬doc.TakesFirst replacements) (hgrew : doc.GrewFrom base) (hedit : doc.editable = true)
    (hchanges : (doc.replaceEach true replacements).content ≠ doc.content) :
    (doc.replaceEach true replacements).Stands (History.stepBelow doc.history.applied) base ∧
      (doc.replaceEach true replacements).JustEdited := by
  have hstands : doc.Stands (History.stepBelow doc.history.applied) base := ⟨hgrew, hedit, rfl⟩
  cases replacements with
  | nil => exact absurd rfl hchanges
  | cons first rest =>
    cases haccept : doc.accept first.range with
    | ok range => exact absurd ⟨first, rest, range, rfl, haccept⟩ h
    | error sel =>
      rw [replaceEach_of_error haccept] at hchanges ⊢
      refine ⟨hstands.replaceEach rest, ?_⟩
      exact (justEdited_replaceEach doc rest).resolve_left fun hsame => hchanges hsame.1

/-- A document without a protected part takes the first of any replacements. -/
theorem takesFirst_of_free (hedit : doc.editable = true) (hfree : doc.protected? = none)
    {replacements : List Replacement} (h : replacements ≠ []) : doc.TakesFirst replacements := by
  obtain ⟨first, rest, rfl⟩ := List.exists_cons_of_ne_nil h
  refine ⟨first, rest, first.range.clamp doc.size, rfl, ?_⟩
  unfold accept
  rw [hedit, hfree]
  rfl

/-- Where undoing leads to when these entries are left. -/
theorem Stands.content_undo {below : List HistoryEntry} (h : doc.Stands below base)
    (skip : Option SelectionHandle) :
    HistoryEntry.applyAll? below.reverse base = some (doc.travel false skip).1.content := by
  rw [← h.left]
  exact h.grew.content_undo h.editable skip

/-- Redoing right after undoing leads back. -/
theorem Stands.content_undo_redo {below : List HistoryEntry} (h : doc.Stands below base)
    (hedited : doc.JustEdited) :
    ((doc.travel false none).1.travel true none).1.content = doc.content := by
  obtain ⟨last, hline⟩ := h.grew
  exact (hline.undo_redo h.editable hedited.nothing hedited.something).1

end Document

/-- **A program is one step of the history, if the document takes its first edit.** Where a program
changes the text of an editable document, undoing restores the text from before exactly if the first
edit of the program is taken, or if undoing would have led to that text already before the program
ran. In particular it does if no part of the text is protected. Redoing then brings back the text
that the program produced, in any case. -/
theorem Session.undo_interpret_iff (env : Environment σ) (program : String) (session : Session σ)
    (operations : List (Operation σ)) (start : Session σ) (hcreated : start.document.Created)
    (hreached : session.document = (Operation.run operations start).document)
    (hedit : session.document.editable = true)
    (hchanges : (session.interpret env program).2.document.content ≠ session.document.content)
    (sel sel' : Selection) :
    (((session.interpret env program).2.document.undo sel false).1.content =
        session.document.content ↔
      session.document.TakesFirst (session.edits env program) ∨
        (session.document.undo sel false).1.content = session.document.content) ∧
    (session.document.protected? = none →
      ((session.interpret env program).2.document.undo sel false).1.content =
        session.document.content) ∧
    (((session.interpret env program).2.document.undo sel false).1.undo sel' true).1.content =
      (session.interpret env program).2.document.content := by
  -- The edits of the program are made one after the other on a document that grew by a timeline.
  have hgrew : session.document.GrewFrom (Operation.baseOfRun operations start []) := by
    rw [hreached]
    exact grewFrom_run operations start hcreated.grewFrom
  obtain ⟨last, hline⟩ := id hgrew
  have happlied := hline.timeline.applied.applyAll?
  rw [session.document_interpret env program] at hchanges ⊢
  generalize session.edits env program = edits at hchanges ⊢
  generalize session.document = doc at *
  -- What a document takes first, undoing takes back with all that followed.
  have htaken (h : doc.TakesFirst edits) :
      ((doc.replaceEach true edits).undo sel false).1.content = doc.content := by
    have hundo := (h.stands hgrew hedit).1.content_undo none
    rw [happlied] at hundo
    exact (Option.some.inj hundo).symm
  -- If the first one is refused, the others belong to the step before.
  have hrefused (h : ¬doc.TakesFirst edits) :
      ((doc.replaceEach true edits).undo sel false).1.content =
        (doc.undo sel false).1.content := by
    have hundo := (Document.stands_of_not_takesFirst h hgrew hedit hchanges).1.content_undo
      none
    rw [hgrew.content_undo hedit none] at hundo
    exact (Option.some.inj hundo).symm
  refine ⟨⟨fun hundo => ?_, ?_⟩, fun hfree => ?_, ?_⟩
  · by_cases h : doc.TakesFirst edits
    · exact .inl h
    · rw [hrefused h] at hundo
      exact .inr hundo
  · rintro (h | hsame)
    · exact htaken h
    · by_cases h : doc.TakesFirst edits
      · exact htaken h
      · rw [hrefused h]
        exact hsame
  · have hsome : edits ≠ [] := by
      rintro rfl
      exact hchanges rfl
    exact htaken (Document.takesFirst_of_free hedit hfree hsome)
  · by_cases h : doc.TakesFirst edits
    · obtain ⟨hstands, hedited⟩ := h.stands hgrew hedit
      exact hstands.content_undo_redo hedited
    · obtain ⟨hstands, hedited⟩ := Document.stands_of_not_takesFirst h hgrew hedit hchanges
      exact hstands.content_undo_redo hedited

/-- A session without text. -/
def Session.notes : Session Unit :=
  ⟨.blank "." "+notes" {}, .empty, (), .point 0, true⟩

/-- A text is put in, and its first character is protected. -/
def Operation.prompt : List (Operation Unit) :=
  [.replace "abc".toList (.point 0) true .program, .protect (some 1)]

/-- The session on the text `abc` with its first character protected. -/
def Session.prompt : Session Unit :=
  Operation.run Operation.prompt .notes

/-- The document of the session has the text. -/
theorem Session.content_prompt : Session.prompt.document.content = "abc".toList := by
  set_option maxRecDepth 1000 in cbv

/-- The document of the session can be edited. -/
theorem Session.editable_prompt : Session.prompt.document.editable = true := by
  set_option maxRecDepth 1000 in cbv

/-- The characters behind the protected one, one edit for each. -/
theorem Session.undo_interpret_iff_prompt :
    (Session.prompt.interpret .silent "#1,$s/./x/").2.document.content = "axx".toList ∧
    ((Session.prompt.interpret .silent "#1,$s/./x/").2.document.undo (.point 0) false).1.content =
      Session.prompt.document.content ∧
    (((Session.prompt.interpret .silent "#1,$s/./x/").2.document.undo (.point 0)
      false).1.undo (.point 0) true).1.content =
        (Session.prompt.interpret .silent "#1,$s/./x/").2.document.content := by
  have hafter : (Session.prompt.interpret .silent "#1,$s/./x/").2.document.content =
      "axx".toList := by
    set_option maxRecDepth 1000 in cbv
  have hchanges : (Session.prompt.interpret .silent "#1,$s/./x/").2.document.content ≠
      Session.prompt.document.content := by
    rw [Session.content_prompt, hafter]
    decide
  have hedits : Session.prompt.edits .silent "#1,$s/./x/" =
      [⟨⟨1, 2⟩, ['x']⟩, ⟨⟨2, 3⟩, ['x']⟩] := by
    set_option maxRecDepth 2000 in cbv
  have haccept : Session.prompt.document.accept ⟨1, 2⟩ = .ok ⟨1, 2⟩ := by
    set_option maxRecDepth 1000 in cbv
  have htakes : Session.prompt.document.TakesFirst (Session.prompt.edits .silent "#1,$s/./x/") :=
    ⟨_, _, _, hedits, haccept⟩
  obtain ⟨hundo, _, hredo⟩ := Session.undo_interpret_iff .silent "#1,$s/./x/" Session.prompt
    Operation.prompt .notes (.blank "." "+notes" {} .plain) rfl Session.editable_prompt hchanges
    (.point 0) (.point 0)
  exact ⟨hafter, hundo.2 (.inl htakes), hredo⟩

/-- The protected character as well: its edit is refused, and undoing takes back everything. -/
theorem Session.not_undo_interpret :
    ¬∀ (env : Environment Unit) (program : String) (session start : Session Unit)
      (operations : List (Operation Unit)), start.document.Created →
      session.document = (Operation.run operations start).document →
      session.document.editable = true →
      (session.interpret env program).2.document.content ≠ session.document.content →
      ((session.interpret env program).2.document.undo (.point 0) false).1.content =
        session.document.content ∧
      (((session.interpret env program).2.document.undo (.point 0) false).1.undo (.point 0)
        true).1.content = (session.interpret env program).2.document.content := by
  intro h
  have hafter : (Session.prompt.interpret .silent ",s/./x/").2.document.content =
      "axx".toList := by
    set_option maxRecDepth 1000 in cbv
  have hundone : ((Session.prompt.interpret .silent ",s/./x/").2.document.undo (.point 0)
      false).1.content = [] := by
    set_option maxRecDepth 1000 in cbv
  have hchanges : (Session.prompt.interpret .silent ",s/./x/").2.document.content ≠
      Session.prompt.document.content := by
    rw [Session.content_prompt, hafter]
    decide
  obtain ⟨hrestored, _⟩ := h .silent ",s/./x/" .prompt .notes Operation.prompt
    (.blank "." "+notes" {} .plain) rfl Session.editable_prompt hchanges
  rw [Session.content_prompt, hundone] at hrestored
  cases hrestored

end Emend
