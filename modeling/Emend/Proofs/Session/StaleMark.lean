import Emend.Proofs.Session.SavedMark
import Mathlib

/-!
# What a stale mark leads to

A step that is not careful in the sense of `Operation.IsCareful` leaves a document that counts as
unmodified with a text that was neither read nor written, or one that gets there by a few steps
more. After a keystroke was added to a marked entry, undoing and redoing do it. After the history
was forgotten with the mark on the state without entries, so does any edit that is taken back. After
a listing was read, nothing more is needed.

So careful runs are exactly those after which, and after any further probing, the flag can be
trusted: `careful_iff_flag_true`. `not_flag_true` is a run of three steps for which it cannot.
-/

namespace Emend

variable {σ : Type} {saved : List Char} {doc : Document}

namespace Document

/-- The flag of the document tells the truth about the saved text. -/
def FlagIsTrue (saved : List Char) (doc : Document) : Prop :=
  doc.modified = false → doc.content = saved

/-- A mark that is added to marks a longer text. -/
theorem content_ne_of_continues {range : Selection} {text : List Char} {solid : Bool}
    {origin : EditOrigin} (h : doc.Honest saved) (hrange : range.IsWithin doc.size)
    (hmarked : doc.history.ContinuesMarked (doc.entryFor text range solid origin) doc.clock) :
    splice doc.content range text ≠ saved := by
  obtain ⟨previous, older, happlied, hsaved, hgoes⟩ := hmarked
  -- The text before is the saved one, and the keystroke only adds to it.
  have hcontent : doc.content = saved := by
    obtain ⟨base, last, hline, hbase⟩ := h.marks
    refine content_of_isSaved hline hbase ?_
    rw [History.isSaved, happlied]
    exact hsaved
  have hwithin : range.IsWithin doc.content.length := by
    rw [length_content h.valid]
    exact hrange
  have htext : doc.text range = sliceOf doc.content range := by
    rw [text_eq_sliceOf h.valid, Selection.clamp_of_isWithin hrange]
  unfold History.continues HistoryEntry.isTyping entryFor Passage.at at hgoes
  simp only [Bool.and_eq_true, beq_iff_eq, List.isEmpty_iff] at hgoes
  obtain ⟨⟨⟨⟨_, _⟩, ⟨⟨hnone, hone⟩, _⟩⟩, _⟩, _⟩ := hgoes
  have hempty : range.length = 0 := by
    rw [← length_sliceOf hwithin, ← htext, hnone]
    rfl
  have hlength : (splice doc.content range text).length + range.length =
      doc.content.length + text.length := length_splice hwithin
  intro heq
  rw [heq, ← hcontent] at hlength
  omega

/-- **Undo and redo come back to a stale mark.** -/
theorem stale_after_continues {target range : Selection} {text : List Char} {solid : Bool}
    {origin : EditOrigin} {after : Document} (skip : Option SelectionHandle)
    (h : doc.Honest saved) (haccept : doc.accept target = .ok range)
    (hmarked : doc.history.ContinuesMarked (doc.entryFor text range solid origin) doc.clock)
    (hbuffer : after.buffer = (doc.replaceAccepted text range skip solid origin).buffer)
    (hhistory : after.history = (doc.replaceAccepted text range skip solid origin).history)
    (hedit : after.editable = true) :
    ¬ ((after.travel false none).1.travel true none).1.FlagIsTrue saved := by
  have hrange := isWithin_of_accept haccept
  obtain ⟨base, last, hline, _⟩ := h.marks
  have hany : doc.OnTimeline anyEntry base last := ⟨hline.valid, hline.timeline.any⟩
  have hafter : after.OnTimeline anyEntry base (splice doc.content range text) :=
    (hany.replaceAccepted skip haccept trivial fun _ _ _ _ => trivial).congr hbuffer hhistory
  have hcontent : after.content = splice doc.content range text := by
    rw [content_eq_toList, hbuffer]
    exact content_replaceAccepted h.valid hrange
  -- The newest entry is the longer one, which has kept its mark.
  obtain ⟨previous, older, happlied, hsaved, hgoes⟩ := hmarked
  have hadd : after.history = { doc.history with
      applied := previous.goOn (doc.entryFor text range solid origin) doc.clock :: older
      undone := [] } := by
    rw [hhistory, history_replaceAccepted, History.add, happlied]
    exact if_pos hgoes
  -- There is nothing left to redo, so undo and redo come back to that entry.
  obtain ⟨hsame, hflag⟩ := hafter.undo_redo hedit (by rw [hadd]) (by rw [hadd]; rfl)
  intro htrue
  have hunmodified : ((after.travel false none).1.travel true none).1.modified = false := by
    rw [hflag, hadd, History.isSaved]
    exact congrArg (!·) hsaved
  have hne := content_ne_of_continues h hrange ⟨previous, older, happlied, hsaved, hgoes⟩
  exact hne (hcontent.symm.trans (hsame.symm.trans (htrue hunmodified)))

/-- **Taking back an edit comes back to a stale mark** that was left on the state without
entries. -/
theorem stale_after_flush (h : doc.Honest saved) (hblank : doc.history.blankIsSaved = true)
    (hne : doc.content ≠ saved) (text : List Char) (sel : Selection) :
    ¬ ((doc.flushHistory.replace text sel true .program).1.undo sel false).1.FlagIsTrue saved := by
  -- After the flush a timeline without entries begins, and the edit is the first one on it.
  have hedit : doc.flushHistory.editable = true := h.editable
  have hline : doc.flushHistory.OnTimeline anyEntry doc.content doc.content :=
    ⟨h.valid, .nil, .nil⟩
  have haccept : doc.flushHistory.accept sel = .ok (sel.clamp doc.size) := by
    unfold accept
    rw [hedit, show doc.flushHistory.protected? = none from h.unprotected]
    rfl
  have hafter : (doc.flushHistory.replaceAccepted text (sel.clamp doc.size) none true
      .program).OnTimeline anyEntry doc.content _ :=
    hline.replaceAccepted none haccept trivial fun _ _ _ _ => trivial
  have hreplace : (doc.flushHistory.replace text sel true .program).1 =
      doc.flushHistory.replaceAccepted text (sel.clamp doc.size) none true .program := by
    unfold replace replaceSkipping
    rw [haccept]
  rw [hreplace]
  have hedit' : (doc.flushHistory.replaceAccepted text (sel.clamp doc.size) none true
      .program).editable = true :=
    editable_replaceAccepted.trans hedit
  have hone : (doc.flushHistory.replaceAccepted text (sel.clamp doc.size) none true
      .program).history.applied.length = 1 := by
    rw [history_replaceAccepted]
    rfl
  have hstill : (doc.flushHistory.replaceAccepted text (sel.clamp doc.size) none true
      .program).history.blankIsSaved = true := by
    rw [history_replaceAccepted, History.blankIsSaved_add]
    exact hblank
  generalize doc.flushHistory.replaceAccepted text (sel.clamp doc.size) none true .program =
    edited at hafter hedit' hone hstill
  -- One entry, taken back: the state without entries is there again, with the base as its text.
  have hcan : edited.history.canUndo = true := by
    rw [History.canUndo, Bool.not_eq_eq_eq_not, Bool.not_true, List.isEmpty_eq_false_iff]
    intro hempty
    rw [hempty] at hone
    cases hone
  have hnone : (edited.travel false none).1.history.applied = [] := by
    have hlt := length_applied_travel_lt none hedit' hcan
    rw [hone] at hlt
    exact List.eq_nil_of_length_eq_zero (Nat.lt_one_iff.1 hlt)
  -- So the document counts as unmodified with a text other than the saved one.
  intro htrue
  have hunmodified : (edited.travel false none).1.modified = false := by
    rw [modified_travel false none hedit' hcan, History.isSaved, hnone]
    dsimp only
    rw [(entries_travel edited false none).2, hstill]
    rfl
  have hbase := (hafter.travel false none).timeline.content_eq_base
    (by rw [History.canUndo, hnone]; rfl)
  exact hne (hbase.symm.trans (htrue hunmodified))

/-- A listing of another text is shown as unmodified. -/
theorem stale_after_listing {files : FileSystem} {text : List Char} (create : Bool)
    (h : doc.Honest saved)
    (hload : files.load doc.path doc.maxFileSize = .ok (.listing text)) (hne : text ≠ saved) :
    ∃ after, doc.reload files create = .ok after ∧ ¬ after.FlagIsTrue saved := by
  have hname : ({ doc with name := if doc.name.endsWith "/" then doc.name else doc.name ++ "/" } :
      Document).Honest saved := h.congr rfl rfl rfl rfl rfl
  have hcontent := content_replaceAll hname text
  unfold Document.reload
  rw [hload]
  exact ⟨_, rfl, fun htrue => hne (hcontent.symm.trans (htrue rfl))⟩

end Document

namespace Operation

/-- The operations that show whether the flag can be trusted: undo, redo, and edits that begin a
step. -/
def IsProbe : Operation σ → Prop
  | .undo _ _ => True
  | .replace _ _ solid origin => solid = true ∧ origin = .program
  | _ => False

/-- A probe does not change what edits are let through. -/
theorem IsProbe.keepsAccess {operation : Operation σ} (h : operation.IsProbe) :
    operation.KeepsAccess := by
  cases operation <;> first | exact h.elim | trivial

/-- Probing is careful. -/
theorem IsProbe.isCareful {operation : Operation σ} (h : operation.IsProbe) (session : Session σ)
    (saved : List Char) : operation.IsCareful session saved := by
  cases operation with
  | undo sel redo => trivial
  | replace text target solid origin =>
    obtain ⟨rfl, rfl⟩ := h
    rintro ⟨range, _, hmarked⟩
    exact Document.not_continuesMarked_of_solid session.document text range (by decide) _ hmarked
  | _ => exact h.elim

/-- Probes are careful. -/
theorem runIsCareful_of_probes {operations : List (Operation σ)}
    (h : ∀ operation ∈ operations, operation.IsProbe) (session : Session σ) (saved : List Char) :
    RunIsCareful operations session saved := by
  induction operations generalizing session saved with
  | nil => trivial
  | cons operation rest ih =>
    exact ⟨(h operation List.mem_cons_self).isCareful session saved,
      ih (fun other hmem => h other (List.mem_cons_of_mem _ hmem)) _ _⟩

/-- Probing reads and writes no file. -/
theorem savedOfRun_of_probes {operations : List (Operation σ)}
    (h : ∀ operation ∈ operations, operation.IsProbe) (session : Session σ) (saved : List Char) :
    savedOfRun operations session saved = saved := by
  induction operations generalizing session saved with
  | nil => rfl
  | cons operation rest ih =>
    have hfirst := h operation List.mem_cons_self
    have hsame : operation.savedAfter session saved = saved := by
      cases operation <;> first | exact hfirst.elim | rfl
    have hrest := ih (fun other hmem => h other (List.mem_cons_of_mem _ hmem))
      (operation.perform session) saved
    rw [savedOfRun, hsame, hrest]

end Operation

/-- **A careless step can be caught.** -/
theorem exists_probes_of_not_careful {operation : Operation σ} {session : Session σ}
    (h : session.document.Honest saved) (hcareless : ¬ operation.IsCareful session saved) :
    ∃ probes : List (Operation σ), (∀ probe ∈ probes, probe.IsProbe) ∧
      operation.savedAfter session saved = saved ∧
      ¬ (Operation.run (operation :: probes) session).document.FlagIsTrue saved := by
  have hundoRedo : ∀ probe ∈ ([.undo (.point 0) false, .undo (.point 0) true] :
      List (Operation σ)), probe.IsProbe := by
    intro probe hmem
    simp only [List.mem_cons, List.not_mem_nil, or_false] at hmem
    rcases hmem with rfl | rfl <;> trivial
  cases operation with
  | replace text target solid origin =>
    -- The keystroke is added to the marked entry; undo and redo come back to it.
    obtain ⟨range, haccept, hmarked⟩ := Classical.not_not.1 hcareless
    have hafter : (session.document.replace text target solid origin).1 =
        session.document.replaceAccepted text range none solid origin := by
      unfold Document.replace Document.replaceSkipping
      rw [haccept]
    refine ⟨[.undo (.point 0) false, .undo (.point 0) true], hundoRedo, rfl, ?_⟩
    apply Document.stale_after_continues none h haccept hmarked
    · exact congrArg Document.buffer hafter
    · exact congrArg Document.history hafter
    · exact (congrArg Document.editable hafter).trans
        (Document.editable_replaceAccepted.trans h.editable)
  | replaceAt text handle solid origin =>
    -- The same for a registered selection, which is moved besides.
    simp only [Operation.IsCareful, Classical.not_forall, Classical.not_not] at hcareless
    obtain ⟨target, hget, range, haccept, hmarked⟩ := hcareless
    have hafter : session.document.replaceAt text handle solid origin =
        { session.document.replaceAccepted text range (some handle) solid origin with
          selections := (session.document.replaceAccepted text range (some handle) solid
            origin).selections.set handle (.point (range.start + text.length)) } := by
      unfold Document.replaceAt Document.replaceSkipping
      rw [hget]
      dsimp only
      rw [haccept]
    refine ⟨[.undo (.point 0) false, .undo (.point 0) true], hundoRedo, rfl, ?_⟩
    apply Document.stale_after_continues (some handle) h haccept hmarked
    · show (session.document.replaceAt text handle solid origin).buffer = _
      rw [hafter]
    · show (session.document.replaceAt text handle solid origin).history = _
      rw [hafter]
    · show (session.document.replaceAt text handle solid origin).editable = true
      rw [hafter]
      exact Document.editable_replaceAccepted.trans h.editable
  | flushHistory =>
    simp only [Operation.IsCareful, Classical.not_forall] at hcareless
    obtain ⟨hblank, hne⟩ := hcareless
    -- Any edit will do, even one that changes nothing.
    refine ⟨[.replace [] (.point 0) true .program, .undo (.point 0) false], ?_, rfl,
      Document.stale_after_flush h hblank hne [] (.point 0)⟩
    intro probe hmem
    simp only [List.mem_cons, List.not_mem_nil, or_false] at hmem
    rcases hmem with rfl | rfl
    · exact ⟨rfl, rfl⟩
    · trivial
  | reload create =>
    -- A listing is stale at once, without a probe.
    simp only [Operation.IsCareful, Classical.not_forall] at hcareless
    obtain ⟨text, hload, hne⟩ := hcareless
    obtain ⟨after, hreload, hstale⟩ := Document.stale_after_listing create h hload hne
    refine ⟨[], ?_, ?_, ?_⟩
    · intro probe hmem
      cases hmem
    · simp only [Operation.savedAfter, Document.savedByReload, hload]
    · rw [Operation.run_cons, Operation.run_nil]
      simp only [Operation.perform, hreload]
      exact hstale
  | _ => exact (hcareless trivial).elim

/-- After careful steps the flag is right, whatever probing follows. -/
theorem flag_true_of_careful {session : Session σ} (h : session.document.Honest saved)
    {operations probes : List (Operation σ)}
    (haccess : ∀ operation ∈ operations, operation.KeepsAccess)
    (hcareful : Operation.RunIsCareful operations session saved)
    (hprobes : ∀ probe ∈ probes, probe.IsProbe) :
    (Operation.run (operations ++ probes) session).document.FlagIsTrue
      (Operation.savedOfRun (operations ++ probes) session saved) := by
  have hall : ∀ operation ∈ operations ++ probes, operation.KeepsAccess := by
    intro operation hmem
    rcases List.mem_append.1 hmem with hmem | hmem
    · exact haccess operation hmem
    · exact (hprobes operation hmem).keepsAccess
  have hcarefulAll := (Operation.runIsCareful_append operations probes session saved).2
    ⟨hcareful, Operation.runIsCareful_of_probes hprobes _ _⟩
  exact (h.run hall hcarefulAll).flag

/-- If the flag is right whatever probing follows, the steps were careful. -/
theorem careful_of_flag_true {session : Session σ} (h : session.document.Honest saved)
    {operations : List (Operation σ)}
    (haccess : ∀ operation ∈ operations, operation.KeepsAccess)
    (htrue : ∀ front probes : List (Operation σ), front <+: operations →
      (∀ probe ∈ probes, probe.IsProbe) →
      (Operation.run (front ++ probes) session).document.FlagIsTrue
        (Operation.savedOfRun (front ++ probes) session saved)) :
    Operation.RunIsCareful operations session saved := by
  induction operations generalizing session saved with
  | nil => trivial
  | cons operation rest ih =>
    have hfirst : operation.IsCareful session saved := by
      apply Classical.byContradiction
      intro hcareless
      obtain ⟨probes, hprobes, hsaved, hstale⟩ := exists_probes_of_not_careful h hcareless
      have hflag := htrue [operation] probes (List.prefix_append [operation] rest) hprobes
      rw [List.singleton_append, Operation.savedOfRun, hsaved,
        Operation.savedOfRun_of_probes hprobes] at hflag
      exact hstale hflag
    -- After a careful step the invariant holds, and what is assumed of the run holds of the rest.
    refine ⟨hfirst, ih (h.perform (haccess operation List.mem_cons_self) hfirst)
      (fun other hmem => haccess other (List.mem_cons_of_mem _ hmem)) ?_⟩
    intro front probes hfront hprobes
    exact htrue (operation :: front) probes ((List.prefix_cons_inj operation).2 hfront) hprobes

/-- **When the flag can be trusted.** A document was opened from a regular file. After a run of
operations, after every beginning of it, and after any probing of these, the document has the text
that was last read or written whenever it counts as unmodified, if and only if every step of the run
was careful. -/
theorem careful_iff_flag_true {session : Session σ} (hopened : session.document.OpenedFrom saved)
    {operations : List (Operation σ)}
    (haccess : ∀ operation ∈ operations, operation.KeepsAccess) :
    Operation.RunIsCareful operations session saved ↔
      ∀ front probes : List (Operation σ), front <+: operations →
        (∀ probe ∈ probes, probe.IsProbe) →
        (Operation.run (front ++ probes) session).document.FlagIsTrue
          (Operation.savedOfRun (front ++ probes) session saved) := by
  constructor
  · intro hcareful front probes hfront hprobes
    obtain ⟨rest, rfl⟩ := hfront
    have hfrontCareful := ((Operation.runIsCareful_append front rest session saved).1 hcareful).1
    exact flag_true_of_careful hopened.honest
      (fun operation hmem => haccess operation (List.mem_append_left rest hmem)) hfrontCareful
      hprobes
  · exact careful_of_flag_true hopened.honest haccess

/-! ## A file with one letter -/

/-- A document that was opened from a file with one letter. The second part says what comes of
typing at its end, undoing and redoing: the flag and the text. -/
theorem opened_and_typed :
    ∃ doc : Document, doc.OpenedFrom ['x'] ∧
      (Operation.run [.replace ['y'] (.point 1) true .keyboard, .undo (.point 0) false,
        .undo (.point 0) true] (⟨doc, .empty, (), .point 0, true⟩ : Session Unit)).document.modified
          = false ∧
      (Operation.run [.replace ['y'] (.point 1) true .keyboard, .undo (.point 0) false,
        .undo (.point 0) true] (⟨doc, .empty, (), .point 0, true⟩ : Session Unit)).document.content
          = ['x', 'y'] := by
  have hload : (⟨[(["f"], .file [120] false)]⟩ : FileSystem).load (Path.join "." "f")
      (({} : Settings).maxFileSize) = .ok (.text ['x']) := by
    cbv
  have hname : Document.isScratchName "f" = false := by
    cbv
  have hrun : (Document.openIn ⟨[(["f"], .file [120] false)]⟩ "." "f" false {}).map (fun doc =>
      let after := (Operation.run [.replace ['y'] (.point 1) true .keyboard,
        .undo (.point 0) false, .undo (.point 0) true]
        (⟨doc, .empty, (), .point 0, true⟩ : Session Unit)).document
      (after.modified, after.content)) = .ok (false, ['x', 'y']) := by
    cbv
  cases hopen : Document.openIn ⟨[(["f"], .file [120] false)]⟩ "." "f" false {} with
  | error error =>
    rw [hopen] at hrun
    cases hrun
  | ok doc =>
    rw [hopen] at hrun
    obtain ⟨hmodified, hcontent⟩ := Prod.mk.inj (Except.ok.inj hrun)
    have hopened : doc.OpenedFrom ['x'] := ⟨_, ".", "f", false, {}, hopen, hname, hload⟩
    exact ⟨doc, hopened, hmodified, hcontent⟩

/-- Forgetting the history right after opening, where the flag stays right. -/
theorem careful_iff_flag_true_flush :
    ∃ doc : Document, doc.OpenedFrom ['x'] ∧
      (∀ operation ∈ ([.flushHistory] : List (Operation Unit)), operation.KeepsAccess) ∧
      (Operation.RunIsCareful [.flushHistory]
          (⟨doc, .empty, (), .point 0, true⟩ : Session Unit) ['x'] ↔
        ∀ front probes : List (Operation Unit), front <+: [.flushHistory] →
          (∀ probe ∈ probes, probe.IsProbe) →
          (Operation.run (front ++ probes)
            (⟨doc, .empty, (), .point 0, true⟩ : Session Unit)).document.FlagIsTrue
            (Operation.savedOfRun (front ++ probes)
              (⟨doc, .empty, (), .point 0, true⟩ : Session Unit) ['x'])) := by
  obtain ⟨doc, hopened, _⟩ := opened_and_typed
  have haccess : ∀ operation ∈ ([.flushHistory] : List (Operation Unit)),
      operation.KeepsAccess := by
    intro operation hmem
    cases List.mem_singleton.1 hmem
    trivial
  exact ⟨doc, hopened, haccess,
    careful_iff_flag_true hopened haccess⟩

/-- **The flag cannot always be trusted.** A letter typed at the end of what was just read is added
to the entry that reading made, which keeps its mark; undo and redo come back to that entry. -/
theorem not_flag_true :
    ¬ ∀ (session : Session Unit) (saved : List Char) (operations : List (Operation Unit)),
      session.document.OpenedFrom saved →
      (∀ operation ∈ operations, operation.KeepsAccess) →
      (Operation.run operations session).document.FlagIsTrue
        (Operation.savedOfRun operations session saved) := by
  intro hall
  obtain ⟨doc, hopened, hmodified, hcontent⟩ := opened_and_typed
  have htrue := hall ⟨doc, .empty, (), .point 0, true⟩ ['x']
    [.replace ['y'] (.point 1) true .keyboard, .undo (.point 0) false, .undo (.point 0) true]
    hopened ?_ hmodified
  · rw [hcontent] at htrue
    cases htrue
  · intro operation hmem
    simp only [List.mem_cons, List.not_mem_nil, or_false] at hmem
    rcases hmem with rfl | rfl | rfl <;> trivial

end Emend
