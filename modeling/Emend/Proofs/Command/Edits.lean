import Emend.Proofs.Command.Failing

/-!
# A program is its edits

Whether a command edits at once or leaves its edits to be collected, the document comes out the
same if the collected edits are applied in the end: `sameDocument_execute`. So what a whole program
does to its document is to make a list of edits, one after the other, the first of which begins a
step of the history: `document_interpret`. Where the document does not take an edit, that one is
left out, and it counts as the first all the same.
-/

namespace Emend

/-- The document after replacements one after the other. Only the first of them may begin a step of
the history. -/
def Document.replaceEach (doc : Document) (solid : Bool) : List Replacement → Document
  | [] => doc
  | replacement :: rest =>
    (doc.replace replacement.text replacement.range solid .program).1.replaceEach false rest

namespace Run

variable {σ α β : Type} {env : Environment σ}

/-! ## Making edits -/

/-- An edit replaces, and the next one is not the first any more. -/
theorem edit_eq_replace (replacement : Replacement) (session : Session σ) :
    ∃ sel after, edit replacement session = (.ok sel, after) ∧ after.fresh = false ∧
      after.document =
        (session.document.replace replacement.text replacement.range session.fresh .program).1 := by
  unfold edit step Document.replace Document.replaceSkipping
  dsimp only
  cases session.document.accept replacement.range with
  | error sel => exact ⟨_, _, rfl, rfl, rfl⟩
  | ok range => exact ⟨_, _, rfl, rfl, rfl⟩

/-- Edits in turn do to the document what replacements in turn do. -/
theorem document_editAll (replacements : List Replacement) (session : Session σ) :
    (editAll replacements session).2.document =
      session.document.replaceEach session.fresh replacements := by
  induction replacements generalizing session with
  | nil => rfl
  | cons replacement rest ih =>
    obtain ⟨sel, after, hedit, hfresh, hdocument⟩ := edit_eq_replace replacement session
    unfold editAll
    rw [bind_ok hedit, ih after, hfresh, hdocument]
    rfl

/-- What is released is put in order first. -/
theorem document_release (replacements : List Replacement) (session : Session σ) :
    (release false replacements session).2.document =
      session.document.replaceEach session.fresh
        (Replacement.inTurn 0 (Replacement.arrange replacements)) := by
  rw [← document_editAll]
  unfold release
  rw [if_neg Bool.false_ne_true]
  obtain ⟨value, after, hall⟩ := unfailing_editAll
    (Replacement.inTurn 0 (Replacement.arrange replacements)) session
  rw [bind_ok hall, hall]
  rfl

/-- One edit is arranged as it is. -/
theorem inTurn_arrange_singleton {replacement : Replacement}
    (h : replacement.range.start ≤ replacement.range.stop) :
    Replacement.inTurn 0 (Replacement.arrange [replacement]) = [replacement] := by
  have harrange : Replacement.arrange [replacement] = [replacement] := by
    unfold Replacement.arrange
    rw [List.mergeSort_singleton]
    rfl
  have hmoved : replacement.moved 0 = replacement := by
    obtain ⟨⟨start, stop⟩, text⟩ := replacement
    have hstop : start + (stop - start) = stop := Nat.add_sub_cancel' h
    simp only [Replacement.moved, Selection.length, Int.add_zero, Int.toNat_natCast, hstop]
  rw [harrange, Replacement.inTurn, hmoved]
  rfl

/-! ## Editing at once and in the end -/

/-- Both actions leave the same document. -/
def SameDocument (first : Run σ α) (second : Run σ β) : Prop :=
  ∀ session, (first session).2.document = (second session).2.document

/-- Runs that go on in the same way after the same action come to the same document. -/
theorem SameDocument.bind {γ : Type} (action : Run σ γ) {next : γ → Run σ α}
    {other : γ → Run σ β} (h : ∀ value, SameDocument (next value) (other value)) :
    SameDocument (action >>= next) (action >>= other) := by
  intro session
  rw [bind_apply, bind_apply]
  rcases action session with ⟨error | value, after⟩
  · rfl
  · exact h value after

/-- The range that an address names is in order. -/
theorem SameDocument.bindEvaluate (range : Address) {next : Selection → Run σ α}
    {other : Selection → Run σ β}
    (h : ∀ sel : Selection, sel.start ≤ sel.stop → SameDocument (next sel) (other sel)) :
    SameDocument (evaluate range >>= next) (evaluate range >>= other) := by
  intro session
  rw [bind_apply, bind_apply]
  unfold evaluate
  cases hsel : range.evaluate session.document.source session.dot with
  | error error => rfl
  | ok sel => exact h sel (isWithin_of_evaluate hsel).1 session

/-- What comes after an action may leave the document alone. -/
theorem SameDocument.bindStill {action : Run σ α} {next : α → Run σ β}
    (h : ∀ value, Still (next value)) : SameDocument (action >>= next) action := by
  intro session
  rw [bind_apply]
  rcases action session with ⟨error | value, after⟩
  · rfl
  · exact h value after

/-- Giving a value leaves the document as it is. -/
theorem still_pure (value : α) : Still (Pure.pure value : Run σ α) :=
  fun _ => rfl

/-- Without edits there is nothing to release. -/
theorem sameDocument_nothing : SameDocument (Pure.pure [] : Run σ (List Replacement))
    (release false [] : Run σ (List Replacement)) := by
  intro session
  rw [release_nil]
  rfl

/-- What is put in place of a range leaves the document that releasing it leaves. -/
theorem document_put {replacement : Replacement}
    (h : replacement.range.start ≤ replacement.range.stop)
    {next : Selection × List Replacement → Run σ α} (hnext : ∀ result, Still (next result))
    (session : Session σ) :
    ((put false replacement >>= next) session).2.document =
      session.document.replaceEach session.fresh
        (Replacement.inTurn 0 (Replacement.arrange [replacement])) := by
  obtain ⟨sel, after, hedit, _, hdocument⟩ := edit_eq_replace replacement session
  have hput : put false replacement session = (.ok (sel, []), after) := by
    unfold put
    rw [if_neg Bool.false_ne_true, bind_ok hedit]
    rfl
  rw [bind_ok hput, hnext (sel, []) after, hdocument, inTurn_arrange_singleton h]
  rfl

/-- A text put in at once comes to the same as one that is collected and then released. -/
theorem sameDocument_put {replacement : Replacement}
    (h : replacement.range.start ≤ replacement.range.stop)
    {next : Selection × List Replacement → Run σ α} (hnext : ∀ result, Still (next result)) :
    SameDocument (put false replacement >>= next)
      (release false [replacement] : Run σ (List Replacement)) := by
  intro session
  rw [document_put h hnext, document_release]

/-- Dot is of no matter to what is released. -/
theorem sameDocument_put_setDot {replacement : Replacement}
    (h : replacement.range.start ≤ replacement.range.stop)
    {next : Selection × List Replacement → Run σ α} (hnext : ∀ result, Still (next result))
    (sel : Selection) :
    SameDocument (put false replacement >>= next)
      (setDot sel >>= fun _ => release false [replacement] : Run σ (List Replacement)) := by
  intro session
  have hdot : (setDot sel : Run σ Unit) session =
      (.ok (), { session with dot := sel.clamp session.document.size }) := rfl
  rw [document_put h hnext, bind_ok hdot, document_release]

/-- Setting dot leaves the document as it is. -/
theorem still_setDot_pure (sel : Selection) (value : α) :
    Still (do
      setDot sel
      return value : Run σ α) :=
  fun _ => rfl

/-- What is collected is handed on with its range. -/
@[simp]
theorem put_collecting (replacement : Replacement) :
    (put true replacement : Run σ (Selection × List Replacement)) =
      Pure.pure (replacement.range, [replacement]) := by
  unfold put
  rw [if_pos rfl]

/-- A transfer at once comes to the same as a collected one that is released. -/
theorem sameDocument_transfer (moving : Bool) (range : Selection) (target : Nat) :
    SameDocument (transfer false moving range target : Run σ (List Replacement))
      (transfer true moving range target >>= release false) := by
  unfold transfer
  dsimp only
  split
  · exact fun _ => rfl
  · simp only [bind_assoc, release_collecting, pure_bind]
    refine .bind (textOf range) fun text => ?_
    exact .bindStill fun edits => still_setDot_pure _ edits

variable (env)

/-- A job comes to the same, whether its output is put in at once or collected. -/
theorem sameDocument_pipe (kind : Pipe) (range : Address) (command : String) :
    SameDocument (pipe env false kind range command)
      (pipe env true kind range command >>= release false) := by
  unfold pipe
  cases kind with
  | input =>
    simp only [bind_assoc]
    refine .bind (job env _ _) fun output => ?_
    cases output with
    | none => exact sameDocument_nothing
    | some output =>
      -- The place of the output is worked out after the job has run.
      dsimp only
      simp only [bind_assoc, put_collecting, pure_bind]
      refine .bindEvaluate range fun sel hsel => ?_
      exact sameDocument_put_setDot hsel (fun _ => still_setDot_pure _ _) sel
  | output =>
    -- What the job writes is printed.
    simp only [bind_assoc]
    refine .bind (evaluate range) fun sel => .bind (setDot sel) fun _ => ?_
    refine .bind (textOf sel) fun text => .bind (job env _ _) fun output => ?_
    split
    · rw [bind_assoc]
      exact .bind (print env _) fun _ => sameDocument_nothing
    · exact sameDocument_nothing
  | filter =>
    simp only [bind_assoc]
    refine .bindEvaluate range fun sel hsel => .bind (setDot sel) fun _ => ?_
    refine .bind (textOf sel) fun text => .bind (job env _ _) fun output => ?_
    cases output with
    | none => exact sameDocument_nothing
    | some output =>
      dsimp only
      simp only [bind_assoc, put_collecting, pure_bind]
      exact sameDocument_put_setDot hsel (fun _ => still_setDot_pure _ _) sel

/-- A file comes to the same, whether its text is put in at once or collected. -/
theorem sameDocument_file (use : FileUse) (range : Address) (name : String) :
    SameDocument (file env false use range name)
      (file env true use range name >>= release false) := by
  unfold file
  cases use with
  | edit =>
    simp only [bind_assoc]
    refine .bind (readFile env name) fun text => ?_
    cases text with
    | none => exact sameDocument_nothing
    | some text =>
      dsimp only
      simp only [bind_assoc, put_collecting, pure_bind]
      refine .bind (look _) fun size => ?_
      exact sameDocument_put_setDot (Nat.zero_le size) (fun _ => still_setDot_pure _ _) (.point 0)
  | read =>
    simp only [bind_assoc]
    refine .bindEvaluate range fun sel hsel => .bind (setDot sel) fun _ => ?_
    refine .bind (readFile env name) fun text => ?_
    cases text with
    | none => exact sameDocument_nothing
    | some text =>
      dsimp only
      simp only [bind_assoc, put_collecting, pure_bind]
      exact sameDocument_put_setDot hsel (fun _ => still_setDot_pure _ _) sel
  | write =>
    simp only [bind_assoc]
    refine .bind (evaluate range) fun sel => .bind (setDot sel) fun _ => ?_
    refine .bind (look _) fun size => .bind (writeFile env name _) fun _ => ?_
    exact sameDocument_nothing

/-- **Editing at once comes to the same as collecting and then releasing.** -/
theorem sameDocument_execute (command : Command) :
    SameDocument (execute env false command) (execute env true command >>= release false) := by
  cases command with
  | goto range =>
    -- A command without edits has nothing to release.
    rw [execute, execute, bind_assoc]
    refine .bind (evaluate range) fun sel => ?_
    rw [bind_assoc]
    exact .bind (setDot sel) fun _ => sameDocument_nothing
  | place placement range _ text =>
    -- A command with one edit releases it alone, where it stands.
    rw [execute, execute, bind_assoc]
    refine .bindEvaluate range fun sel hsel => ?_
    cases placement with
    | after =>
      simp only [put_collecting, pure_bind]
      exact sameDocument_put (Nat.le_refl _) fun _ => still_pure _
    | before =>
      simp only [put_collecting, pure_bind]
      exact sameDocument_put (Nat.le_refl _) fun _ => still_pure _
    | instead =>
      simp only [bind_assoc, put_collecting, pure_bind]
      exact sameDocument_put_setDot hsel (fun _ => still_setDot_pure _ _) sel
  | delete range =>
    rw [execute, execute, bind_assoc]
    refine .bindEvaluate range fun sel hsel => ?_
    simp only [bind_assoc, put_collecting, pure_bind]
    exact sameDocument_put_setDot hsel (fun _ => still_setDot_pure _ _) sel
  | substitute range nth delimiter regex replacement all =>
    -- A command with several edits collects them, also when it edits at once.
    rw [execute_eq_gather rfl]
    exact fun _ => rfl
  | transfer moving range target =>
    rw [execute, execute]
    simp only [bind_assoc]
    refine .bind (evaluate range) fun sel => .bind (evaluate target) fun behind => ?_
    exact sameDocument_transfer moving sel behind.stop
  | print range =>
    rw [execute, execute]
    simp only [bind_assoc]
    refine .bind (evaluate range) fun sel => .bind (setDot sel) fun _ => ?_
    exact .bind (textOf sel) fun text => .bind (print env _) fun _ => sameDocument_nothing
  | position range argument =>
    rw [execute, execute]
    simp only [bind_assoc]
    refine .bind (evaluate range) fun sel => .bind (setDot sel) fun _ => ?_
    exact .bind (printPosition env argument sel) fun _ => sameDocument_nothing
  | visit kind range delimiter regex body =>
    have hbody := sameDocument_execute body
    cases kind with
    -- A condition runs its body in the same way or does nothing.
    | ifFound =>
      rw [execute, execute]
      simp only [bind_assoc]
      refine .bind (evaluate range) fun sel => .bind (setDot sel) fun _ => ?_
      refine .bind (look _) fun text => ?_
      split
      · exact hbody
      · exact sameDocument_nothing
    | unlessFound =>
      rw [execute, execute]
      simp only [bind_assoc]
      refine .bind (evaluate range) fun sel => .bind (setDot sel) fun _ => ?_
      refine .bind (look _) fun text => ?_
      split
      · exact sameDocument_nothing
      · exact hbody
    -- A loop collects what its body edits.
    | eachMatch =>
      rw [execute_eq_gather rfl]
      exact fun _ => rfl
    | eachGap =>
      rw [execute_eq_gather rfl]
      exact fun _ => rfl
  | pipe kind range command =>
    rw [execute, execute]
    exact sameDocument_pipe env kind range command
  | file use range name =>
    rw [execute, execute]
    exact sameDocument_file env use range name
  | block range commands =>
    rw [execute_eq_gather rfl]
    exact fun _ => rfl

end Run

/-! ## Programs -/

variable {σ : Type}

/-- The edits of a program, in the order in which they are made and each at its place in the text
that the ones before it leave. -/
def Session.edits (env : Environment σ) (program : String) (session : Session σ) :
    List Replacement :=
  match Command.parse program with
  | .error _ => []
  | .ok command =>
    match (Run.execute env true command session.begun).1 with
    | .error _ => []
    | .ok gathered => Replacement.inTurn 0 (Replacement.arrange gathered)

/-- Collecting edits makes no difference to whether the next one is the first. -/
theorem Run.Spares.fresh_eq {env : Environment σ} {α : Type} {action : Run σ α}
    (h : Run.Spares env action) (session : Session σ) :
    (action session).2.fresh = session.fresh := by
  induction h generalizing session with
  | bind first rest ihFirst ihRest =>
    rw [Run.bind_apply]
    have hfirst := ihFirst session
    split
    · next value after haction =>
      rw [haction] at hfirst
      rw [ihRest value after, hfirst]
    · next error after haction =>
      rw [haction] at hfirst
      exact hfirst
  | withDot sel inside ih => exact ih { session with dot := sel.clamp session.document.size }
  | attempt inside ih => exact ih session
  | job command input =>
    have hkeeps : Run.Keeps (fun _ fresh => fresh = session.fresh) Run.anyResult
        (Run.job env command input) :=
      Run.keeps_job env command input
    exact (hkeeps session rfl).1
  | _ => rfl

/-- **A program makes its edits, one after the other, and does nothing else to its document.** -/
theorem Session.document_interpret (env : Environment σ) (program : String) (session : Session σ) :
    (session.interpret env program).2.document =
      session.document.replaceEach true (session.edits env program) := by
  unfold Session.interpret Session.edits
  cases Command.parse program with
  | error error => rfl
  | ok command =>
    have hspares : Run.Spares env (Run.execute env true command) := Run.spares_execute command
    have hdocument := hspares.document_eq session.begun
    have hfresh := hspares.fresh_eq session.begun
    show (Run.execute env false command session.begun).2.document = _
    rw [Run.sameDocument_execute env command session.begun, Run.bind_apply]
    dsimp only
    generalize Run.execute env true command session.begun = run at hdocument hfresh ⊢
    rcases run with ⟨error | gathered, after⟩
    · exact hdocument
    · dsimp only at hdocument hfresh ⊢
      rw [Run.document_release, hdocument, hfresh]
      rfl

end Emend
