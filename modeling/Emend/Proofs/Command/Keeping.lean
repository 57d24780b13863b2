import Emend.Command.Execute
import Emend.Proofs.Buffer.Operations
import Emend.Proofs.Document.Editing

/-!
# What a program keeps

A program touches its document in one way only, by `Run.edit`. So whatever an edit keeps of the
document, and of the flag that tells whether the program has edited it yet, a whole program keeps:
`execute_keeps`. A command whose edits are collected does not edit at all, and keeps anything.

The proof is an induction on the command. Below it, `Keeps` comes with one lemma for each way in
which runs are put together and one for each thing that a run can do. Besides what is kept of the
session it says what is known of the result; here that is nothing, but a lemma about the edits that
are collected can use the same rules.
-/

namespace Emend

namespace Run

variable {σ α β : Type} {P : Document → Bool → Prop} {Q : α → Prop} {R : β → Prop}

/-- From a session that meets `P` the action leads to one that meets `P`, whether it fails or not,
and if it gives a result, that meets `Q`. -/
def Keeps (P : Document → Bool → Prop) (Q : α → Prop) (action : Run σ α) : Prop :=
  ∀ session, P session.document session.fresh →
    P (action session).2.document (action session).2.fresh ∧
      ∀ value, (action session).1 = .ok value → Q value

/-- Nothing is known of a result. -/
abbrev anyResult : α → Prop :=
  fun _ => True

/-! ## Putting runs together -/

/-- What a run of two parts does: a failure of the first ends it. -/
theorem bind_apply (action : Run σ α) (next : α → Run σ β) (session : Session σ) :
    (action >>= next) session =
      match action session with
      | (.ok value, after) => next value after
      | (.error error, after) => (.error error, after) := by
  show ExceptT.bindCont next (action session).1 (action session).2 = _
  rcases action session with ⟨result | result, after⟩ <;> rfl

/-- After a success the second part goes on from there. -/
theorem bind_ok {action : Run σ α} {session after : Session σ} {value : α}
    (h : action session = (.ok value, after)) (next : α → Run σ β) :
    (action >>= next) session = next value after := by
  rw [bind_apply, h]

/-- Without edits there is nothing to apply. -/
@[simp]
theorem release_nil (collecting : Bool) (session : Session σ) :
    release collecting [] session = (.ok [], session) := by
  cases collecting with
  | true => rfl
  | false =>
    have harrange : Replacement.arrange [] = [] := by
      rw [Replacement.arrange, List.mergeSort_nil, Replacement.dropOverlaps]
    unfold release
    rw [harrange]
    rfl

/-- A value that meets `Q` is a result that does. -/
theorem Keeps.pure {value : α} (h : Q value) : Keeps P Q (pure value : Run σ α) := by
  intro session hsession
  refine ⟨hsession, fun other hok => ?_⟩
  cases hok
  exact h

/-- A failure has no result. -/
theorem Keeps.throw {error : EditError} : Keeps P Q (throw error : Run σ α) := by
  intro session hsession
  refine ⟨hsession, fun other hok => ?_⟩
  cases hok

/-- Two parts keep what each of them does, the second for any result of the first. -/
theorem Keeps.bind {action : Run σ α} {next : α → Run σ β} (h : Keeps P Q action)
    (hnext : ∀ value, Q value → Keeps P R (next value)) : Keeps P R (action >>= next) := by
  intro session hsession
  obtain ⟨hkept, hvalue⟩ := h session hsession
  rw [bind_apply]
  rcases haction : action session with ⟨result, after⟩
  rw [haction] at hkept hvalue
  cases result with
  | error error => exact ⟨hkept, fun value hok => by cases hok⟩
  | ok value => exact hnext value (hvalue value rfl) after hkept

/-- A step keeps `P` if what it makes of the session does. -/
theorem Keeps.step {f : Session σ → α × Session σ}
    (h : ∀ session, P session.document session.fresh →
      P (f session).2.document (f session).2.fresh ∧ Q (f session).1) :
    Keeps P Q (step f) := by
  intro session hsession
  obtain ⟨hkept, hvalue⟩ := h session hsession
  refine ⟨hkept, fun value hok => ?_⟩
  cases hok
  exact hvalue

/-- Looking at a session keeps `P`. -/
theorem Keeps.look {f : Session σ → α}
    (h : ∀ session, P session.document session.fresh → Q (f session)) : Keeps P Q (look f) :=
  .step fun session hsession => ⟨hsession, h session hsession⟩

/-- A result that is there already keeps `P`. -/
theorem Keeps.ofExcept {result : Except EditError α} (h : ∀ value, result = .ok value → Q value) :
    Keeps P Q (ExceptT.mk (Pure.pure result) : Run σ α) :=
  fun _ hsession => ⟨hsession, h⟩

/-- A change of something else than the document. -/
theorem Keeps.stepAside {f : Session σ → α × Session σ}
    (hdoc : ∀ session, (f session).2.document = session.document)
    (hfresh : ∀ session, (f session).2.fresh = session.fresh) : Keeps P anyResult (Run.step f) := by
  refine .step fun session hsession => ⟨?_, trivial⟩
  rw [hdoc, hfresh]
  exact hsession

/-- A run with another dot keeps what the run keeps. -/
theorem Keeps.withDot {sel : Selection} {action : Run σ α} (h : Keeps P Q action) :
    Keeps P Q (withDot sel action) :=
  fun session hsession =>
    h { session with dot := sel.clamp session.document.size } hsession

/-- A run whose failure is a result keeps what the run keeps. -/
theorem Keeps.attempt {action : Run σ α} (h : Keeps P Q action) :
    Keeps P (fun result => ∀ value, result = .ok value → Q value) (attempt action) := by
  intro session hsession
  obtain ⟨hkept, hvalue⟩ := h session hsession
  refine ⟨hkept, fun result hok => ?_⟩
  cases hok
  exact hvalue

/-! ## What a run can do -/

/-- What holds of the ranges that an address can name holds of the one that it does. -/
theorem Keeps.evaluate {address : Address} {Q : Selection → Prop}
    (h : ∀ session : Session σ, P session.document session.fresh →
      ∀ sel, address.evaluate session.document.source session.dot = .ok sel → Q sel) :
    Keeps P Q (evaluate address : Run σ Selection) :=
  fun session hsession => ⟨hsession, h session hsession⟩

/-- Evaluating an address keeps `P`. -/
theorem keeps_evaluate (address : Address) :
    Keeps P anyResult (evaluate address : Run σ Selection) :=
  .evaluate fun _ _ _ _ => trivial

/-- Setting dot keeps `P`. -/
theorem keeps_setDot (sel : Selection) : Keeps P anyResult (setDot sel : Run σ Unit) :=
  .stepAside (fun _ => rfl) fun _ => rfl

/-- Reading the text of a range keeps `P`. -/
theorem keeps_textOf (sel : Selection) : Keeps P anyResult (textOf sel : Run σ (List Char)) :=
  .look fun _ _ => trivial

/-- Of no edits anything holds. -/
theorem keeps_nothing {Q : Replacement → Prop} :
    Keeps P (fun edits => ∀ edit ∈ edits, Q edit) (Pure.pure [] : Run σ (List Replacement)) :=
  .pure fun edit hmem => by cases hmem

variable (env : Environment σ)

/-- A message keeps `P`. -/
theorem keeps_warn (message : String) : Keeps P anyResult (warn env message) :=
  .stepAside (fun _ => rfl) fun _ => rfl

/-- Printing keeps `P`. -/
theorem keeps_print (text : String) : Keeps P anyResult (print env text) :=
  .stepAside (fun _ => rfl) fun _ => rfl

/-- A job keeps `P`, whether it fails or not. -/
theorem keeps_job (command : String) (input : List Char) :
    Keeps P anyResult (job env command input) := by
  unfold job
  refine .bind (Q := anyResult) (.stepAside (fun _ => rfl) fun _ => rfl) fun result _ => ?_
  cases result with
  | ok output => exact .pure trivial
  | error message => exact .bind (keeps_warn env _) fun _ _ => .pure trivial

/-- Reading a file keeps `P`. -/
theorem keeps_readFile (name : String) : Keeps P anyResult (readFile env name) := by
  unfold readFile
  split
  · exact .bind (keeps_warn env _) fun _ _ => .pure trivial
  · refine .bind (Q := anyResult) (.look fun _ _ => trivial) fun path _ => ?_
    refine .bind (Q := anyResult) (.look fun _ _ => trivial) fun result _ => ?_
    cases result with
    | ok text => exact .pure trivial
    | error error => exact .bind (keeps_warn env _) fun _ _ => .pure trivial

/-- Writing a file keeps `P`. -/
theorem keeps_writeFile (name : String) (sel : Selection) :
    Keeps P anyResult (writeFile env name sel) := by
  unfold writeFile
  split
  · exact keeps_warn env _
  · refine .bind (Q := anyResult) (.look fun _ _ => trivial) fun path _ => ?_
    refine .bind (keeps_textOf sel) fun text _ => ?_
    refine .bind (Q := anyResult) (.look fun _ _ => trivial) fun result _ => ?_
    cases result with
    | ok files => exact .stepAside (fun _ => rfl) fun _ => rfl
    | error error => exact keeps_warn env _

/-- Printing a position keeps `P`. -/
theorem keeps_printPosition (argument : String) (sel : Selection) :
    Keeps P anyResult (printPosition env argument sel) := by
  unfold printPosition
  refine .bind (Q := anyResult) (.look fun _ _ => trivial) fun path _ => ?_
  split
  · exact keeps_print env _
  · split
    · refine .bind (Q := anyResult) (.look fun _ _ => trivial) fun first _ => ?_
      refine .bind (Q := anyResult) (.look fun _ _ => trivial) fun last _ => ?_
      exact keeps_print env _
    · exact keeps_warn env _

/-- A loop keeps what its body keeps. -/
theorem keeps_eachRange {Q : Replacement → Prop} (letter : Char)
    {body : Run σ (List Replacement)}
    (h : Keeps P (fun edits => ∀ edit ∈ edits, Q edit) body) (ranges : List Selection) :
    Keeps P (fun found => ∀ edits, found = some edits → ∀ edit ∈ edits, Q edit)
      (eachRange env letter body ranges) := by
  induction ranges with
  | nil =>
    refine .pure fun edits hsome => ?_
    cases hsome
    exact fun edit hmem => by cases hmem
  | cons sel rest ih =>
    unfold eachRange
    -- A round that fails ends the loop, and what was found before is forgotten.
    refine .bind (Keeps.attempt (.withDot h)) fun result hresult => ?_
    cases result with
    | error error =>
      refine .bind (keeps_warn env _) fun _ _ => .pure fun edits hsome => ?_
      cases hsome
    | ok edits =>
      refine .bind ih fun found hfound => .pure fun all hall => ?_
      cases found with
      | none => cases hall
      | some others =>
        cases hall
        intro edit hmem
        rcases List.mem_append.1 hmem with hfirst | hother
        · exact hresult edits rfl edit hfirst
        · exact hfound others rfl edit hother

/-! ## Edits -/

/-- Editing keeps `P`, also when the edit is refused. -/
def EditsKeep (P : Document → Bool → Prop) : Prop :=
  ∀ doc fresh target text, P doc fresh →
    match doc.accept target with
    | .error _ => P doc false
    | .ok range => P (doc.replaceAccepted text range none fresh .program) false

variable {collecting : Bool}

/-- An edit of a program keeps what edits keep. -/
theorem keeps_edit (h : EditsKeep P) (replacement : Replacement) :
    Keeps P anyResult (edit replacement : Run σ Selection) := by
  refine .step fun ⟨doc, files, outside, dot, fresh⟩ hsession => ⟨?_, trivial⟩
  have hedit := h doc fresh replacement.range replacement.text hsession
  dsimp only
  generalize doc.accept replacement.range = accepted at hedit ⊢
  cases accepted with
  | error sel => exact hedit
  | ok range => exact hedit

/-- Several edits keep what edits keep. -/
theorem keeps_editAll (h : EditsKeep P) (replacements : List Replacement) :
    Keeps P anyResult (editAll replacements : Run σ Unit) := by
  induction replacements with
  | nil => exact .pure trivial
  | cons replacement rest ih => exact .bind (keeps_edit h replacement) fun _ _ => ih

/-- What is released is what was collected, or nothing. -/
theorem keeps_release {Q : Replacement → Prop} (h : collecting = false → EditsKeep P)
    {replacements : List Replacement} (hedits : ∀ edit ∈ replacements, Q edit) :
    Keeps P (fun edits => ∀ edit ∈ edits, Q edit)
      (release collecting replacements : Run σ (List Replacement)) := by
  unfold release
  cases collecting with
  | true => exact .pure hedits
  | false =>
    refine .bind (keeps_editAll (h rfl) _) fun _ _ => .pure fun edit hmem => ?_
    cases hmem

/-- A text put in at once is an edit, and one that is collected meets what edits meet. -/
theorem keeps_put {Q : Replacement → Prop} (h : collecting = false → EditsKeep P)
    {replacement : Replacement} (hedit : Q replacement) :
    Keeps P (fun result => ∀ edit ∈ result.2, Q edit)
      (put collecting replacement : Run σ (Selection × List Replacement)) := by
  unfold put
  cases collecting with
  | true =>
    refine .pure fun edit hmem => ?_
    cases List.mem_singleton.1 hmem
    exact hedit
  | false =>
    refine .bind (keeps_edit (h rfl) _) fun sel _ => .pure fun edit hmem => ?_
    cases hmem

/-! ## Commands -/

/-- The selection is in order, and whatever is put inside of it meets `Q`. -/
structure Inside (Q : Replacement → Prop) (sel : Selection) : Prop where
  /-- The selection is in order. -/
  ordered : sel.start ≤ sel.stop
  /-- Replacements inside of it meet `Q`. -/
  meets : ∀ (range : Selection) (text : List Char), sel.start ≤ range.start →
    range.start ≤ range.stop → range.stop ≤ sel.stop → Q ⟨range, text⟩

/-- Whatever is put into a document that meets `P` meets `Q`. -/
def Admits (P : Document → Bool → Prop) (Q : Replacement → Prop) : Prop :=
  ∀ doc fresh sel text, P doc fresh → sel.IsWithin doc.size → Q ⟨sel, text⟩

variable {Q : Replacement → Prop}

/-- A range within the text is one whose replacements meet `Q`. -/
theorem inside_of_isWithin (h : Admits P Q) {doc : Document} {fresh : Bool} (hdoc : P doc fresh)
    {sel : Selection} (hwithin : sel.IsWithin doc.size) : Inside Q sel := by
  refine ⟨hwithin.1, fun range text hstart hle hstop => h doc fresh range text hdoc ?_⟩
  exact ⟨hle, Nat.le_trans hstop hwithin.2⟩

/-- The whole range may be replaced. -/
theorem Inside.whole {sel : Selection} (h : Inside Q sel) (text : List Char) : Q ⟨sel, text⟩ :=
  h.meets sel text (Nat.le_refl _) h.ordered (Nat.le_refl _)

/-- A text may be put in at its start. -/
theorem Inside.atStart {sel : Selection} (h : Inside Q sel) (text : List Char) :
    Q ⟨.point sel.start, text⟩ :=
  h.meets _ text (Nat.le_refl _) (Nat.le_refl _) h.ordered

/-- A text may be put in at its end. -/
theorem Inside.atStop {sel : Selection} (h : Inside Q sel) (text : List Char) :
    Q ⟨.point sel.stop, text⟩ :=
  h.meets _ text h.ordered (Nat.le_refl _) (Nat.le_refl _)

/-- The range of an address lies within the text. -/
theorem isWithin_of_evaluate {address : Address} {text : Source} {dot sel : Selection}
    (h : address.evaluate text dot = .ok sel) : sel.IsWithin text.size := by
  cases address with
  | simple place =>
    simp only [Address.evaluate, bind, Except.bind] at h
    split at h
    · cases h
    · cases h
      exact Selection.clamp_isWithin _ _
  | chain places =>
    simp only [Address.evaluate, bind, Except.bind] at h
    split at h
    · cases h
    · cases h
      exact Selection.clamp_isWithin _ _
  | between left separator right =>
    simp only [Address.evaluate, bind, Except.bind] at h
    split at h
    · cases h
    · split at h
      · cases h
      · split at h
        · cases h
        · cases h
          exact Selection.clamp_isWithin _ _

/-- The range of an address is one whose replacements meet `Q`. -/
theorem Keeps.evaluateInside (h : Admits P Q) (address : Address) :
    Keeps P (Inside Q) (Run.evaluate address : Run σ Selection) :=
  .evaluate fun _ hsession _ hok => inside_of_isWithin h hsession (isWithin_of_evaluate hok)

/-- A transfer keeps what edits keep, and the edits that it collects meet `Q`. -/
theorem keeps_transfer (h : collecting = false → EditsKeep P)
    (moving : Bool) {range behind : Selection} (hrange : Inside Q range)
    (hbehind : Inside Q behind) :
    Keeps P (fun edits => ∀ edit ∈ edits, Q edit)
      (transfer collecting moving range behind.stop : Run σ (List Replacement)) := by
  unfold transfer
  dsimp only
  split
  · exact .bind (Q := fun _ => False) .throw fun _ hfalse => hfalse.elim
  · refine .bind (keeps_textOf range) fun text _ => ?_
    -- A copy is one insertion; a move deletes as well, and the order depends on the places.
    have hinsertion := hbehind.atStop text
    have hdeletion := hrange.whole []
    refine .bind (keeps_release (Q := Q) h ?_) fun edits hedits => ?_
    · intro edit hmem
      split at hmem
      · cases List.mem_singleton.1 hmem
        exact hinsertion
      · split at hmem
        · simp only [List.mem_cons, List.not_mem_nil, or_false] at hmem
          rcases hmem with rfl | rfl
          · exact hdeletion
          · exact hinsertion
        · simp only [List.mem_cons, List.not_mem_nil, or_false] at hmem
          rcases hmem with rfl | rfl
          · exact hinsertion
          · exact hdeletion
    · split
      · exact .bind (keeps_setDot _) fun _ _ => .pure hedits
      · exact .pure hedits

/-- What is put in place of a range is kept, and dot goes behind it. -/
theorem keeps_putInside (h : collecting = false → EditsKeep P) {sel : Selection}
    (hsel : Inside Q sel) (text : List Char) :
    Keeps P (fun edits => ∀ edit ∈ edits, Q edit)
      (do
        let (after, edits) ← put collecting ⟨sel, text⟩
        setDot after
        return edits : Run σ (List Replacement)) :=
  .bind (keeps_put h (hsel.whole text)) fun _ hedits =>
    .bind (keeps_setDot _) fun _ _ => .pure hedits

/-- A job keeps what edits keep, and the edits that it collects meet `Q`. -/
theorem keeps_pipe (hadmits : Admits P Q) (h : collecting = false → EditsKeep P) (kind : Pipe)
    (range : Address) (command : String) :
    Keeps P (fun edits => ∀ edit ∈ edits, Q edit)
      (pipe env collecting kind range command) := by
  unfold pipe
  cases kind with
  | input =>
    refine .bind (keeps_job env _ _) fun output _ => ?_
    cases output with
    | none => exact keeps_nothing
    | some output =>
      exact .bind (.evaluateInside hadmits range) fun sel hsel => keeps_putInside h hsel output
  | output =>
    refine .bind (keeps_evaluate range) fun sel _ => .bind (keeps_setDot sel) fun _ _ => ?_
    refine .bind (keeps_textOf sel) fun text _ => .bind (keeps_job env _ _) fun output _ => ?_
    dsimp only
    split
    · exact .bind (keeps_print env _) fun _ _ => keeps_nothing
    · exact keeps_nothing
  | filter =>
    refine .bind (.evaluateInside hadmits range) fun sel hsel => ?_
    refine .bind (keeps_setDot sel) fun _ _ => .bind (keeps_textOf sel) fun text _ => ?_
    refine .bind (keeps_job env _ _) fun output _ => ?_
    cases output with
    | none => exact keeps_nothing
    | some output => exact keeps_putInside h hsel output

/-- A file keeps what edits keep, and the edits that it collects meet `Q`. -/
theorem keeps_file (hadmits : Admits P Q) (h : collecting = false → EditsKeep P) (use : FileUse)
    (range : Address) (name : String) :
    Keeps P (fun edits => ∀ edit ∈ edits, Q edit) (file env collecting use range name) := by
  unfold file
  cases use with
  | edit =>
    refine .bind (keeps_readFile env name) fun text _ => ?_
    cases text with
    | none => exact keeps_nothing
    | some text =>
      refine .bind (Q := fun size => Inside Q ⟨0, size⟩) (.look fun session hsession => ?_)
        fun size hsize => ?_
      · exact inside_of_isWithin hadmits hsession ⟨Nat.zero_le _, Nat.le_refl _⟩
      · exact .bind (keeps_put h (hsize.whole text)) fun _ hedits =>
          .bind (keeps_setDot _) fun _ _ => .pure hedits
  | read =>
    refine .bind (.evaluateInside hadmits range) fun sel hsel => ?_
    refine .bind (keeps_setDot sel) fun _ _ => .bind (keeps_readFile env name) fun text _ => ?_
    cases text with
    | none => exact keeps_nothing
    | some text => exact keeps_putInside h hsel text
  | write =>
    refine .bind (keeps_evaluate range) fun sel _ => .bind (keeps_setDot sel) fun _ _ => ?_
    refine .bind (Q := anyResult) (.look fun _ _ => trivial) fun size _ => ?_
    exact .bind (keeps_writeFile env name _) fun _ _ => keeps_nothing

/-- Every replacement of a substitution takes the place of a match. -/
theorem range_of_mem_substitutions {text : Source} {range : Selection} {nth : Nat}
    {regex : Regex} {replacement : String} {all : Bool} {edits : List Replacement}
    (h : substitutions text range nth regex replacement all = .ok edits) :
    ∀ edit ∈ edits, ∃ found ∈ regex.successive text range.start range.stop,
      edit.range = found.range := by
  unfold substitutions at h
  -- Which of the matches are replaced does not matter.
  have hsub : ∀ found ∈ substituted nth all ((regex.successive text range.start
      range.stop).takeWhile (·.start < range.stop)),
      found ∈ regex.successive text range.start range.stop := by
    intro found hmem
    unfold substituted at hmem
    split at hmem
    · exact (List.takeWhile_sublist _).subset hmem
    · exact (List.takeWhile_sublist _).subset
        (List.mem_of_mem_drop (List.mem_of_mem_take hmem))
  dsimp only at h
  generalize substituted nth all _ = matched at h hsub
  induction matched generalizing edits with
  | nil =>
    cases h
    exact fun edit hmem => by cases hmem
  | cons found rest ih =>
    rw [List.mapM_cons] at h
    simp only [bind, Except.bind] at h
    split at h
    · cases h
    · next first hfirst =>
      split at h
      · cases h
      · next others hothers =>
        cases h
        intro edit hmem
        rcases List.mem_cons.1 hmem with rfl | hother
        · refine ⟨found, hsub found List.mem_cons_self, ?_⟩
          split at hfirst
          · cases hfirst
          · cases hfirst
            rfl
        · exact ih hothers (fun other hmem => hsub other (List.mem_cons_of_mem _ hmem)) edit hother

end Run

mutual

/-- Every pattern in a command meets `p`. -/
def Command.PatternsMeet (p : Regex → Prop) : Command → Prop
  | .substitute _ _ _ regex _ _ => p regex
  | .visit _ _ _ regex body => p regex ∧ body.PatternsMeet p
  | .block _ commands => PatternsOfAllMeet p commands
  | .goto _ | .place _ _ _ _ | .delete _ | .transfer _ _ _ | .print _ | .position _ _
  | .pipe _ _ _ | .file _ _ _ => True

/-- Every pattern in several commands meets `p`. -/
def Command.PatternsOfAllMeet (p : Regex → Prop) : List Command → Prop
  | [] => True
  | command :: rest => command.PatternsMeet p ∧ PatternsOfAllMeet p rest

end

variable {σ : Type}

namespace Run

variable {P : Document → Bool → Prop} {Q : Replacement → Prop}

/-- The matches of a pattern in a text that meets `P` can be replaced in the sense of `Q`. -/
def MatchesMeet (P : Document → Bool → Prop) (Q : Replacement → Prop) (regex : Regex) : Prop :=
  ∀ doc fresh sel, P doc fresh → Inside Q sel →
    ∀ found ∈ regex.successive doc.source sel.start sel.stop, ∀ text, Q ⟨found.range, text⟩

/-- What a substitution puts in place of matches that can be replaced. -/
theorem meets_of_mem_substitutions {regex : Regex} (h : MatchesMeet P Q regex) {doc : Document}
    {fresh : Bool} (hdoc : P doc fresh) {sel : Selection} (hsel : Inside Q sel) {nth : Nat}
    {replacement : String} {all : Bool} {edits : List Replacement}
    (hok : substitutions doc.source sel nth regex replacement all = .ok edits) :
    ∀ edit ∈ edits, Q edit := by
  intro edit hmem
  obtain ⟨found, hfound, hrange⟩ := range_of_mem_substitutions hok edit hmem
  have hmeets := h doc fresh sel hdoc hsel found hfound edit.text
  rw [← hrange] at hmeets
  exact hmeets

variable (env : Environment σ)

/-- A loop whose edits are released in the end. -/
theorem keeps_loop {collecting : Bool} (h : collecting = false → EditsKeep P) (letter : Char)
    {body : Run σ (List Replacement)}
    (hbody : Keeps P (fun edits => ∀ edit ∈ edits, Q edit) body) (ranges : List Selection) :
    Keeps P (fun edits => ∀ edit ∈ edits, Q edit)
      (do
        let edits ← eachRange env letter body ranges
        release collecting (edits.getD []) : Run σ (List Replacement)) := by
  refine .bind (keeps_eachRange env letter hbody ranges) fun found hfound => ?_
  refine keeps_release h ?_
  cases found with
  | none => exact fun edit hmem => by cases hmem
  | some edits => exact hfound edits rfl

mutual

/-- **What edits keep, a command keeps**, and the edits that it leaves to be collected meet what
replacements in the document meet. -/
theorem execute_keeps (hadmits : Admits P Q) (collecting : Bool)
    (h : collecting = false → EditsKeep P) :
    (command : Command) → command.PatternsMeet (MatchesMeet P Q) →
      Keeps P (fun edits => ∀ edit ∈ edits, Q edit) (execute env collecting command)
  -- The range of an address lies in the document, so what is put into it meets `Q`.
  | .goto range, _ => by
    rw [execute]
    refine .bind (keeps_evaluate range) fun sel _ => .bind (keeps_setDot sel) fun _ _ => ?_
    exact keeps_nothing
  | .place placement range _ text, _ => by
    rw [execute]
    refine .bind (.evaluateInside hadmits range) fun sel hsel => ?_
    cases placement with
    | after => exact .bind (keeps_put h (hsel.atStop _)) fun _ hedits => .pure hedits
    | before => exact .bind (keeps_put h (hsel.atStart _)) fun _ hedits => .pure hedits
    | instead => exact keeps_putInside h hsel _
  | .delete range, _ => by
    rw [execute]
    exact .bind (.evaluateInside hadmits range) fun sel hsel => keeps_putInside h hsel _
  | .substitute range nth _ regex replacement all, hpatterns => by
    rw [execute]
    refine .bind (.evaluateInside hadmits range) fun sel hsel => ?_
    -- The text that is searched is that of a document that meets `P`.
    refine .bind (Q := fun text => ∃ doc fresh, P doc fresh ∧ text = doc.source)
      (.look fun session hsession => ⟨_, _, hsession, rfl⟩) fun text htext => ?_
    obtain ⟨doc, fresh, hdoc, rfl⟩ := htext
    refine .bind (Q := fun edits => ∀ edit ∈ edits, Q edit) (.ofExcept fun edits hok => ?_)
      fun edits hedits => ?_
    · exact meets_of_mem_substitutions hpatterns hdoc hsel hok
    · exact .bind (keeps_setDot sel) fun _ _ => keeps_release h hedits
  | .transfer moving range target, _ => by
    rw [execute]
    exact .bind (.evaluateInside hadmits range) fun sel hsel =>
      .bind (.evaluateInside hadmits target) fun behind hbehind =>
        keeps_transfer h moving hsel hbehind
  | .print range, _ => by
    rw [execute]
    refine .bind (keeps_evaluate range) fun sel _ => .bind (keeps_setDot sel) fun _ _ => ?_
    refine .bind (keeps_textOf sel) fun text _ => .bind (keeps_print env _) fun _ _ => ?_
    exact keeps_nothing
  | .position range argument, _ => by
    rw [execute]
    refine .bind (keeps_evaluate range) fun sel _ => .bind (keeps_setDot sel) fun _ _ => ?_
    refine .bind (keeps_printPosition env _ _) fun _ _ => ?_
    exact keeps_nothing
  | .visit kind range _ regex body, hpatterns => by
    rw [execute]
    refine .bind (keeps_evaluate range) fun sel _ => .bind (keeps_setDot sel) fun _ _ => ?_
    refine .bind (Q := anyResult) (.look fun _ _ => trivial) fun text _ => ?_
    -- The body of a loop is collected from, even where the loop is not.
    have hbody := execute_keeps hadmits true nofun body hpatterns.2
    cases kind with
    | ifFound =>
      dsimp only
      split
      · exact execute_keeps hadmits collecting h body hpatterns.2
      · exact keeps_nothing
    | unlessFound =>
      dsimp only
      split
      · exact keeps_nothing
      · exact execute_keeps hadmits collecting h body hpatterns.2
    | eachMatch => exact keeps_loop env h _ hbody _
    | eachGap => exact keeps_loop env h _ hbody _
  | .pipe kind range command, _ => by
    rw [execute]
    exact keeps_pipe env hadmits h kind range command
  | .file use range name, _ => by
    rw [execute]
    exact keeps_file env hadmits h use range name
  | .block range commands, hpatterns => by
    rw [execute]
    refine .bind (keeps_evaluate range) fun sel _ => ?_
    refine .bind (.withDot (executeAll_keeps hadmits commands hpatterns)) fun edits hedits => ?_
    exact keeps_release h hedits

/-- So do the commands of a block, which never edit. -/
theorem executeAll_keeps (hadmits : Admits P Q) : (commands : List Command) →
    Command.PatternsOfAllMeet (MatchesMeet P Q) commands →
      Keeps P (fun edits => ∀ edit ∈ edits, Q edit) (executeAll env commands)
  | [], _ => by
    rw [executeAll]
    exact keeps_nothing
  | command :: rest, hpatterns => by
    rw [executeAll]
    have hfirst := execute_keeps hadmits true nofun command hpatterns.1
    refine .bind hfirst fun edits hedits => ?_
    refine .bind (executeAll_keeps hadmits rest hpatterns.2) fun others hothers => ?_
    refine .pure fun edit hmem => ?_
    rcases List.mem_append.1 hmem with hmem | hmem
    · exact hedits edit hmem
    · exact hothers edit hmem

end

mutual

/-- What all patterns meet, those of a command meet. -/
theorem patternsMeet_of_forall {p : Regex → Prop} (h : ∀ regex, p regex) :
    (command : Command) → command.PatternsMeet p
  | .goto _ | .place _ _ _ _ | .delete _ | .transfer _ _ _ | .print _ | .position _ _
  | .pipe _ _ _ | .file _ _ _ => by
    unfold Command.PatternsMeet
    trivial
  | .substitute _ _ _ regex _ _ => by
    unfold Command.PatternsMeet
    exact h regex
  | .visit _ _ _ regex body => by
    unfold Command.PatternsMeet
    exact ⟨h regex, patternsMeet_of_forall h body⟩
  | .block _ commands => by
    unfold Command.PatternsMeet
    exact patternsOfAllMeet_of_forall h commands

/-- What all patterns meet, those of several commands meet. -/
theorem patternsOfAllMeet_of_forall {p : Regex → Prop} (h : ∀ regex, p regex) :
    (commands : List Command) → Command.PatternsOfAllMeet p commands
  | [] => by
    unfold Command.PatternsOfAllMeet
    trivial
  | command :: rest => by
    unfold Command.PatternsOfAllMeet
    exact ⟨patternsMeet_of_forall h command, patternsOfAllMeet_of_forall h rest⟩

end

end Run

/-- **What edits keep, a program keeps**, whether it can be read or not and whether it fails or
not. -/
theorem Session.interpret_keeps {P : Document → Bool → Prop} (session : Session σ)
    (h : Run.EditsKeep P) (env : Environment σ) (program : String)
    (hsession : P session.document true) :
    ∃ fresh, P (session.interpret env program).2.document fresh := by
  unfold Session.interpret
  split
  · exact ⟨true, hsession⟩
  · next command _ =>
    have hpatterns := Run.patternsMeet_of_forall (p := Run.MatchesMeet P fun _ => True)
      (fun _ _ _ _ _ _ _ _ _ => trivial) command
    have hkeeps := Run.execute_keeps env (fun _ _ _ _ _ _ => trivial) false (fun _ => h) command
      hpatterns
    exact ⟨_, (hkeeps { session with
      dot := session.dot.clamp session.document.size, fresh := true } hsession).1⟩

/-! ## Sessions to begin with -/

/-- An environment in which nothing happens. -/
def Environment.silent : Environment Unit :=
  ⟨fun _ outside => outside, fun _ outside => outside, fun _ _ _ files outside =>
    (.ok [], files, outside)⟩

/-- A session on a text that no file holds, with a range as dot. -/
def Session.onText (text : String) (dot : Selection) : Session Unit :=
  ⟨{ Document.scratch "+notes" with buffer := .ofText text.toList }, .empty, (), dot, true⟩

/-- The document of such a session is valid. -/
theorem Session.isValid_onText (text : String) (dot : Selection) :
    (Session.onText text dot).document.IsValid := by
  unfold Document.IsValid Session.onText
  dsimp only
  exact (GapBuffer.represents_ofText text.toList).valid

/-- The document of such a session has the text. -/
theorem Session.content_onText (text : String) (dot : Selection) :
    (Session.onText text dot).document.content = text.toList := by
  rw [Document.content_eq_toList]
  unfold Session.onText
  dsimp only
  rw [(GapBuffer.represents_ofText text.toList).list, Document.map_char_fresh]

end Emend
