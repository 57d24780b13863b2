import Emend.Proofs.Command.Gathering

/-!
# Programs that fail

A failing program leaves its document as it was. Until a command edits, everything that it does is
free of edits, and once it edits it cannot fail any more: an edit may be refused, but that is no
failure. `Atomic` says of an action that its failure leaves no trace in the document, and every
command is (`atomic_execute`).

A loop is the one command that survives a failure. Where one of its rounds fails, the loop warns and
is done without any edits, those of earlier rounds included, and whatever encloses it goes on:
`execute_failing_loop`.
-/

namespace Emend

namespace Run

variable {σ α β : Type} {env : Environment σ}

/-- When the action fails, the document is as it was before. -/
def Atomic (action : Run σ α) : Prop :=
  ∀ session error, (action session).1 = .error error →
    (action session).2.document = session.document

/-- Whether it fails or not, the action leaves the document as it is. -/
def Still (action : Run σ α) : Prop :=
  ∀ session, (action session).2.document = session.document

/-- The action never fails. -/
def Unfailing (action : Run σ α) : Prop :=
  ∀ session, ∃ value after, action session = (.ok value, after)

/-! ## Putting runs together -/

/-- Giving a value does not fail. -/
theorem unfailing_pure (value : α) : Unfailing (Pure.pure value : Run σ α) :=
  fun session => ⟨value, session, rfl⟩

/-- A step does not fail. -/
theorem unfailing_step (f : Session σ → α × Session σ) : Unfailing (step f) :=
  fun session => ⟨(f session).1, (f session).2, rfl⟩

/-- Two runs neither of which fails do not fail one after the other. -/
theorem Unfailing.bind {action : Run σ α} {next : α → Run σ β} (h : Unfailing action)
    (hnext : ∀ value, Unfailing (next value)) : Unfailing (action >>= next) := by
  intro session
  obtain ⟨value, middle, haction⟩ := h session
  rw [bind_ok haction]
  exact hnext value middle

/-- A run that does not fail has not edited and then failed. -/
theorem Unfailing.atomic {action : Run σ α} (h : Unfailing action) : Atomic action := by
  intro session error herror
  obtain ⟨value, after, haction⟩ := h session
  rw [haction] at herror
  cases herror

/-- A run that spares the document leaves it as it is. -/
theorem Spares.still {action : Run σ α} (h : Spares env action) : Still action :=
  h.document_eq

/-- A run that leaves the document as it is has not edited when it fails. -/
theorem Still.atomic {action : Run σ α} (h : Still action) : Atomic action :=
  fun session _ _ => h session

/-- Where only the second part edits, the first may fail. -/
theorem Still.bind {action : Run σ α} {next : α → Run σ β} (h : Still action)
    (hnext : ∀ value, Atomic (next value)) : Atomic (action >>= next) := by
  intro session error herror
  have hfirst := h session
  rw [bind_apply] at herror ⊢
  rcases haction : action session with ⟨result, middle⟩
  rw [haction] at herror hfirst
  cases result with
  | error _ => exact hfirst
  | ok value =>
    have hrest := hnext value middle error herror
    rw [hfirst] at hrest
    exact hrest

/-- Looking leaves the document as it is. -/
theorem still_look (f : Session σ → α) : Still (look f) :=
  fun _ => rfl

/-- Evaluating an address leaves the document as it is. -/
theorem still_evaluate (address : Address) : Still (evaluate address : Run σ Selection) :=
  fun _ => rfl

/-- Setting dot leaves the document as it is. -/
theorem still_setDot (sel : Selection) : Still (setDot sel : Run σ Unit) :=
  fun _ => rfl

/-- The range of an address becomes dot, and then something is done. -/
theorem atomic_onRange {next : Selection → Run σ α} (range : Address)
    (h : ∀ sel, Atomic (next sel)) :
    Atomic (do
      let sel ← evaluate range
      setDot sel
      next sel : Run σ α) :=
  (still_evaluate range).bind fun sel => (still_setDot sel).bind fun _ => h sel

/-! ## Edits -/

/-- Edits do not fail, whether they are refused or not. -/
theorem unfailing_editAll (replacements : List Replacement) :
    Unfailing (editAll replacements : Run σ Unit) := by
  induction replacements with
  | nil => exact unfailing_pure ()
  | cons replacement rest ih => exact (unfailing_step _).bind fun _ => ih

/-- Releasing edits does not fail. -/
theorem unfailing_release (collecting : Bool) (replacements : List Replacement) :
    Unfailing (release collecting replacements : Run σ (List Replacement)) := by
  unfold release
  split
  · exact unfailing_pure replacements
  · exact (unfailing_editAll _).bind fun _ => unfailing_pure []

/-- Putting in a text does not fail. -/
theorem unfailing_put (collecting : Bool) (replacement : Replacement) :
    Unfailing (put collecting replacement : Run σ (Selection × List Replacement)) := by
  unfold put
  split
  · exact unfailing_pure _
  · exact (unfailing_step _).bind fun _ => unfailing_pure _

/-- A replacement, and dot somewhere behind it. -/
theorem unfailing_put_setDot (collecting : Bool) (replacement : Replacement)
    (dot : Selection → Selection) :
    Unfailing (do
      let (after, edits) ← put collecting replacement
      setDot (dot after)
      return edits : Run σ (List Replacement)) :=
  (unfailing_put collecting replacement).bind fun _ => (unfailing_step _).bind fun _ =>
    unfailing_pure _

/-! ## Commands -/

/-- A transfer fails before it edits. -/
theorem atomic_transfer (collecting moving : Bool) (range : Selection) (target : Nat) :
    Atomic (transfer collecting moving range target : Run σ (List Replacement)) := by
  unfold transfer
  dsimp only
  split
  · exact Still.atomic fun _ => rfl
  · refine (still_look _).bind fun text => Unfailing.atomic ?_
    refine (unfailing_release collecting _).bind fun edits => ?_
    split
    · exact (unfailing_step _).bind fun _ => unfailing_pure edits
    · exact unfailing_pure edits

variable (env) (collecting : Bool)

/-- A job leaves the document as it is. -/
theorem still_job (command : String) (input : List Char) : Still (job env command input) :=
  Spares.still (.job command input)

/-- A command with a job fails before it edits. -/
theorem atomic_pipe (kind : Pipe) (range : Address) (command : String) :
    Atomic (pipe env collecting kind range command) := by
  unfold pipe
  cases kind with
  | input =>
    refine (still_job env _ _).bind fun output => ?_
    cases output with
    | none => exact (unfailing_pure []).atomic
    | some output =>
      exact (still_evaluate range).bind fun sel =>
        (unfailing_put_setDot _ _ fun after => after).atomic
  | output => exact (spares_pipe .output range command).still.atomic
  | filter =>
    refine atomic_onRange range fun sel => (still_look _).bind fun text => ?_
    refine (still_job env _ _).bind fun output => ?_
    cases output with
    | none => exact (unfailing_pure []).atomic
    | some output => exact (unfailing_put_setDot _ _ fun after => after).atomic

/-- A command with a file fails before it edits. -/
theorem atomic_file (use : FileUse) (range : Address) (name : String) :
    Atomic (file env collecting use range name) := by
  unfold file
  cases use with
  | edit =>
    refine (spares_readFile name).still.bind fun text => ?_
    cases text with
    | none => exact (unfailing_pure []).atomic
    | some text =>
      exact (still_look _).bind fun size =>
        (unfailing_put_setDot _ _ fun _ => .point 0).atomic
  | read =>
    refine atomic_onRange range fun sel => (spares_readFile name).still.bind fun text => ?_
    cases text with
    | none => exact (unfailing_pure []).atomic
    | some text => exact (unfailing_put_setDot _ _ fun after => after).atomic
  | write => exact (spares_file .write range name).still.atomic

/-- A loop, whose rounds only collect. -/
theorem atomic_loop (letter : Char) {body : Run σ (List Replacement)} (h : Spares env body)
    (ranges : List Selection) :
    Atomic (do
      let edits ← eachRange env letter body ranges
      release collecting (edits.getD []) : Run σ (List Replacement)) :=
  (spares_eachRange letter h ranges).still.bind fun _ => (unfailing_release _ _).atomic

/-- **A command that fails has not edited.** -/
theorem atomic_execute (command : Command) : Atomic (execute env collecting command) := by
  -- A command first looks, which may fail, and then edits, which does not.
  cases command with
  | goto range =>
    rw [execute]
    exact atomic_onRange range fun sel => (unfailing_pure []).atomic
  | place placement range _ text =>
    rw [execute]
    refine (still_evaluate range).bind fun sel => Unfailing.atomic ?_
    cases placement with
    | after => exact (unfailing_put _ _).bind fun _ => unfailing_pure _
    | before => exact (unfailing_put _ _).bind fun _ => unfailing_pure _
    | instead => exact unfailing_put_setDot _ _ fun after => after
  | delete range =>
    rw [execute]
    exact (still_evaluate range).bind fun sel =>
      (unfailing_put_setDot _ _ fun after => after).atomic
  | substitute range nth _ regex replacement all =>
    rw [execute]
    refine (still_evaluate range).bind fun sel => (still_look _).bind fun text => ?_
    -- A replacement that cannot be worked out is the last thing that can fail.
    have hworkedOut : Still (ExceptT.mk (Pure.pure
        (substitutions text sel nth regex replacement all)) : Run σ (List Replacement)) :=
      fun _ => rfl
    exact hworkedOut.bind fun edits => (still_setDot sel).bind fun _ =>
      (unfailing_release collecting edits).atomic
  | transfer moving range target =>
    rw [execute]
    exact (still_evaluate range).bind fun sel => (still_evaluate target).bind fun behind =>
      atomic_transfer collecting moving sel behind.stop
  | print range =>
    have hspares : Spares env (execute env true (.print range)) := spares_execute (.print range)
    rw [execute] at hspares ⊢
    exact hspares.still.atomic
  | position range argument =>
    have hspares : Spares env (execute env true (.position range argument)) :=
      spares_execute (.position range argument)
    rw [execute] at hspares ⊢
    exact hspares.still.atomic
  | visit kind range _ regex body =>
    rw [execute]
    refine atomic_onRange range fun sel => (still_look _).bind fun text => ?_
    cases kind with
    | ifFound =>
      dsimp only
      split
      · exact atomic_execute body
      · exact (unfailing_pure []).atomic
    | unlessFound =>
      dsimp only
      split
      · exact (unfailing_pure []).atomic
      · exact atomic_execute body
    | eachMatch => exact atomic_loop env collecting _ (spares_execute body) _
    | eachGap => exact atomic_loop env collecting _ (spares_execute body) _
  | pipe kind range command =>
    rw [execute]
    exact atomic_pipe env collecting kind range command
  | file use range name =>
    rw [execute]
    exact atomic_file env collecting use range name
  | block range commands =>
    rw [execute]
    refine (still_evaluate range).bind fun sel => ?_
    have hinside : Spares env (withDot sel (executeAll env commands)) :=
      .withDot sel (spares_executeAll commands)
    exact hinside.still.bind fun edits => (unfailing_release collecting edits).atomic

/-! ## Loops -/

/-- One of the rounds of a loop fails, after rounds that do not. -/
inductive SomeRoundFails (body : Run σ (List Replacement)) : List Selection → Session σ → Prop where
  /-- The next one. -/
  | next {sel : Selection} {rest : List Selection} {session : Session σ} (error : EditError)
    (h : (withDot sel body session).1 = .error error) : SomeRoundFails body (sel :: rest) session
  /-- A later one, whatever the next one collects. -/
  | later {sel : Selection} {rest : List Selection} {session : Session σ}
    (edits : List Replacement) (h : (withDot sel body session).1 = .ok edits)
    (hrest : SomeRoundFails body rest (withDot sel body session).2) :
    SomeRoundFails body (sel :: rest) session

/-- The ranges on which a loop runs its body, for a pattern in a range. A guard is no loop. -/
def roundsOf (kind : Visit) (regex : Regex) (text : Source) (sel : Selection) :
    Option (List Selection) :=
  let found := regex.successive text sel.start sel.stop
  match kind with
  | .eachMatch => some (found.map (·.range))
  | .eachGap => some (Captures.gaps sel.start sel.stop found)
  | .ifFound | .unlessFound => none

/-- **Where a round fails, a loop finds nothing.** -/
theorem eachRange_of_someRoundFails (letter : Char) {body : Run σ (List Replacement)}
    {ranges : List Selection} {session : Session σ} (h : SomeRoundFails body ranges session) :
    ∃ after, eachRange env letter body ranges session = (.ok none, after) := by
  have hattempt {sel : Selection} {session : Session σ} {result : Except EditError _}
      (h : (withDot sel body session).1 = result) :
      attempt (withDot sel body) session = (.ok result, (withDot sel body session).2) := by
    rw [← h]
    rfl
  induction h with
  | next error h =>
    unfold eachRange
    rw [bind_ok (hattempt h)]
    exact ⟨_, rfl⟩
  | later edits h hrest ih =>
    obtain ⟨last, hlast⟩ := ih
    unfold eachRange
    rw [bind_ok (hattempt h)]
    dsimp only
    rw [bind_ok hlast]
    exact ⟨last, rfl⟩

/-- **A loop survives a failure, but not its edits**, whether they are collected or applied. -/
theorem execute_of_someRoundFails {kind : Visit} {range : Address} {delimiter : Option Char}
    {regex : Regex} {body : Command} {session : Session σ} {sel : Selection}
    {ranges : List Selection}
    (hsel : range.evaluate session.document.source session.dot = .ok sel)
    (hranges : roundsOf kind regex session.document.source sel = some ranges)
    (hfails : SomeRoundFails (execute env true body) ranges
      { session with dot := sel.clamp session.document.size }) :
    ∃ after, after.document = session.document ∧ ∀ collecting,
      execute env collecting (.visit kind range delimiter regex body) session =
        (.ok [], after) := by
  have hevaluate : evaluate range session = (.ok sel, session) := by
    unfold evaluate
    rw [hsel]
  obtain ⟨after, hafter⟩ := eachRange_of_someRoundFails env kind.letter hfails
  -- The rounds collect, so they leave the document as it is.
  have hrounds : Spares env (eachRange env kind.letter (execute env true body) ranges) :=
    spares_eachRange kind.letter (spares_execute body) ranges
  have hdocument := hrounds.document_eq { session with dot := sel.clamp session.document.size }
  rw [hafter] at hdocument
  refine ⟨after, hdocument, fun collecting => ?_⟩
  have hrelease : release collecting ((none : Option (List Replacement)).getD []) after =
      (.ok [], after) := by
    rw [Option.getD_none]
    exact release_nil collecting after
  rw [execute, bind_ok hevaluate]
  cases kind with
  | eachMatch =>
    cases hranges
    exact (bind_ok hafter _).trans hrelease
  | eachGap =>
    cases hranges
    exact (bind_ok hafter _).trans hrelease
  | ifFound => cases hranges
  | unlessFound => cases hranges

end Run

/-! ## Programs -/

variable {σ : Type}

/-- **A failing program changes nothing.** Where a program fails, at whatever depth, its document is
as it was: the text, the history, the revision, the selections, and what listeners were told. A
round of a loop that fails leaves none of the edits which the loop has collected, and the enclosing
block goes on with its other commands. -/
theorem Session.interpret_atomic (env : Environment σ) :
    (∀ (program : String) (session : Session σ) (error : EditError),
      (session.interpret env program).1 = .error error →
        (session.interpret env program).2.document = session.document) ∧
    (∀ (kind : Visit) (range : Address) (delimiter : Option Char) (regex : Regex) (body : Command)
        (session : Session σ) (sel : Selection) (ranges : List Selection),
      range.evaluate session.document.source session.dot = .ok sel →
      Run.roundsOf kind regex session.document.source sel = some ranges →
      Run.SomeRoundFails (Run.execute env true body) ranges
        { session with dot := sel.clamp session.document.size } →
      ∃ after, after.document = session.document ∧
        (∀ collecting, Run.execute env collecting (.visit kind range delimiter regex body)
          session = (.ok [], after)) ∧
        ∀ rest, Run.executeAll env (.visit kind range delimiter regex body :: rest) session =
          Run.executeAll env rest after) := by
  refine ⟨fun program session error => ?_, ?_⟩
  · unfold Session.interpret
    split
    · exact fun _ => rfl
    · next command _ =>
      intro herror
      have hatomic := Run.atomic_execute env false command { session with
        dot := session.dot.clamp session.document.size, fresh := true }
      dsimp only at herror ⊢
      generalize Run.execute env false command { session with
        dot := session.dot.clamp session.document.size, fresh := true } = run at herror hatomic ⊢
      rcases run with ⟨result | value, after⟩
      · exact hatomic result rfl
      · cases herror
  · intro kind range delimiter regex body session sel ranges hsel hranges hfails
    obtain ⟨after, hdocument, hloop⟩ := Run.execute_of_someRoundFails env hsel hranges hfails
    refine ⟨after, hdocument, hloop, fun rest => ?_⟩
    rw [Run.executeAll, Run.bind_ok (hloop true)]
    exact congrFun (bind_pure (Run.executeAll env rest)) after

/-- A block that has collected an edit when a replacement names a group that there is not, and a
block with a loop whose second round does so, after the first round has deleted a character. -/
theorem Session.interpret_atomic_unknownGroup :
    ∃ (env : Environment Unit) (session after : Session Unit) (loop rest : Command),
      session.document.content = "ab".toList ∧
      (session.interpret env ",\x7b a/!/ s/a/\\9/ \x7d").1 = .error (.unknownGroup 9) ∧
      (session.interpret env ",\x7b a/!/ s/a/\\9/ \x7d").2.document = session.document ∧
      Command.parse "\x7b x/./\x7b d s/b/\\9/ \x7d a/!/ \x7d" =
        .ok (.block (.simple ⟨none, .dot⟩) [loop, rest]) ∧
      after.document = session.document ∧
      Run.executeAll env [loop, rest] session = Run.executeAll env [rest] after := by
  let env : Environment Unit := .silent
  let session : Session Unit := .onText "ab" ⟨0, 2⟩
  -- What the loop of the second program looks for, and what it does there.
  let regex : Regex := ⟨".", #[.split [3, 1], .oneOf .any, .jump 0, .save 0, .oneOf .dot, .save 1,
    .accept], 2, false⟩
  let body : Command := .block (.simple ⟨none, .dot⟩) [.delete (.simple ⟨none, .dot⟩),
    .substitute (.simple ⟨none, .dot⟩) 0 '/' ⟨"b", #[.split [3, 1], .oneOf .any, .jump 0, .save 0,
      .char 'b', .save 1, .accept], 2, false⟩ "\\9" false]
  have herror : (session.interpret env ",\x7b a/!/ s/a/\\9/ \x7d").1 =
      .error (.unknownGroup 9) := by
    set_option maxRecDepth 1000 in cbv
  have hparse : Command.parse "\x7b x/./\x7b d s/b/\\9/ \x7d a/!/ \x7d" =
      .ok (.block (.simple ⟨none, .dot⟩) [.visit .eachMatch (.simple ⟨none, .dot⟩) (some '/') regex
        body, .place .after (.simple ⟨none, .dot⟩) '/' "!"]) := by
    set_option maxRecDepth 2000 in cbv
  have hcontent : session.document.content = "ab".toList := Session.content_onText _ _
  have hsel : (Address.simple ⟨none, .dot⟩).evaluate session.document.source session.dot =
      .ok ⟨0, 2⟩ := by
    set_option maxRecDepth 5000 in cbv
  have hranges : Run.roundsOf .eachMatch regex session.document.source ⟨0, 2⟩ =
      some [⟨0, 1⟩, ⟨1, 2⟩] := by
    set_option maxRecDepth 2000 in cbv
  have hfails : Run.SomeRoundFails (Run.execute env true body) [⟨0, 1⟩, ⟨1, 2⟩]
      { session with dot := Selection.clamp ⟨0, 2⟩ session.document.size } := by
    refine .later [⟨⟨0, 1⟩, []⟩] ?_ (.next (.unknownGroup 9) ?_)
    · set_option maxRecDepth 2000 in cbv
    · set_option maxRecDepth 1000 in cbv
  obtain ⟨hprogram, hloop⟩ := Session.interpret_atomic env
  obtain ⟨after, hdocument, _, hrest⟩ := hloop .eachMatch (.simple ⟨none, .dot⟩) (some '/') regex
    body session ⟨0, 2⟩ _ hsel hranges hfails
  exact ⟨env, session, after, _, _, hcontent, herror, hprogram _ session _ herror, hparse, hdocument,
    hrest _⟩

end Emend
