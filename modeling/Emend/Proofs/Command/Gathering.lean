import Emend.Proofs.Command.Applying
import Emend.Proofs.Command.Compiled
import Mathlib

/-!
# Commands that gather edits

A loop, a substitution and a block gather the edits of what runs in them, and apply them together
when they are done. Until then the text does not change, at no point of the run: `Spares` says of an
action that it is put together from operations none of which is an edit, and everything that runs
inside such a command is (`spares_execute`). What such a command does is to gather, and then to
release what it has gathered (`execute_eq_gather`).

So a program whose outermost command is one of these substitutes all of its edits at once, each in
positions of the original text, or fails and changes nothing: `interpret_gathers`.
-/

namespace Emend

/-- The command gathers the edits of what runs in it: a loop, a substitution, or a block. -/
def Command.gathers : Command → Bool
  | .visit .eachMatch _ _ _ _ | .visit .eachGap _ _ _ _ => true
  | .substitute _ _ _ _ _ _ | .block _ _ => true
  | .visit .ifFound _ _ _ _ | .visit .unlessFound _ _ _ _ => false
  | .goto _ | .place _ _ _ _ | .delete _ | .transfer _ _ _ | .print _ | .position _ _
  | .pipe _ _ _ | .file _ _ _ => false

namespace Run

variable {σ α β : Type}

/-- The action is put together from operations none of which edits the document. -/
inductive Spares (env : Environment σ) : {α : Type} → Run σ α → Prop where
  /-- Nothing. -/
  | pure {α : Type} (value : α) : Spares env (Pure.pure value)
  /-- A failure. -/
  | throw {α : Type} (error : EditError) : Spares env (throw error : Run σ α)
  /-- A look at the session. -/
  | look {α : Type} (f : Session σ → α) : Spares env (look f)
  /-- An address. -/
  | evaluate (address : Address) : Spares env (evaluate address)
  /-- Another dot. -/
  | setDot (sel : Selection) : Spares env (setDot sel)
  /-- A warning. -/
  | warn (message : String) : Spares env (warn env message)
  /-- A text that is printed. -/
  | print (text : String) : Spares env (print env text)
  /-- A job. -/
  | job (command : String) (input : List Char) : Spares env (job env command input)
  /-- A file that is written. -/
  | files (files : FileSystem) : Spares env (step fun session => ((), { session with files }))
  /-- One after the other. -/
  | bind {α β : Type} {action : Run σ α} {next : α → Run σ β} (first : Spares env action)
    (rest : ∀ value, Spares env (next value)) : Spares env (action >>= next)
  /-- Something with another dot. -/
  | withDot {α : Type} (sel : Selection) {action : Run σ α} (inside : Spares env action) :
    Spares env (withDot sel action)
  /-- Something whose failure is taken as a result. -/
  | attempt {α : Type} {action : Run σ α} (inside : Spares env action) :
    Spares env (attempt action)

variable {env : Environment σ}

/-- An action without edits leaves the document as it is. -/
theorem Spares.document_eq {action : Run σ α} (h : Spares env action) (session : Session σ) :
    (action session).2.document = session.document := by
  induction h generalizing session with
  | bind first rest ihFirst ihRest =>
    rw [bind_apply]
    have hfirst := ihFirst session
    split
    · next value after haction =>
      rw [haction] at hfirst
      rw [ihRest value after, hfirst]
    · next error after haction =>
      rw [haction] at hfirst
      exact hfirst
  -- Dot is put back afterwards, and belongs to the session.
  | withDot sel inside ih => exact ih { session with dot := sel.clamp session.document.size }
  | attempt inside ih => exact ih session
  | job command input =>
    have hkeeps : Keeps (fun doc _ => doc = session.document) anyResult
        (Run.job env command input) :=
      keeps_job env command input
    exact (hkeeps session rfl).1
  | _ => rfl

/-- A result that is there already spares the document. -/
theorem spares_ofExcept (result : Except EditError α) :
    Spares env (ExceptT.mk (Pure.pure result) : Run σ α) := by
  cases result with
  | ok value => exact .pure value
  | error error => exact .throw error

/-- Reading a file spares the document. -/
theorem spares_readFile (name : String) : Spares env (readFile env name) := by
  unfold readFile
  split
  · exact .bind (.warn _) fun _ => .pure none
  · refine .bind (.look _) fun path => .bind (.look _) fun result => ?_
    cases result with
    | ok text => exact .pure (some text)
    | error error => exact .bind (.warn _) fun _ => .pure none

/-- Writing a file spares the document. -/
theorem spares_writeFile (name : String) (sel : Selection) :
    Spares env (writeFile env name sel) := by
  unfold writeFile
  split
  · exact .warn _
  · refine .bind (.look _) fun path => .bind (.look _) fun text => .bind (.look _) fun result => ?_
    cases result with
    | ok files => exact .files files
    | error error => exact .warn _

/-- Printing a position spares the document. -/
theorem spares_printPosition (argument : String) (sel : Selection) :
    Spares env (printPosition env argument sel) := by
  unfold printPosition
  refine .bind (.look _) fun path => ?_
  split
  · exact .print _
  · split
    · exact .bind (.look _) fun first => .bind (.look _) fun last => .print _
    · exact .warn _

/-- A loop spares the document if its body does. -/
theorem spares_eachRange (letter : Char) {body : Run σ (List Replacement)} (h : Spares env body)
    (ranges : List Selection) : Spares env (eachRange env letter body ranges) := by
  induction ranges with
  | nil => exact .pure (some [])
  | cons sel rest ih =>
    unfold eachRange
    refine .bind (.attempt (.withDot sel h)) fun result => ?_
    cases result with
    | error error => exact .bind (.warn _) fun _ => .pure none
    | ok edits => exact .bind ih fun found => .pure _

/-! ## Collecting -/

/-- Edits that are collected are handed on. -/
@[simp]
theorem release_collecting (edits : List Replacement) :
    (release true edits : Run σ (List Replacement)) = Pure.pure edits := by
  unfold release
  rw [if_pos rfl]

/-- A text that is collected is not put in. -/
theorem spares_put (replacement : Replacement) : Spares env (put true replacement) := by
  unfold put
  rw [if_pos rfl]
  exact .pure _

/-- A loop whose edits are handed on. -/
theorem spares_loop (letter : Char) {body : Run σ (List Replacement)} (h : Spares env body)
    (ranges : List Selection) : Spares env (do
      let edits ← eachRange env letter body ranges
      release true (edits.getD []) : Run σ (List Replacement)) := by
  refine .bind (spares_eachRange letter h ranges) fun edits => ?_
  rw [release_collecting]
  exact .pure _

/-- A transfer whose edits are collected spares the document. -/
theorem spares_transfer (moving : Bool) (range : Selection) (target : Nat) :
    Spares env (transfer true moving range target) := by
  unfold transfer
  dsimp only
  split
  · exact .throw _
  · refine .bind (.look _) fun text => ?_
    rw [release_collecting]
    exact .bind (.pure _) fun edits => .pure edits

/-- A job whose output is collected spares the document. -/
theorem spares_pipe (kind : Pipe) (range : Address) (command : String) :
    Spares env (pipe env true kind range command) := by
  unfold pipe
  cases kind with
  | input =>
    refine .bind (.job _ _) fun output => ?_
    cases output with
    | none => exact .pure []
    | some output =>
      exact .bind (.evaluate range) fun sel => .bind (spares_put _) fun result =>
        .bind (.setDot _) fun _ => .pure _
  | output =>
    refine .bind (.evaluate range) fun sel => .bind (.setDot sel) fun _ => ?_
    refine .bind (.look _) fun text => .bind (.job _ _) fun output => ?_
    dsimp only
    split
    · exact .bind (.print _) fun _ => .pure []
    · exact .pure []
  | filter =>
    refine .bind (.evaluate range) fun sel => .bind (.setDot sel) fun _ => ?_
    refine .bind (.look _) fun text => .bind (.job _ _) fun output => ?_
    cases output with
    | none => exact .pure []
    | some output =>
      exact .bind (spares_put _) fun result => .bind (.setDot _) fun _ => .pure _

/-- A file whose text is collected spares the document. -/
theorem spares_file (use : FileUse) (range : Address) (name : String) :
    Spares env (file env true use range name) := by
  unfold file
  cases use with
  | edit =>
    refine .bind (spares_readFile name) fun text => ?_
    cases text with
    | none => exact .pure []
    | some text =>
      exact .bind (.look _) fun size => .bind (spares_put _) fun result =>
        .bind (.setDot _) fun _ => .pure _
  | read =>
    refine .bind (.evaluate range) fun sel => .bind (.setDot sel) fun _ => ?_
    refine .bind (spares_readFile name) fun text => ?_
    cases text with
    | none => exact .pure []
    | some text =>
      exact .bind (spares_put _) fun result => .bind (.setDot _) fun _ => .pure _
  | write =>
    refine .bind (.evaluate range) fun sel => .bind (.setDot sel) fun _ => ?_
    exact .bind (.look _) fun size => .bind (spares_writeFile name _) fun _ => .pure []

mutual

/-- **A command whose edits are collected makes none.** -/
theorem spares_execute : (command : Command) → Spares env (execute env true command)
  -- A command is put together from steps that spare the document, and its edits are handed on.
  | .goto range => by
    rw [execute]
    exact .bind (.evaluate range) fun sel => .bind (.setDot sel) fun _ => .pure []
  | .place placement range _ text => by
    rw [execute]
    refine .bind (.evaluate range) fun sel => ?_
    cases placement with
    | after => exact .bind (spares_put _) fun result => .pure result.2
    | before => exact .bind (spares_put _) fun result => .pure result.2
    | instead => exact .bind (spares_put _) fun result => .bind (.setDot _) fun _ => .pure _
  | .delete range => by
    rw [execute]
    exact .bind (.evaluate range) fun sel => .bind (spares_put _) fun result =>
      .bind (.setDot _) fun _ => .pure _
  | .substitute range nth _ regex replacement all => by
    -- Its edits are worked out from the text, and not made.
    rw [execute]
    refine .bind (.evaluate range) fun sel => .bind (.look _) fun text => ?_
    refine .bind (spares_ofExcept _) fun edits => .bind (.setDot sel) fun _ => ?_
    rw [release_collecting]
    exact .pure edits
  | .transfer moving range target => by
    rw [execute]
    exact .bind (.evaluate range) fun sel => .bind (.evaluate target) fun behind =>
      spares_transfer moving sel behind.stop
  | .print range => by
    rw [execute]
    exact .bind (.evaluate range) fun sel => .bind (.setDot sel) fun _ =>
      .bind (.look _) fun text => .bind (.print _) fun _ => .pure []
  | .position range argument => by
    rw [execute]
    exact .bind (.evaluate range) fun sel => .bind (.setDot sel) fun _ =>
      .bind (spares_printPosition argument sel) fun _ => .pure []
  | .visit kind range _ regex body => by
    rw [execute]
    refine .bind (.evaluate range) fun sel => .bind (.setDot sel) fun _ => ?_
    refine .bind (.look _) fun text => ?_
    -- The body is a smaller command, and collects as well.
    have hbody := spares_execute body
    cases kind with
    | ifFound =>
      dsimp only
      split
      · exact hbody
      · exact .pure []
    | unlessFound =>
      dsimp only
      split
      · exact .pure []
      · exact hbody
    | eachMatch => exact spares_loop _ hbody _
    | eachGap => exact spares_loop _ hbody _
  | .pipe kind range command => by
    rw [execute]
    exact spares_pipe kind range command
  | .file use range name => by
    rw [execute]
    exact spares_file use range name
  | .block range commands => by
    rw [execute]
    refine .bind (.evaluate range) fun sel => .bind (.withDot sel (spares_executeAll commands)) ?_
    intro edits
    rw [release_collecting]
    exact .pure edits

/-- The commands of a block make no edits. -/
theorem spares_executeAll : (commands : List Command) → Spares env (executeAll env commands)
  | [] => by
    rw [executeAll]
    exact .pure []
  | command :: rest => by
    rw [executeAll]
    exact .bind (spares_execute command) fun edits => .bind (spares_executeAll rest) fun others =>
      .pure _

end

/-- **Such a command gathers, and then releases.** -/
theorem execute_eq_gather {command : Command} (h : command.gathers = true) :
    execute env false command = execute env true command >>= release false := by
  cases command with
  | substitute range nth delimiter regex replacement all =>
    rw [execute, execute]
    simp
  | visit kind range delimiter regex body =>
    cases kind with
    | eachMatch =>
      rw [execute, execute]
      simp
    | eachGap =>
      rw [execute, execute]
      simp
    | ifFound => cases h
    | unlessFound => cases h
  | block range commands =>
    rw [execute, execute]
    simp
  | _ => cases h

/-- The edits that a program's command gathers lie in the text. -/
theorem isWithin_of_gathered {program : String} {command : Command}
    (hparse : Command.parse program = .ok command) {session : Session σ}
    {edits : List Replacement} (hok : (execute env true command session).1 = .ok edits) :
    ∀ edit ∈ edits, edit.range.IsWithin session.document.size := by
  have hadmits : Admits (fun doc _ => doc = session.document)
      (·.range.IsWithin session.document.size) := by
    rintro doc fresh sel text rfl hwithin
    exact hwithin
  have hpatterns : command.PatternsMeet (MatchesMeet (fun doc _ => doc = session.document)
      (·.range.IsWithin session.document.size)) :=
    Command.PatternsMeet.mono (fun regex hsearches => matchesMeet_isWithin hsearches _) command
      (Command.patternsMeet_parse hparse)
  have hkeeps := execute_keeps env hadmits true nofun command hpatterns
  exact (hkeeps session rfl).2 edits hok

end Run

/-! ## Programs -/

variable {σ : Type}

/-- The session in which the command of a program begins to run. -/
def Session.begun (session : Session σ) : Session σ :=
  { session with dot := session.dot.clamp session.document.size, fresh := true }

/-- A program that can be read runs its command. -/
theorem Session.interpret_of_parse (env : Environment σ) (session : Session σ) {program : String}
    {command : Command} (hparse : Command.parse program = .ok command) :
    session.interpret env program =
      ((Run.execute env false command session.begun).1.map fun _ => (),
        (Run.execute env false command session.begun).2) := by
  unfold Session.interpret
  rw [hparse]
  rfl

/-- **Gathered edits are one simultaneous substitution.** A program whose outermost command gathers
does not change the text as long as that command runs. If it fails, the document is as it was. If it
succeeds, the edits that were gathered, in positions of the original text, are all applied
together. -/
theorem Session.interpret_gathers (env : Environment σ) (session : Session σ) {program : String}
    {command : Command} (hparse : Command.parse program = .ok command)
    (hgathers : command.gathers = true) (hvalid : session.document.IsValid)
    (heditable : session.document.editable = true) (hfree : session.document.protected? = none) :
    Run.Spares env (Run.execute env true command) ∧
    Run.execute env false command = Run.execute env true command >>= Run.release false ∧
    (∀ error, (session.interpret env program).1 = .error error →
      (session.interpret env program).2.document = session.document) ∧
    ((session.interpret env program).1 = .ok () →
      ∃ edits, (Run.execute env true command session.begun).1 = .ok edits ∧
        (∀ edit ∈ edits, edit.range.IsWithin session.document.size) ∧
        Replacement.AppliedTogether session.document.content edits
          (session.interpret env program).2.document.content) := by
  have hspares : Run.Spares env (Run.execute env true command) := Run.spares_execute command
  have hgather : Run.execute env false command =
      Run.execute env true command >>= Run.release false := Run.execute_eq_gather hgathers
  refine ⟨hspares, hgather, ?_⟩
  -- Gathering leaves the document as it is, so what is released meets the original text.
  have hdocument := hspares.document_eq session.begun
  have hinterpret : session.interpret env program =
      ((Run.execute env false command session.begun).1.map fun _ => (),
        (Run.execute env false command session.begun).2) := by
    unfold Session.interpret
    rw [hparse]
    rfl
  rw [hinterpret, hgather, Run.bind_apply]
  rcases hrun : Run.execute env true command session.begun with ⟨result, gathered⟩
  rw [hrun] at hdocument
  have hsame : gathered.document = session.document := hdocument
  cases result with
  | error error =>
    refine ⟨fun other _ => hsame, fun hok => ?_⟩
    cases hok
  | ok edits =>
    have hok : (Run.execute env true command session.begun).1 = .ok edits := by
      rw [hrun]
    have hgathered := Run.isWithin_of_gathered hparse hok
    have hwithin : ∀ edit ∈ edits, edit.range.IsWithin session.document.size := hgathered
    have hopen : Run.Open gathered.document := by
      rw [hsame]
      exact ⟨hvalid, heditable, hfree⟩
    obtain ⟨after, hrelease, happlied⟩ := Run.release_of_open hopen (by rw [hsame]; exact hwithin)
    rw [hsame] at happlied
    dsimp only
    rw [hrelease]
    refine ⟨fun error herror => ?_, fun _ => ⟨edits, rfl, hwithin, happlied⟩⟩
    cases herror

/-- A range with some of its parts replaced as well: what begins inside of it is left out. -/
theorem Session.interpret_gathers_overlap :
    ∃ (env : Environment Unit) (session : Session Unit) (edits : List Replacement),
      session.document.content = "abcb".toList ∧
      Replacement.AppliedTogether session.document.content edits
        (session.interpret env ",\x7b x/b/d c/Z/ a/!/ \x7d").2.document.content ∧
      (session.interpret env ",\x7b x/b/d c/Z/ a/!/ \x7d").2.document.content = "Z!".toList := by
  let env : Environment Unit := .silent
  let session : Session Unit := .onText "abcb" (.point 0)
  have hparse : Command.parse ",\x7b x/b/d c/Z/ a/!/ \x7d" = .ok (.block
      (.between (.simple ⟨none, .line 0⟩) .comma (.simple ⟨none, .last⟩))
      [.visit .eachMatch (.simple ⟨none, .dot⟩) (some '/') ⟨"b", #[.split [3, 1], .oneOf .any,
          .jump 0, .save 0, .char 'b', .save 1, .accept], 2, false⟩
          (.delete (.simple ⟨none, .dot⟩)),
        .place .instead (.simple ⟨none, .dot⟩) '/' "Z",
        .place .after (.simple ⟨none, .dot⟩) '/' "!"]) := by
    cbv
  have hcontent : session.document.content = "abcb".toList := Session.content_onText _ _
  have hok : (session.interpret env ",\x7b x/b/d c/Z/ a/!/ \x7d").1 = .ok () := by
    set_option maxRecDepth 1000 in cbv
  have hafter : (session.interpret env ",\x7b x/b/d c/Z/ a/!/ \x7d").2.document.content =
      "Z!".toList := by
    set_option maxRecDepth 1000 in cbv
  have hvalid : session.document.IsValid := Session.isValid_onText _ _
  obtain ⟨_, _, _, hgathered⟩ := session.interpret_gathers env hparse rfl hvalid rfl rfl
  obtain ⟨edits, _, _, happlied⟩ := hgathered hok
  exact ⟨env, session, edits, hcontent, happlied, hafter⟩

end Emend
