import Emend.Proofs.Command.Registered
import Mathlib

/-!
# Programs leave no stray selections

A command on the range of a handle does what it does with a dot (`Run.follows_executeAt`): the proof
is an induction on the command, with one lemma for each thing that a command does besides editing.
A block, a loop and a substitution register ranges of their own, and take them out again whether
what they are for fails or not. So a program ends with the handles that were in use before it, and
with a dot that is a range of the text (`Session.interpret_leaves`).
-/

namespace Emend

variable {σ α : Type}

namespace Run

variable {collecting : Bool} {handle : SelectionHandle}

/-! ## What else a run can do -/

/-- Reading the text of a range does not depend on registered selections. -/
theorem follows_textOf (sel : Selection) :
    Follows collecting handle (textOf sel : Run σ (List Char)) (textOf sel) :=
  .look fun _ _ _ => rfl

/-- Reading the whole text does not depend on registered selections. -/
theorem follows_source :
    Follows collecting handle (look (·.document.source) : Run σ Source)
      (look (·.document.source)) :=
  .look fun _ _ _ => rfl

variable (env : Environment σ)

/-- A message does not depend on registered selections. -/
theorem follows_warn (message : String) :
    Follows collecting handle (warn env message) (warn env message) :=
  .stepAside (fun _ => rfl) (fun _ => rfl) fun _ _ _ => rfl

/-- Printing does not depend on registered selections. -/
theorem follows_print (text : String) :
    Follows collecting handle (print env text) (print env text) :=
  .stepAside (fun _ => rfl) (fun _ => rfl) fun _ _ _ => rfl

/-- A job does not depend on registered selections. -/
theorem follows_job (command : String) (input : List Char) :
    Follows collecting handle (job env command input) (job env command input) := by
  unfold job
  refine .bind (.stepAside (fun _ => rfl) (fun _ => rfl) fun _ _ _ => rfl) fun result => ?_
  cases result with
  | ok output => exact .pure _
  | error message => exact .bind (follows_warn env _) fun _ => .pure _

/-- Reading a file does not depend on registered selections. -/
theorem follows_readFile (name : String) :
    Follows collecting handle (readFile env name) (readFile env name) := by
  unfold readFile
  split
  · exact .bind (follows_warn env _) fun _ => .pure _
  · refine .bind (.look fun _ _ _ => rfl) fun path => ?_
    refine .bind (.look fun _ _ _ => rfl) fun result => ?_
    cases result with
    | ok text => exact .pure _
    | error error => exact .bind (follows_warn env _) fun _ => .pure _

/-- Writing a file does not depend on registered selections. -/
theorem follows_writeFile (name : String) (sel : Selection) :
    Follows collecting handle (writeFile env name sel) (writeFile env name sel) := by
  unfold writeFile
  split
  · exact follows_warn env _
  · refine .bind (.look fun _ _ _ => rfl) fun path => .bind (follows_textOf sel) fun text => ?_
    refine .bind (.look fun _ _ _ => rfl) fun result => ?_
    cases result with
    | ok files => exact .stepAside (fun _ => rfl) (fun _ => rfl) fun _ _ _ => rfl
    | error error => exact follows_warn env _

/-- Printing a position does not depend on registered selections. -/
theorem follows_printPosition (argument : String) (sel : Selection) :
    Follows collecting handle (printPosition env argument sel)
      (printPosition env argument sel) := by
  unfold printPosition
  refine .bind (.look fun _ _ _ => rfl) fun path => ?_
  split
  · exact follows_print env _
  · split
    · refine .bind (.look fun _ _ _ => rfl) fun first => ?_
      refine .bind (.look fun _ _ _ => rfl) fun last => ?_
      exact follows_print env _
    · exact follows_warn env _

/-! ## Commands -/

/-- What begins with a range that becomes dot. -/
theorem follows_onRange (range : Address) {next plainNext : Selection → Run σ α}
    (h : ∀ sel, Follows collecting handle (next sel) (plainNext sel)) :
    Follows collecting handle
      (do
        let sel ← evaluateAt handle range
        select handle sel
        next sel)
      (do
        let sel ← evaluate range
        setDot sel
        plainNext sel) :=
  .bind (follows_evaluate range) fun sel => .bind (follows_setDot sel) fun _ => h sel

/-- A loop gives each round a range of its own. -/
theorem follows_eachRange (letter : Char) {body : SelectionHandle → Run σ (List Replacement)}
    {plain : Run σ (List Replacement)} (h : ∀ inner, Follows true inner (body inner) plain)
    (ranges : List Selection) :
    Follows collecting handle (eachRangeAt env letter body ranges)
      (eachRange env letter plain ranges) := by
  induction ranges with
  | nil => exact .pure _
  | cons sel rest ih =>
    unfold eachRangeAt eachRange
    refine .bind (.attempt (follows_withDot h sel)) fun result => ?_
    cases result with
    | error error => exact .bind (follows_warn env _) fun _ => .pure _
    | ok edits => exact .bind ih fun found => .pure _

/-- A loop comes to the same with a registered dot if its body does. -/
theorem follows_loop (letter : Char) {body : SelectionHandle → Run σ (List Replacement)}
    {plain : Run σ (List Replacement)} (h : ∀ inner, Follows true inner (body inner) plain)
    (ranges : List Selection) :
    Follows collecting handle
      (do
        let edits ← eachRangeAt env letter body ranges
        release collecting (edits.getD []))
      (do
        let edits ← eachRange env letter plain ranges
        release collecting (edits.getD [])) :=
  .bind (follows_eachRange env letter h ranges) fun _ => follows_release _

/-- A transfer comes to the same with a registered dot. -/
theorem follows_transfer (moving : Bool) (range : Selection) (target : Nat) :
    Follows collecting handle
      (transferAt collecting moving handle range target : Run σ (List Replacement))
      (transfer collecting moving range target) := by
  unfold transferAt transfer
  dsimp only
  split
  · exact .throw _ _ _
  · refine .bind (follows_textOf range) fun text => .bind (follows_release _) fun edits => ?_
    split
    · exact .bind (follows_setDot _) fun _ => .pure _
    · exact .pure _

/-- A command with a job comes to the same with a registered dot. -/
theorem follows_pipe (kind : Pipe) (range : Address) (command : String) :
    Follows collecting handle (pipeAt env collecting handle kind range command)
      (pipe env collecting kind range command) := by
  unfold pipeAt pipe
  cases kind with
  | input =>
    refine .bind (follows_job env _ _) fun output => ?_
    cases output with
    | none => exact .pure _
    | some output =>
      exact .bind (follows_evaluate range) fun sel => follows_put_setDot _ fun after => after
  | output =>
    refine follows_onRange range fun sel => .bind (follows_textOf sel) fun text => ?_
    refine .bind (follows_job env _ _) fun output => ?_
    split
    · exact .bind (follows_print env _) fun _ => .pure _
    · exact .pure _
  | filter =>
    refine follows_onRange range fun sel => .bind (follows_textOf sel) fun text => ?_
    refine .bind (follows_job env _ _) fun output => ?_
    cases output with
    | none => exact .pure _
    | some output => exact follows_put_setDot _ fun after => after

/-- A command with a file comes to the same with a registered dot. -/
theorem follows_file (use : FileUse) (range : Address) (name : String) :
    Follows collecting handle (fileAt env collecting handle use range name)
      (file env collecting use range name) := by
  unfold fileAt file
  cases use with
  | edit =>
    refine .bind (follows_readFile env name) fun text => ?_
    cases text with
    | none => exact .pure _
    | some text =>
      exact .bind (.look fun _ _ _ => rfl) fun size => follows_put_setDot _ fun _ => .point 0
  | read =>
    refine follows_onRange range fun sel => .bind (follows_readFile env name) fun text => ?_
    cases text with
    | none => exact .pure _
    | some text => exact follows_put_setDot _ fun after => after
  | write =>
    refine follows_onRange range fun sel => .bind (.look fun _ _ _ => rfl) fun size => ?_
    exact .bind (follows_writeFile env name _) fun _ => .pure _

mutual

/-- **A command on the range of a handle does what it does with a dot.** -/
theorem follows_executeAt (collecting : Bool) (handle : SelectionHandle) (command : Command) :
    Follows collecting handle (executeAt env collecting handle command)
      (execute env collecting command) := by
  -- Each step follows its plain form, and so do they put together in the same way.
  cases command with
  | goto range =>
    rw [executeAt, execute]
    exact follows_onRange range fun sel => .pure _
  | place placement range delimiter text =>
    rw [executeAt, execute]
    refine .bind (follows_evaluate range) fun sel => ?_
    cases placement with
    | after => exact .bind (follows_put _) fun _ => .pure _
    | before => exact .bind (follows_put _) fun _ => .pure _
    | instead => exact follows_put_setDot _ fun after => after
  | delete range =>
    rw [executeAt, execute]
    exact .bind (follows_evaluate range) fun sel => follows_put_setDot _ fun after => after
  | substitute range nth delimiter regex replacement all =>
    rw [executeAt, execute]
    refine .bind (follows_evaluate range) fun sel => .bind follows_source fun text => ?_
    exact .bind (.ofExcept _) fun edits => follows_substitute sel edits
  | transfer moving range target =>
    rw [executeAt, execute]
    exact .bind (follows_evaluate range) fun sel => .bind (follows_evaluate target) fun behind =>
      follows_transfer moving sel behind.stop
  | print range =>
    rw [executeAt, execute]
    refine follows_onRange range fun sel => .bind (follows_textOf sel) fun text => ?_
    exact .bind (follows_print env _) fun _ => .pure _
  | position range argument =>
    rw [executeAt, execute]
    exact follows_onRange range fun sel => .bind (follows_printPosition env argument sel) fun _ =>
      .pure _
  | visit kind range delimiter regex body =>
    rw [executeAt, execute]
    refine follows_onRange range fun sel => .bind follows_source fun text => ?_
    cases kind with
    | ifFound =>
      dsimp only
      split
      · exact follows_executeAt collecting handle body
      · exact .pure _
    | unlessFound =>
      dsimp only
      split
      · exact .pure _
      · exact follows_executeAt collecting handle body
    -- The body of a loop runs with a handle of its own, and edits later.
    | eachMatch => exact follows_loop env _ (fun inner => follows_executeAt true inner body) _
    | eachGap => exact follows_loop env _ (fun inner => follows_executeAt true inner body) _
  | pipe kind range command =>
    rw [executeAt, execute]
    exact follows_pipe env kind range command
  | file use range name =>
    rw [executeAt, execute]
    exact follows_file env use range name
  | block range commands =>
    rw [executeAt, execute]
    refine .bind (follows_evaluate range) fun sel => ?_
    -- So does a block.
    refine .bind (follows_withDot (fun inner => ?_) sel) fun edits => follows_release edits
    exact follows_executeAllAt inner commands

/-- The commands of a block do what they do with a dot. -/
theorem follows_executeAllAt (handle : SelectionHandle) (commands : List Command) :
    Follows true handle (executeAllAt env handle commands) (executeAll env commands) := by
  cases commands with
  | nil =>
    rw [executeAllAt, executeAll]
    exact .pure _
  | cons command rest =>
    rw [executeAllAt, executeAll]
    exact .bind (follows_executeAt true handle command) fun edits =>
      .bind (follows_executeAllAt handle rest) fun others => .pure _

end

end Run

/-! ## Programs -/

/-- A program on registered ranges does what it does with a dot of its own: only the free slots of
the selections can tell the two apart. -/
theorem Session.exists_interpretRegistered (env : Environment σ) {program : String}
    {command : Command} (hparse : Command.parse program = .ok command) (session : Session σ) :
    ∃ result final after,
      session.interpret env program = (result, final) ∧
      session.interpretRegistered env program = (result, final.keeping after final.dot) ∧
      final.dot.IsWithin final.document.size ∧
      after.Extends final.document.selections ∧
      session.document.selections.SameHandles final.document.selections ∧
      session.document.selections.SameHandles after := by
  obtain ⟨result, final, after, last, hplain, hregistered, hwithin, hextends, hleaves⟩ :=
    Run.exists_registering (fun handle => Run.follows_executeAt env false handle command)
      { session with fresh := true } (fun _ _ hget => hget) session.dot session.dot
  refine ⟨result.map fun _ => (), final, after, ?_, ?_, hwithin, hextends, hleaves.known,
    hleaves.live⟩
  · rw [interpret, hparse]
    show (Except.map _ (Run.execute env false command { session with
      dot := session.dot.clamp session.document.size, fresh := true }).1, _) = _
    rw [hplain]
  · have hrun : Run.registering session.dot
        (fun handle => Run.executeAt env false handle command) { session with fresh := true } =
        (result, some final.dot, final.keeping after last) := hregistered
    rw [interpretRegistered, hparse]
    dsimp only
    rw [hrun]
    rfl

/-- **A program leaves no stray selections, and a dot within the text.** Whether a program fails or
not, at whatever depth, the handles in use afterwards are those in use before, and dot is a range of
the final text, wherever it began. In all else it does what it does with a dot that is not
registered: results, files, messages and document are the same, and so are all registered
selections. -/
theorem Session.interpret_leaves (env : Environment σ) {program : String} {command : Command}
    (hparse : Command.parse program = .ok command) (session : Session σ) :
    session.document.selections.SameHandles
        (session.interpretRegistered env program).2.document.selections ∧
      (session.interpretRegistered env program).2.dot.IsWithin
        (session.interpretRegistered env program).2.document.size ∧
      ∃ selections,
        session.interpretRegistered env program =
          ((session.interpret env program).1,
            (session.interpret env program).2.keeping selections
              (session.interpret env program).2.dot) ∧
        ∀ handle, selections.get? handle =
          (session.interpret env program).2.document.selections.get? handle := by
  obtain ⟨result, final, after, hplain, hregistered, hwithin, hextends, hknown, hlive⟩ :=
    session.exists_interpretRegistered env hparse
  rw [hplain, hregistered]
  refine ⟨hlive, hwithin, after, rfl, hextends.get?_eq fun handle => ?_⟩
  rw [hlive, hknown]

/-- A block in a block fails, after the outer one has collected an edit. Of three slots the one in
the middle is free, and dot reaches behind the end of the text. -/
theorem Session.interpret_leaves_unknownGroup :
    ∃ (env : Environment Unit) (session : Session Unit) (command : Command),
      session.document.content = "ab".toList ∧ session.dot = ⟨0, 9⟩ ∧
      session.document.selections = ⟨[some ⟨0, 1⟩, none, some ⟨1, 2⟩]⟩ ∧
      Command.parse "\x7b a/!/ \x7b s/a/\\9/ \x7d \x7d" = .ok command ∧
      (session.interpretRegistered env "\x7b a/!/ \x7b s/a/\\9/ \x7d \x7d").1 =
        .error (.unknownGroup 9) ∧
      session.document.selections.SameHandles
        (session.interpretRegistered env
          "\x7b a/!/ \x7b s/a/\\9/ \x7d \x7d").2.document.selections ∧
      (session.interpretRegistered env "\x7b a/!/ \x7b s/a/\\9/ \x7d \x7d").2.dot.IsWithin
        (session.interpretRegistered env "\x7b a/!/ \x7b s/a/\\9/ \x7d \x7d").2.document.size := by
  let env : Environment Unit := .silent
  let plain : Session Unit := .onText "ab" ⟨0, 9⟩
  let session : Session Unit := { plain with document := { plain.document with
    selections := ⟨[some ⟨0, 1⟩, none, some ⟨1, 2⟩]⟩ } }
  let inside : Command := .block (.simple ⟨none, .dot⟩) [.substitute (.simple ⟨none, .dot⟩) 0 '/'
    ⟨"a", #[.split [3, 1], .oneOf .any, .jump 0, .save 0, .char 'a', .save 1, .accept], 2, false⟩
    "\\9" false]
  let command : Command :=
    .block (.simple ⟨none, .dot⟩) [.place .after (.simple ⟨none, .dot⟩) '/' "!", inside]
  have hcontent : session.document.content = "ab".toList := by
    set_option maxRecDepth 1000 in cbv
  have hparse : Command.parse "\x7b a/!/ \x7b s/a/\\9/ \x7d \x7d" = .ok command := by
    set_option maxRecDepth 2000 in cbv
  have herror : (session.interpretRegistered env "\x7b a/!/ \x7b s/a/\\9/ \x7d \x7d").1 =
      .error (.unknownGroup 9) := by
    set_option maxRecDepth 2000 in cbv
  obtain ⟨hhandles, hwithin, _⟩ := session.interpret_leaves env hparse
  exact ⟨env, session, command, hcontent, rfl, rfl, hparse, herror, hhandles, hwithin⟩

end Emend
