import Emend.Proofs.Command.Substituting

/-!
# A substitution as a loop

A substitution of all matches and a loop over the matches that puts a text in place of each are
written apart: the one expands its replacement text and stops at the end of its range, the other
runs a command on every match with another dot, and collects what that leaves. Each of them is an
equation here: the edits of the substitution (`substitutions_plain`) and the edits of the loop
(`eachRange_instead`) are the same list, one edit for each match. So the two programs are equal, on
every session, if the replacement text has no escapes and the pattern does not match the empty text
at the end of the range, where only the loop would see it.
-/

namespace Emend

variable {text : Source} {window : Selection} {regex : Regex} {pattern replacement : String}
  {ranges : List Selection}

/-! ## The edits of a substitution -/

/-- A replacement text without escapes is put in place of every match that is replaced. -/
theorem substitutions_plain (text : Source) (window : Selection) (nth : Nat) (regex : Regex)
    (all : Bool) (hplain : '\\' ∉ replacement.toList) :
    substitutions text window nth regex replacement all =
      .ok ((selectedMatches text window nth regex all).map
        fun captures => ⟨captures.range, replacement.toList⟩) := by
  unfold substitutions
  dsimp only
  generalize hselected : substituted _ _ _ = selected
  have hsame : selectedMatches text window nth regex all = selected := hselected
  rw [hsame]
  clear hsame hselected
  induction selected with
  | nil => rfl
  | cons captures rest ih =>
    rw [List.mapM_cons, ih, Captures.expand_of_plain hplain]
    rfl

/-- All matches are replaced if none is empty at the end of the window. -/
theorem selectedMatches_all (hscans : Scans pattern text window.stop window.start
      (regex.matchesIn text window))
    (hend : ¬Pattern.MatchesRange pattern text window.stop window.stop) (all : Bool) :
    selectedMatches text window 0 regex all =
      regex.successive text window.start window.stop := by
  unfold selectedMatches
  rw [substituted_eq, if_pos (.inl rfl), List.takeWhile_eq_self_iff]
  intro captures hmem
  obtain ⟨_, ⟨hle, hstop⟩, hmatches⟩ := hscans.of_mem (List.mem_map_of_mem hmem)
  refine decide_eq_true (Nat.lt_of_not_le fun hge => hend ?_)
  -- What begins at the end of the window also ends there.
  have hstart : captures.range.start = window.stop := Nat.le_antisymm (Nat.le_trans hle hstop) hge
  have hlast : captures.range.stop = window.stop := Nat.le_antisymm hstop (Nat.le_trans hge hle)
  rwa [hstart, hlast] at hmatches

/-! ## The edits of a loop -/

namespace Run

variable {σ : Type} (env : Environment σ) {session : Session σ}

/-- The command that puts a text in place of dot. -/
def insteadOfDot (delimiter : Char) (replacement : String) : Command :=
  .place .instead (.simple ⟨none, .dot⟩) delimiter replacement

/-- One round leaves one edit, and nothing else. -/
theorem withDot_instead (delimiter : Char) {range : Selection}
    (hrange : range.IsWithin session.document.size) :
    withDot range (execute env true (insteadOfDot delimiter replacement)) session =
      (.ok [⟨range, replacement.toList⟩], session) := by
  have hclamp := Selection.clamp_of_isWithin hrange
  have hevaluate : (Address.simple ⟨none, .dot⟩).evaluate session.document.source range =
      .ok range := by
    show Except.ok ((range.clamp session.document.size).clamp session.document.size) = _
    rw [hclamp, hclamp]
  let inside : Session σ := { session with dot := range }
  have hround : execute env true (insteadOfDot delimiter replacement) inside =
      (.ok [⟨range, replacement.toList⟩], inside) := by
    unfold insteadOfDot
    have hdot : (setDot range : Run σ Unit) inside = (.ok (), inside) := setDot_of_isWithin hrange
    have hcollect : (put true ⟨range, replacement.toList⟩ : Run σ (Selection × List Replacement))
        inside = (.ok (range, [⟨range, replacement.toList⟩]), inside) := rfl
    rw [execute, bind_ok (evaluate_ok hevaluate)]
    dsimp only
    rw [bind_ok hcollect]
    dsimp only
    rw [bind_ok hdot]
    rfl
  unfold withDot
  dsimp only
  rw [hclamp, hround]

/-- **The loop leaves an edit for each of its ranges.** -/
theorem eachRange_instead (letter delimiter : Char)
    (hranges : ∀ range ∈ ranges, range.IsWithin session.document.size) :
    eachRange env letter (execute env true (insteadOfDot delimiter replacement)) ranges session =
      (.ok (some (ranges.map fun range => ⟨range, replacement.toList⟩)), session) := by
  induction ranges with
  | nil => rfl
  | cons range rest ih =>
    have hrest := ih fun other hmem => hranges other (List.mem_cons_of_mem _ hmem)
    have hattempt : attempt (withDot range
        (execute env true (insteadOfDot delimiter replacement))) session =
        (.ok (.ok [⟨range, replacement.toList⟩]), session) := by
      unfold attempt
      rw [withDot_instead env delimiter (hranges range List.mem_cons_self)]
    rw [eachRange, bind_ok hattempt]
    dsimp only
    rw [bind_ok hrest]
    rfl

/-- The loop leaves the edits that the substitution works out. -/
theorem execute_substitute_eq_loop (hcompile : Regex.compile pattern true false = .ok regex)
    {range : Address} (delimiter textDelimiter : Char) (loopDelimiter : Option Char) (all : Bool)
    (hplain : '\\' ∉ replacement.toList)
    (hend : ∀ window, range.evaluate session.document.source session.dot = .ok window →
      ¬Pattern.MatchesRange pattern session.document.source window.stop window.stop) :
    execute env false (.substitute range 0 delimiter regex replacement all) session =
      execute env false (.visit .eachMatch range loopDelimiter regex
        (insteadOfDot textDelimiter replacement)) session := by
  -- If the range cannot be evaluated, both fail in the same way.
  cases hevaluate : range.evaluate session.document.source session.dot with
  | error error =>
    have hfails : (evaluate range : Run σ Selection) session = (.error error, session) := by
      unfold evaluate
      rw [hevaluate]
    rw [execute, execute, bind_apply, bind_apply, hfails]
  | ok window =>
    have hwithin : window.IsWithin session.document.source.size := isWithin_of_evaluate hevaluate
    -- The loop visits the matches, and leaves for each of them what the substitution leaves for it.
    have hscans : Scans pattern session.document.source window.stop window.start
        (regex.matchesIn session.document.source window) :=
      (Regex.answers_successive ⟨pattern, hcompile⟩ hwithin.2 window.start).scans hcompile
        hwithin.2
    have hranges : ∀ found ∈ regex.matchesIn session.document.source window,
        found.IsWithin session.document.size := by
      intro found hmem
      obtain ⟨_, ⟨hle, hstop⟩, _⟩ := hscans.of_mem hmem
      exact ⟨hle, Nat.le_trans hstop hwithin.2⟩
    let windowed : Session σ := { session with dot := window }
    have hloop : eachRange env Visit.eachMatch.letter
        (execute env true (insteadOfDot textDelimiter replacement))
        (regex.matchesIn session.document.source window) windowed =
        (.ok (some ((regex.matchesIn session.document.source window).map
          fun found => ⟨found, replacement.toList⟩)), windowed) :=
      eachRange_instead env _ textDelimiter hranges
    rw [execute_substitute env false 0 delimiter regex replacement all hevaluate,
      execute_eachMatch env false loopDelimiter regex _ hevaluate,
      substitutions_plain _ _ _ _ _ hplain, selectedMatches_all hscans (hend window hevaluate),
      visiting, bind_ok hloop, Regex.matchesIn, List.map_map]
    rfl

end Run

/-- **A substitution is a loop.** Replacing every match of a pattern in a range by a text without
escapes does to a session what the loop does that runs over the matches in the same range and puts
the text in place of each, if the pattern does not match the empty text at the end of the range. -/
theorem Session.interpret_substitute_eq_loop {σ : Type} (env : Environment σ)
    (session : Session σ) {substitution loop replacement : String} {range : Address}
    {delimiter textDelimiter : Char} {loopDelimiter : Option Char} {regex : Regex} {all : Bool}
    (hsubstitution : Command.parse substitution =
      .ok (.substitute range 0 delimiter regex replacement all))
    (hloop : Command.parse loop = .ok (.visit .eachMatch range loopDelimiter regex
      (.place .instead (.simple ⟨none, .dot⟩) textDelimiter replacement)))
    (hplain : '\\' ∉ replacement.toList)
    (hend : ∀ window, range.evaluate session.document.source session.begun.dot = .ok window →
      ¬Pattern.MatchesRange regex.pattern session.document.source window.stop window.stop) :
    session.interpret env substitution = session.interpret env loop := by
  have hcompile := (Command.searches_of_parse hsubstitution).compile
  have hsame : Run.execute env false (.substitute range 0 delimiter regex replacement all)
      session.begun = Run.execute env false (.visit .eachMatch range loopDelimiter regex
        (Run.insteadOfDot textDelimiter replacement)) session.begun :=
    Run.execute_substitute_eq_loop env hcompile delimiter textDelimiter loopDelimiter all hplain
      hend
  unfold Run.insteadOfDot at hsame
  rw [session.interpret_of_parse env hsubstitution, session.interpret_of_parse env hloop, hsame]

/-- A pattern that matches the empty text, but not at the end. -/
theorem Session.interpret_substitute_eq_loop_letters :
    Session.letters.interpret .silent ",s/^|b+/-/" =
        Session.letters.interpret .silent ",x/^|b+/c/-/" ∧
      (Session.letters.interpret .silent ",s/^|b+/-/").2.document.content = "-a-".toList := by
  let regex : Regex := ⟨"^|b+", #[.split [3, 1], .oneOf .any, .jump 0, .save 0, .split [5, 7],
    .assert .beginLine, .jump 9, .char 'b', .split [7, 9], .save 1, .accept], 2, false⟩
  have hsubstitution : Command.parse ",s/^|b+/-/" = .ok (.substitute
      (.between (.simple ⟨none, .line 0⟩) .comma (.simple ⟨none, .last⟩)) 0 '/' regex "-"
      false) := by
    cbv
  have hloop : Command.parse ",x/^|b+/c/-/" = .ok (.visit .eachMatch
      (.between (.simple ⟨none, .line 0⟩) .comma (.simple ⟨none, .last⟩)) (some '/') regex
      (.place .instead (.simple ⟨none, .dot⟩) '/' "-")) := by
    set_option maxRecDepth 1000 in cbv
  have hcompile : Regex.compile "^|b+" true false = .ok regex := by
    cbv
  have hwindow : Address.evaluate Session.letters.document.source Session.letters.begun.dot
      (.between (.simple ⟨none, .line 0⟩) .comma (.simple ⟨none, .last⟩)) = .ok ⟨0, 3⟩ := by
    set_option maxRecDepth 1000 in cbv
  have hnone : regex.matchAt Session.letters.document.source 3 3 .forward = none := by
    set_option maxRecDepth 1000 in cbv
  -- At the end of the range a match would be found by an attempt there.
  have hend : ∀ window, Address.evaluate Session.letters.document.source Session.letters.begun.dot
      (.between (.simple ⟨none, .line 0⟩) .comma (.simple ⟨none, .last⟩)) = .ok window →
      ¬Pattern.MatchesRange "^|b+" Session.letters.document.source window.stop window.stop := by
    intro window hevaluate hmatches
    obtain rfl := Except.ok.inj (hwindow.symm.trans hevaluate)
    have hwithin := Run.isWithin_of_evaluate hwindow
    have hsome := (isSome_matchAt_iff hcompile (Nat.le_refl 3) hwithin.2).2
      ⟨3, 3, Nat.le_refl 3, Nat.le_refl 3, Nat.le_refl 3, hmatches⟩
    rw [hnone] at hsome
    cases hsome
  have hcontent : (Session.letters.interpret .silent ",s/^|b+/-/").2.document.content =
      "-a-".toList := by
    set_option maxRecDepth 1000 in cbv
  have hplain : '\\' ∉ "-".toList := by
    decide
  have hsame : Session.letters.interpret .silent ",s/^|b+/-/" =
      Session.letters.interpret .silent ",x/^|b+/c/-/" :=
    Session.letters.interpret_substitute_eq_loop .silent hsubstitution hloop hplain hend
  exact ⟨hsame, hcontent⟩

end Emend
