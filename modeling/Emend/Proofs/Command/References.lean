import Emend.Proofs.Command.Failing
import Emend.Proofs.Command.Substituting
import Emend.Proofs.Pattern.Openings

/-!
# The groups that a replacement text may name

No step of a thread changes how many slots it has, so every run of a program answers captures with
the slots of the program, in whatever window and direction it goes: two for each group of the
pattern (`groupCount_of_compile`). The groups are those that the parentheses of the pattern open,
and the whole. Which references of a replacement text are good is thereby known from the text of
the pattern alone.
-/

namespace Emend

open Machine Pattern

/-! ## The slots of a run -/

section

variable {program : Array Instr} {text : Source} {direction : Direction} {bound position : Nat}
  {thread next last : Thread} {middle stop count : Nat}

/-- A step keeps the number of slots. -/
theorem Machine.Step.size_slots
    (h : Step program text direction bound position thread middle next) :
    next.slots.size = thread.slots.size := by
  cases h with
  | take => rfl
  | stay goes =>
    unfold onward at goes
    split at goes
    · split at goes
      · rw [List.mem_singleton.1 goes]
      · cases goes
    · rw [List.mem_singleton.1 goes]
      exact Array.size_setIfInBounds
    · rw [List.mem_singleton.1 goes]
    · obtain ⟨target, _, rfl⟩ := List.mem_map.1 goes
      rfl
    all_goals cases goes

/-- So does a way of any number of steps. -/
theorem Machine.Path.size_slots
    (h : Path program text direction bound count position thread stop last) :
    last.slots.size = thread.slots.size := by
  induction h with
  | refl => rfl
  | step first _ ih => rw [ih, first.size_slots]

/-- **Every match of a pattern knows the same groups**, those of the pattern, whichever way its
program was written and wherever it ran. -/
theorem groupCount_of_compile {pattern : String} {node : Node} {search backward : Bool}
    {regex : Regex} {start : Nat} {captures : Captures} (hparse : parse pattern = .ok node)
    (hcompile : Regex.compile pattern search backward = .ok regex)
    (hmatch : regex.matchAt text start bound direction = some captures) :
    captures.groupCount = node.groupNumbers.length := by
  rw [compile_of_parse hparse] at hcompile
  cases hcompile
  rw [← matchAt_clamped, matchAt_ofProgram pattern _ _ direction (Nat.min_le_right _ _)
    (Nat.min_le_right _ _)] at hmatch
  obtain ⟨noted, hanswer, rfl⟩ := Option.map_eq_some_iff.1 hmatch
  obtain ⟨_, _, last, hpath, _, rfl⟩ := exists_path_of_answer hanswer
  have hsize : (direction.inOrder last.slots).size = 2 * node.groupNumbers.length := by
    rw [size_inOrder, hpath.size_slots, Array.size_replicate, slotsFor_programOf hparse]
  show (direction.inOrder last.slots).size / 2 = _
  rw [hsize, Nat.mul_div_cancel_left _ Nat.two_pos]

end

/-! ## References to groups -/

section

variable {σ : Type} {env : Environment σ} {collecting : Bool} {session : Session σ}
  {range : Address} {nth : Nat} {delimiter : Char} {regex : Regex} {replacement : String}
  {all : Bool} {window : Selection}

/-- A substitution with something to replace fails for an unknown group just if the replacement text
names a group that its matches lack. -/
theorem Run.execute_substitute_unknownGroup_iff {count : Nat}
    (hwindow : range.evaluate session.document.source session.dot = .ok window)
    (hsome : selectedMatches session.document.source window nth regex all ≠ [])
    (hcount : ∀ captures ∈ selectedMatches session.document.source window nth regex all,
      captures.groupCount = count) :
    (∃ number, (execute env collecting
      (.substitute range nth delimiter regex replacement all) session).1 =
        .error (.unknownGroup number)) ↔
      ∃ number ∈ references replacement.toList, count ≤ number := by
  rw [execute_substitute env collecting nth delimiter regex replacement all hwindow]
  cases hmissing : (references replacement.toList).find? (count ≤ ·) with
  | some number =>
    -- The first match fails to be expanded.
    obtain ⟨captures, rest, hselected⟩ := List.exists_cons_of_ne_nil hsome
    have hfirst := hcount captures (hselected ▸ List.mem_cons_self)
    rw [← hfirst] at hmissing
    rw [substitutions_error hselected (Captures.expand_eq_error hmissing)]
    have hnumber := List.find?_some hmissing
    rw [hfirst] at hnumber
    exact iff_of_true ⟨number, rfl⟩
      ⟨number, List.mem_of_find?_eq_some hmissing, of_decide_eq_true hnumber⟩
  | none =>
    -- All matches can be expanded, and releasing the edits does not fail.
    have hknown : ∀ number ∈ references replacement.toList, number < count := by
      intro number hmem
      have hfound := List.find?_eq_none.1 hmissing number hmem
      exact Nat.lt_of_not_le fun hle => hfound (decide_eq_true hle)
    have hknows : ∀ captures ∈ selectedMatches session.document.source window nth regex all,
        ∀ number ∈ references replacement.toList, number < captures.groupCount :=
      fun captures hmem number hnumber => hcount captures hmem ▸ hknown number hnumber
    obtain ⟨edits, hedits, _⟩ := exists_substitutions hknows
    obtain ⟨value, after, hrelease⟩ :=
      unfailing_release collecting edits { session with dot := window }
    rw [hedits]
    dsimp only
    rw [hrelease]
    refine iff_of_false ?_ fun ⟨number, hmem, hle⟩ => Nat.not_lt_of_le hle (hknown number hmem)
    rintro ⟨number, herror⟩
    cases herror

end

/-- **Group numbers follow the opening parentheses.** The groups of a pattern are the whole, with
number 0, and those that its parentheses open, numbered from 1 on in their order. Every match of the
pattern knows just these, whether its program searches or not and whichever way it runs. So a
substitution with something to replace fails for an unknown group just if its replacement text names
a number that is higher than the parentheses of the pattern are many. -/
theorem Pattern.groups_of_parse {pattern : String} {node : Node}
    (hparse : parse pattern = .ok node) :
    node.groupNumbers = List.range ((openings pattern.toList).length + 1) ∧
    (∃ branches, node = .group (some 0) branches ∧
      List.Forall₂ IsBehindOpening (Node.groupsOfBranches branches) (openings pattern.toList)) ∧
    (∀ search backward, ∃ regex, Regex.compile pattern search backward = .ok regex ∧
      ∀ text start bound direction captures,
        regex.matchAt text start bound direction = some captures →
        captures.groupCount = (openings pattern.toList).length + 1) ∧
    ∀ {σ : Type} (env : Environment σ) (collecting : Bool) (session : Session σ) (range : Address)
      (nth : Nat) (delimiter : Char) (regex : Regex) (replacement : String) (all : Bool)
      (window : Selection), Regex.compile pattern true false = .ok regex →
      range.evaluate session.document.source session.dot = .ok window →
      selectedMatches session.document.source window nth regex all ≠ [] →
      ((∃ number, (Run.execute env collecting
          (.substitute range nth delimiter regex replacement all) session).1 =
            .error (.unknownGroup number)) ↔
        ∃ number ∈ references replacement.toList, (openings pattern.toList).length < number) := by
  obtain ⟨branches, hnode, hbehind, hnumbers⟩ := exists_groups hparse
  have hlength : node.groupNumbers.length = (openings pattern.toList).length + 1 := by
    rw [hnumbers, List.length_range]
  have hcount {search backward : Bool} {regex : Regex} {text : Source} {start bound : Nat}
      {direction : Direction} {captures : Captures}
      (hcompile : Regex.compile pattern search backward = .ok regex)
      (hmatch : regex.matchAt text start bound direction = some captures) :
      captures.groupCount = (openings pattern.toList).length + 1 :=
    (groupCount_of_compile hparse hcompile hmatch).trans hlength
  refine ⟨hnumbers, ⟨branches, hnode, hbehind⟩, fun search backward => ?_, ?_⟩
  · have hcompile := compile_of_parse hparse search backward
    exact ⟨_, hcompile, fun _ _ _ _ _ => hcount hcompile⟩
  · intro σ env collecting session range nth delimiter regex replacement all window hcompile
      hwindow hsome
    have hwithin := Run.isWithin_of_evaluate hwindow
    have hanswers := Regex.answers_successive ⟨_, hcompile⟩ hwithin.2 window.start
    refine Run.execute_substitute_unknownGroup_iff hwindow hsome fun captures hmem => ?_
    obtain ⟨first, _, hmatch⟩ :=
      hanswers.exists_answer ((selectedMatches_sublist _ _ _ _ _).subset hmem)
    exact hcount hcompile hmatch

/-- Parentheses behind a backslash and before `?:` open nothing that is remembered. -/
theorem Pattern.groups_of_parse_nested :
    ∃ node regex, parse "(a(?:b)|\\((c))" = .ok node ∧ node.groupNumbers = [0, 1, 2] ∧
      openings "(a(?:b)|\\((c))".toList = ["a(?:b)|\\((c))".toList, "c))".toList] ∧
      Regex.compile "(a(?:b)|\\((c))" true false = .ok regex ∧
      ∀ replacement, (∃ number, (Run.execute .silent false (.substitute
          (.between (.simple ⟨none, .line 0⟩) .comma (.simple ⟨none, .last⟩)) 0 '/' regex
          replacement false) Session.letters).1 = .error (.unknownGroup number)) ↔
        ∃ number ∈ references replacement.toList, 2 < number := by
  have hparse : parse "(a(?:b)|\\((c))" = .ok (.group (some 0) [[.group (some 1)
      [[.char 'a', .group none [[.char 'b']]], [.char '(', .group (some 2) [[.char 'c']]]]]]) := by
    set_option maxRecDepth 1000 in cbv
  have hopenings : openings "(a(?:b)|\\((c))".toList =
      ["a(?:b)|\\((c))".toList, "c))".toList] := by
    set_option maxRecDepth 1000 in cbv
  have hcompile : Regex.compile "(a(?:b)|\\((c))" true false = .ok ⟨"(a(?:b)|\\((c))",
      #[.split [3, 1], .oneOf .any, .jump 0, .save 0, .save 2, .split [6, 9], .char 'a',
        .char 'b', .jump 13, .char '(', .save 4, .char 'c', .save 5, .save 3, .save 1, .accept],
      6, false⟩ := by
    set_option maxRecDepth 1000 in cbv
  have hwindow : Address.evaluate Session.letters.document.source Session.letters.dot
      (.between (.simple ⟨none, .line 0⟩) .comma (.simple ⟨none, .last⟩)) = .ok ⟨0, 3⟩ := by
    set_option maxRecDepth 1000 in cbv
  have hselected : (selectedMatches Session.letters.document.source ⟨0, 3⟩ 0
      ⟨"(a(?:b)|\\((c))",
        #[.split [3, 1], .oneOf .any, .jump 0, .save 0, .save 2, .split [6, 9], .char 'a',
          .char 'b', .jump 13, .char '(', .save 4, .char 'c', .save 5, .save 3, .save 1, .accept],
        6, false⟩ false).isEmpty = false := by
    set_option maxRecDepth 1000 in cbv
  obtain ⟨hnumbers, _, _, hsubstitute⟩ := groups_of_parse hparse
  rw [hopenings] at hnumbers hsubstitute
  refine ⟨_, _, hparse, hnumbers, hopenings, hcompile, fun replacement => ?_⟩
  refine hsubstitute .silent false Session.letters _ 0 '/' _ replacement false _ hcompile hwindow ?_
  intro hnone
  rw [hnone] at hselected
  cases hselected

end Emend
