import Emend.Proofs.Command.Gathering
import Emend.Proofs.Command.Template
import Emend.Proofs.Command.Visiting
import Emend.Proofs.Document.Following
import Emend.Proofs.Pattern.Groups

/-!
# Substitutions

A substitution works out all of its edits on the text as it is, and then releases them. The matches
of its pattern come in order and lie in its range, so nothing is sorted and nothing is left out
(`InOrder.arrange`): the edits are made at once, and what lies outside the range stays. Dot is the
range when they are released. Each of them ends within it and begins before its end, so the end of
dot goes along with the text behind it (`Spans.edit`), through one edit after the other.

Every match of a pattern knows the same groups, those of the pattern. So if the replacement text
names another one, the first match that is to be replaced makes the substitution fail.
-/

namespace Emend

/-! ## Edits in a window -/

namespace Replacement

variable {edits : List Replacement} {content : List Char} {size position first last : Nat}

/-- Edits whose ranges come one after the other lie in order. -/
theorem inOrder_of_pairwise
    (hbounds : ∀ edit ∈ edits, position ≤ edit.range.start ∧ edit.range.IsWithin size)
    (hpairwise : edits.Pairwise fun edit other => edit.range.stop ≤ other.range.start) :
    InOrder size position edits := by
  induction edits generalizing position with
  | nil => exact trivial
  | cons edit rest ih =>
    obtain ⟨hbehind, hrest⟩ := List.pairwise_cons.1 hpairwise
    obtain ⟨hstart, hwithin⟩ := hbounds edit List.mem_cons_self
    refine ⟨hstart, hwithin, ih (fun other hmem => ⟨hbehind other hmem, ?_⟩) hrest⟩
    exact (hbounds other (List.mem_cons_of_mem _ hmem)).2

/-- What lies in order in a text lies in order in a longer one. -/
theorem InOrder.mono {more : Nat} (h : InOrder size position edits) (hsize : size ≤ more) :
    InOrder more position edits := by
  induction edits generalizing position with
  | nil => exact trivial
  | cons edit rest ih =>
    obtain ⟨hposition, ⟨hle, hstop⟩, hrest⟩ := h
    exact ⟨hposition, ⟨hle, Nat.le_trans hstop hsize⟩, ih hrest⟩

/-- In front of the edits the text stays. -/
theorem together_front (h : InOrder size first edits) (content : List Char) :
    together content 0 edits = content.take first ++ together content first edits := by
  cases edits with
  | nil => exact (List.take_append_drop first content).symm
  | cons edit rest =>
    have hfront : content.take edit.range.start =
        content.take first ++ (content.take edit.range.start).drop first := by
      conv_lhs => rw [← List.take_append_drop first (content.take edit.range.start)]
      rw [List.take_take, Nat.min_eq_left h.1]
    rw [together_cons, together_cons, List.drop_zero, ← List.append_assoc, ← List.append_assoc,
      ← hfront]

/-- Behind the edits the text stays. -/
theorem together_behind (hposition : position ≤ last) (h : ∀ edit ∈ edits, edit.range.stop ≤ last) :
    ∃ middle, together content position edits = middle ++ content.drop last := by
  induction edits generalizing position with
  | nil =>
    refine ⟨(content.drop position).take (last - position), ?_⟩
    have hdrop : content.drop last = (content.drop position).drop (last - position) := by
      rw [List.drop_drop, Nat.add_sub_cancel' hposition]
    rw [together_nil, hdrop, List.take_append_drop]
  | cons edit rest ih =>
    obtain ⟨middle, hrest⟩ := ih (h edit List.mem_cons_self)
      fun other hmem => h other (List.mem_cons_of_mem _ hmem)
    exact ⟨_, by rw [together_cons, hrest, ← List.append_assoc]⟩

end Replacement

/-- What has become of a window of a text: the selection begins where the window did, and as much of
the text lies behind it. -/
structure Spans (window : Selection) (before after : List Char) (sel : Selection) : Prop where
  /-- It begins where the window did. -/
  start : sel.start = window.start
  /-- Its end has gone along with the length of the text. -/
  stop : (sel.stop : Int) = window.stop + ((after.length : Int) - before.length)

/-- The window goes along with an edit that begins before its end, and ends within it. -/
theorem Spans.edit {window sel : Selection} {before now after : List Char}
    (h : Spans window before now sel) (hbefore : window.stop ≤ before.length) {change : Change}
    (hstart : window.start ≤ change.start) (hlt : change.start < sel.stop)
    (hstop : change.start + change.removed ≤ sel.stop)
    (hlength : after.length + change.removed = now.length + change.inserted) :
    Spans window before after (change.moveSelection after.length sel) := by
  obtain ⟨hfirst, hlast⟩ := h
  constructor
  · dsimp only [Change.moveSelection]
    rw [Change.movePoint_before (by omega)]
    omega
  · dsimp only [Change.moveSelection]
    rw [Change.movePoint_behind hlt hstop]
    omega

/-- What a session has become by making the edits of a window together. -/
structure Session.MadeIn {σ : Type} (session : Session σ) (window : Selection)
    (edits : List Replacement) (after : Session σ) : Prop where
  /-- The edits lie in the window, one behind the other. -/
  inOrder : Replacement.InOrder window.stop window.start edits
  /-- They are made in the text. -/
  content : after.document.content = Replacement.together session.document.content 0 edits
  /-- In front of the window the text stays. -/
  front : after.document.content.take window.start = session.document.content.take window.start
  /-- Behind the window the text stays. -/
  behind : after.document.content.drop after.dot.stop =
    session.document.content.drop window.stop
  /-- Dot is what has become of the window. -/
  dot : Spans window session.document.content after.document.content after.dot

namespace Run

open Replacement

variable {σ : Type} {content written : List Char} {position : Nat} {offset : Int}
  {session after : Session σ} {window : Selection} {kept edits : List Replacement}

/-- By how much an edit in its turn changes the length. -/
theorem length_spliced {replacement : Replacement} {now later : List Char}
    (hposition : position ≤ replacement.range.start)
    (hrange : replacement.range.IsWithin content.length)
    (hnow : now = written ++ content.drop position)
    (hlater : later = written ++ (content.take replacement.range.start).drop position ++
      replacement.text ++ content.drop replacement.range.stop) :
    later.length + replacement.range.length = now.length + replacement.text.length := by
  obtain ⟨hle, hsize⟩ := hrange
  rw [hnow, hlater]
  simp only [List.length_append, List.length_drop, List.length_take, Selection.length]
  omega

/-- Dot goes on spanning the window when an edit in its turn begins before the end of it. -/
theorem spans_moved {replacement : Replacement} {now later : List Char} {sel : Selection}
    (hposition : position ≤ replacement.range.start)
    (hrange : replacement.range.IsWithin content.length)
    (hnow : now = written ++ content.drop position)
    (hlater : later = written ++ (content.take replacement.range.start).drop position ++
      replacement.text ++ content.drop replacement.range.stop)
    (hwindow : window.stop ≤ content.length) (hfirst : window.start ≤ written.length)
    (hlt : replacement.range.start < window.stop) (hle : replacement.range.stop ≤ window.stop)
    (hspans : Spans window content now sel) :
    Spans window content later (Change.moveSelection
      ⟨written.length + (replacement.range.start - position), replacement.range.length,
        replacement.text.length⟩ later.length sel) := by
  have hnext := length_spliced hposition hrange hnow hlater
  have hlength : now.length = written.length + (content.length - position) := by
    rw [hnow, List.length_append, List.length_drop]
  -- Dot ends where the window ends in what is left of the old text, so not before the edit.
  have hbehind := hspans.stop
  refine hspans.edit hwindow ?_ ?_ ?_ hnext
  · exact Nat.le_trans hfirst (Nat.le_add_right _ _)
  · dsimp only
    omega
  · dsimp only [Selection.length]
    omega

/-- Dot spans the window after edits in it. -/
theorem spans_editAll (horder : InOrder content.length position kept)
    (hopen : Open session.document)
    (hcontent : session.document.content = written ++ content.drop position)
    (hoffset : (written.length : Int) = position + offset)
    (hwindow : window.stop ≤ content.length) (hfirst : window.start ≤ written.length)
    (hkept : ∀ edit ∈ kept, edit.range.start < window.stop ∧ edit.range.stop ≤ window.stop)
    (hspans : Spans window content session.document.content session.dot)
    (hall : editAll (inTurn offset kept) session = (.ok (), after)) :
    Spans window content after.document.content after.dot := by
  induction kept generalizing position written session offset with
  | nil =>
    cases hall
    exact hspans
  | cons replacement rest ih =>
    obtain ⟨hposition, hrange, hrest⟩ := horder
    obtain ⟨hlt, hle⟩ := hkept replacement List.mem_cons_self
    obtain ⟨sel, middle, hedit, hmiddle, hspliced, hwritten, hdot⟩ :=
      edit_moved hposition hrange hopen hcontent hoffset
    rw [inTurn, editAll, bind_ok hedit] at hall
    have hlater : ∀ edit ∈ rest, edit.range.start < window.stop ∧ edit.range.stop ≤ window.stop :=
      fun other hmem => hkept other (List.mem_cons_of_mem _ hmem)
    have hmoved : Spans window content middle.document.content middle.dot := by
      rw [hdot, ← Document.length_content hmiddle.valid]
      exact spans_moved hposition hrange hcontent hspliced hwindow hfirst hlt hle hspans
    refine ih hrest hmiddle hspliced hwritten ?_ hlater hmoved hall
    rw [List.length_append, List.length_append]
    omega

/-- **Edits of a window are made in it.** -/
theorem release_within (hopen : Open session.document) (hdot : session.dot = window)
    (hwindow : window.IsWithin session.document.size)
    (hinside : InOrder window.stop window.start edits)
    (hbefore : ∀ edit ∈ edits, edit.range.start < window.stop) :
    ∃ after, release false edits session = (.ok [], after) ∧
      session.MadeIn window edits after := by
  obtain ⟨hle, hsize⟩ := hwindow
  rw [← Document.length_content hopen.valid] at hsize
  have horder : InOrder session.document.content.length window.start edits := hinside.mono hsize
  have hedits : ∀ edit ∈ edits, edit.range.start < window.stop ∧ edit.range.stop ≤ window.stop :=
    fun edit hmem => ⟨hbefore edit hmem, (hinside.of_mem hmem).2.2⟩
  have hstart : window.start ≤ session.document.content.length := Nat.le_trans hle hsize
  -- The text in front of the window counts as written.
  have hcontent : session.document.content = session.document.content.take window.start ++
      session.document.content.drop window.start :=
    (List.take_append_drop _ _).symm
  have hfront : (session.document.content.take window.start).length = window.start :=
    List.length_take_of_le hstart
  have hoffset : ((session.document.content.take window.start).length : Int) =
      window.start + 0 := by
    rw [hfront, Int.add_zero]
  obtain ⟨after, hall, _, hafter⟩ := content_editAll horder hopen hcontent hoffset
  have hspans : Spans window session.document.content session.document.content session.dot := by
    rw [hdot]
    exact ⟨rfl, by omega⟩
  have hdotAfter := spans_editAll horder hopen hcontent hoffset hsize (Nat.le_of_eq hfront.symm)
    hedits hspans hall
  refine ⟨after, ?_, hinside, ?_, ?_, ?_, hdotAfter⟩
  · unfold release
    rw [if_neg Bool.false_ne_true, horder.arrange, bind_ok hall]
    rfl
  · rw [hafter, together_front horder]
  · rw [hafter, List.take_left' hfront]
  · have hbehind : ∃ middle, together session.document.content window.start edits =
        middle ++ session.document.content.drop window.stop :=
      together_behind hle fun edit hmem => (hedits edit hmem).2
    obtain ⟨middle, hmiddle⟩ := hbehind
    rw [hmiddle, ← List.append_assoc] at hafter
    have hlength : after.document.content.length =
        (session.document.content.take window.start ++ middle).length +
          (session.document.content.length - window.stop) := by
      rw [hafter, List.length_append, List.length_drop]
    have hstop := hdotAfter.stop
    rw [hafter]
    exact List.drop_left' (by omega)

end Run

/-! ## Working out the edits -/

/-- Where something comes of each element, something comes of all of them. -/
theorem exists_mapM {α β : Type} {f : α → Except EditError β} {R : α → β → Prop} {list : List α}
    (h : ∀ x ∈ list, ∃ y, f x = .ok y ∧ R x y) :
    ∃ results, list.mapM f = .ok results ∧ List.Forall₂ R list results := by
  induction list with
  | nil => exact ⟨[], rfl, .nil⟩
  | cons x rest ih =>
    obtain ⟨y, hfirst, hy⟩ := h x List.mem_cons_self
    obtain ⟨results, hrest, hresults⟩ := ih fun other hmem => h other (List.mem_cons_of_mem _ hmem)
    refine ⟨y :: results, ?_, .cons hy hresults⟩
    rw [List.mapM_cons, hfirst, hrest]
    rfl

section

variable {text : Source} {nth number : Nat} {regex : Regex} {all : Bool} {position stop : Nat}
  {found : List Captures} {captures : Captures} {node : Node} {pattern : String}
  {template : List Char}

/-- Every one of successive matches is the answer of a search. -/
theorem Regex.Answers.exists_answer (h : regex.Answers text stop position found)
    (hmem : captures ∈ found) :
    ∃ first, first ≤ stop ∧ regex.matchAt text first stop .forward = some captures := by
  induction h with
  | done nothing => cases hmem
  | next inside answer others ih =>
    rcases List.mem_cons.1 hmem with rfl | hlater
    · exact ⟨_, inside, answer⟩
    · exact ih hlater

/-- The groups that a match lacks are those that its pattern lacks. -/
theorem groupCount_le_iff (hcompile : Regex.compile pattern true false = .ok regex)
    (hparse : Pattern.parse pattern = .ok node) {first : Nat} (hfirst : first ≤ stop)
    (hstop : stop ≤ text.size)
    (hmatch : regex.matchAt text first stop .forward = some captures) :
    captures.groupCount ≤ number ↔ number ∉ node.groupNumbers := by
  rw [compile_of_parse hparse] at hcompile
  cases hcompile
  have hahead : Direction.forward.Ahead first stop := hfirst
  have hcount : captures.groupCount = node.groupNumbers.length :=
    groupCount_of_matchAt hparse hahead (Nat.le_trans hfirst hstop) hstop hmatch
  obtain ⟨_, _, count, hnumbers⟩ := Pattern.groupNumbers_parse hparse
  rw [hcount, hnumbers, List.length_range, List.mem_range, Nat.not_lt]

/-- All matches are substituted if no number is given, and else the one of that number. -/
theorem substituted_eq (nth : Nat) (all : Bool) (found : List Captures) :
    substituted nth all found =
      if nth = 0 ∨ all = true then found else found[nth - 1]?.toList := by
  unfold substituted
  simp only [Bool.or_eq_true, decide_eq_true_eq]
  split
  · rfl
  · rw [List.take_one, List.head?_drop]

/-- What is substituted is in the order in which it was found. -/
theorem substituted_sublist (nth : Nat) (all : Bool) (found : List Captures) :
    (substituted nth all found).Sublist found := by
  unfold substituted
  split
  · exact .refl _
  · exact (List.take_sublist _ _).trans (List.drop_sublist _ _)

/-- The matches in a window that a substitution replaces. -/
def selectedMatches (text : Source) (window : Selection) (nth : Nat) (regex : Regex) (all : Bool) :
    List Captures :=
  substituted nth all
    ((regex.successive text window.start window.stop).takeWhile (·.start < window.stop))

variable {window : Selection} {replacement : String}

/-- The matches that are replaced are some of those that are found, in the same order. -/
theorem selectedMatches_sublist (text : Source) (window : Selection) (nth : Nat) (regex : Regex)
    (all : Bool) : (selectedMatches text window nth regex all).Sublist
      (regex.successive text window.start window.stop) :=
  (substituted_sublist nth all _).trans (List.takeWhile_sublist _)

/-- None of them begins at the end of the window. -/
theorem lt_of_mem_selectedMatches (hmem : captures ∈ selectedMatches text window nth regex all) :
    captures.start < window.stop := by
  have hreached := (substituted_sublist nth all _).subset hmem
  have hlt := List.mem_takeWhile_imp hreached
  exact of_decide_eq_true hlt

/-- If the replacement text cannot be expanded for the first match, nothing is worked out. -/
theorem substitutions_error {error : EditError} {rest : List Captures}
    (hselected : selectedMatches text window nth regex all = captures :: rest)
    (hexpand : captures.expand text replacement.toList = .error error) :
    substitutions text window nth regex replacement all = .error error := by
  unfold selectedMatches at hselected
  unfold substitutions
  dsimp only
  rw [hselected, List.mapM_cons, hexpand]
  rfl

/-- If every match knows the groups that are named, all edits are worked out. -/
theorem exists_substitutions
    (h : ∀ captures ∈ selectedMatches text window nth regex all,
      ∀ number ∈ references replacement.toList, number < captures.groupCount) :
    ∃ edits, substitutions text window nth regex replacement all = .ok edits ∧
      List.Forall₂ (fun captures edit => edit.range = captures.range ∧
        captures.Writes text replacement.toList edit.text)
        (selectedMatches text window nth regex all) edits := by
  refine exists_mapM fun captures hmem => ?_
  have hexpanded : ∃ written, captures.expand text replacement.toList = .ok written ∧
      captures.Writes text replacement.toList written :=
    Captures.exists_expand (h captures hmem)
  obtain ⟨written, hexpand, hwrites⟩ := hexpanded
  refine ⟨⟨captures.range, written⟩, ?_, rfl, hwrites⟩
  rw [hexpand]
  rfl

/-- The ranges of what becomes of matches are the ranges of the matches. -/
theorem map_range_of_forall₂ {edits : List Replacement} {R : Captures → Replacement → Prop}
    (h : List.Forall₂ R found edits)
    (hrange : ∀ captures edit, R captures edit → edit.range = captures.range) :
    edits.map (·.range) = found.map (·.range) := by
  induction h with
  | nil => rfl
  | cons hfirst _ ih => rw [List.map_cons, List.map_cons, hrange _ _ hfirst, ih]

/-- Edits with the ranges of the matches lie in the window, in order. -/
theorem inOrder_of_selectedMatches
    (hscans : Scans pattern text window.stop window.start (regex.matchesIn text window))
    {edits : List Replacement} {R : Captures → Replacement → Prop}
    (h : List.Forall₂ R (selectedMatches text window nth regex all) edits)
    (hrange : ∀ captures edit, R captures edit → edit.range = captures.range) :
    Replacement.InOrder window.stop window.start edits ∧
      ∀ edit ∈ edits, edit.range.start < window.stop := by
  have hranges := map_range_of_forall₂ h hrange
  have hsublist := (selectedMatches_sublist text window nth regex all).map (·.range)
  rw [← hranges] at hsublist
  refine ⟨Replacement.inOrder_of_pairwise (fun edit hmem => ?_) ?_, fun edit hmem => ?_⟩
  · obtain ⟨hstart, hwithin, _⟩ := hscans.of_mem (hsublist.subset (List.mem_map_of_mem hmem))
    exact ⟨hstart, hwithin⟩
  · have hfollows := (hscans.pairwise.imp fun hfollows => hfollows.1).sublist hsublist
    exact List.pairwise_map.1 hfollows
  · have hmatch : edit.range ∈ edits.map (·.range) := List.mem_map_of_mem hmem
    rw [hranges] at hmatch
    obtain ⟨captures, hcaptures, heq⟩ := List.mem_map.1 hmatch
    rw [← heq]
    exact lt_of_mem_selectedMatches hcaptures

end

namespace Run

variable {σ : Type} {session : Session σ} {window : Selection} {range : Address}

/-- A substitution fails before it changes anything, or releases its edits with its range as
dot. -/
theorem execute_substitute (env : Environment σ) (collecting : Bool) (nth : Nat) (delimiter : Char)
    (regex : Regex) (replacement : String) (all : Bool)
    (h : range.evaluate session.document.source session.dot = .ok window) :
    execute env collecting (.substitute range nth delimiter regex replacement all) session =
      match substitutions session.document.source window nth regex replacement all with
      | .error error => (.error error, session)
      | .ok edits => release collecting edits { session with dot := window } := by
  have hlook : (look (·.document.source) : Run σ Source) session =
      (.ok session.document.source, session) := rfl
  rw [execute, bind_ok (evaluate_ok h), bind_ok hlook]
  cases substitutions session.document.source window nth regex replacement all with
  | error error => rfl
  | ok edits =>
    have hworked : (ExceptT.mk (pure (.ok edits)) : Run σ (List Replacement)) session =
        (.ok edits, session) := rfl
    have hdot : (setDot window : Run σ Unit) session = (.ok (), { session with dot := window }) :=
      setDot_of_isWithin (isWithin_of_evaluate h)
    rw [bind_ok hworked, bind_ok hdot]

end Run

/-- **What a substitution does.** It looks for the matches of its pattern in its range, one after
the other, up to the first that begins at the end of the range, and replaces all of them or the one
with its number, if there is one. If it replaces any and the replacement text names a group that the
pattern lacks, it fails and changes nothing. Otherwise it succeeds: what the replacement text writes
for each match, with the groups of that match in the text as it was, takes the place of the match,
all at once; what lies outside the range stays, and dot is what has become of the range. -/
theorem Session.interpret_substitutes {σ : Type} (env : Environment σ) (session : Session σ)
    {program replacement : String} {range : Address} {nth : Nat} {delimiter : Char} {regex : Regex}
    {all : Bool} {window : Selection}
    (hparse : Command.parse program = .ok (.substitute range nth delimiter regex replacement all))
    (hvalid : session.document.IsValid) (heditable : session.document.editable = true)
    (hfree : session.document.protected? = none)
    (hwindow : range.evaluate session.document.source session.begun.dot = .ok window) :
    ∃ node found selected,
      Regex.compile regex.pattern true false = .ok regex ∧
      Pattern.parse regex.pattern = .ok node ∧
      regex.Answers session.document.source window.stop window.start found ∧
      Scans regex.pattern session.document.source window.stop window.start
        (found.map (·.range)) ∧
      selected = (if nth = 0 ∨ all = true then found.takeWhile (·.start < window.stop)
        else (found.takeWhile (·.start < window.stop))[nth - 1]?.toList) ∧
      (∀ number, selected ≠ [] →
        (references replacement.toList).find? (· ∉ node.groupNumbers) = some number →
        session.interpret env program = (.error (.unknownGroup number), session.begun)) ∧
      (selected = [] ∨ (∀ number ∈ references replacement.toList, number ∈ node.groupNumbers) →
        ∃ edits after, session.interpret env program = (.ok (), after) ∧
          List.Forall₂ (fun captures edit => edit.range = captures.range ∧
            captures.Writes session.document.source replacement.toList edit.text) selected edits ∧
          session.MadeIn window edits after) := by
  have hwithin : window.IsWithin session.document.source.size := Run.isWithin_of_evaluate hwindow
  have hcompile := (Command.searches_of_parse hparse).compile
  obtain ⟨node, hnode, _⟩ := node_of_compile hcompile
  have hexecute : Run.execute env false
      (.substitute range nth delimiter regex replacement all) session.begun =
      match substitutions session.document.source window nth regex replacement all with
      | .error error => (.error error, session.begun)
      | .ok edits => Run.release false edits { session.begun with dot := window } :=
    Run.execute_substitute env false nth delimiter regex replacement all hwindow
  -- What is found, and by which scan.
  have hanswers := Regex.answers_successive ⟨_, hcompile⟩ hwithin.2 window.start
  have hscans := hanswers.scans hcompile hwithin.2
  -- Every match lacks the groups that the pattern lacks.
  have hlacks : ∀ captures ∈ selectedMatches session.document.source window nth regex all,
      ∀ number, captures.groupCount ≤ number ↔ number ∉ node.groupNumbers := by
    intro captures hmem number
    have hfound := (selectedMatches_sublist _ _ _ _ _).subset hmem
    obtain ⟨first, hfirst, hmatch⟩ := hanswers.exists_answer hfound
    exact groupCount_le_iff hcompile hnode hfirst hwithin.2 hmatch
  rw [session.interpret_of_parse env hparse, hexecute]
  refine ⟨node, _, selectedMatches session.document.source window nth regex all, hcompile, hnode,
    hanswers, hscans, substituted_eq nth all _, ?_, ?_⟩
  · -- The first match to be replaced fails to be expanded.
    intro number hsome hmissing
    obtain ⟨captures, rest, hselected⟩ := List.exists_cons_of_ne_nil hsome
    have hsame : (fun number => decide (captures.groupCount ≤ number)) =
        fun number => decide (number ∉ node.groupNumbers) := by
      funext number
      rw [decide_eq_decide]
      exact hlacks captures (hselected ▸ List.mem_cons_self) number
    rw [← hsame] at hmissing
    rw [substitutions_error hselected (Captures.expand_eq_error hmissing)]
    rfl
  · -- Every match can be expanded, and the edits are made together.
    intro hknown
    have hknows : ∀ captures ∈ selectedMatches session.document.source window nth regex all,
        ∀ number ∈ references replacement.toList, number < captures.groupCount := by
      intro captures hmem number hnumber
      rcases hknown with hnone | hall
      · rw [hnone] at hmem
        cases hmem
      · exact Nat.lt_of_not_le fun hle => (hlacks captures hmem number).1 hle (hall number hnumber)
    obtain ⟨edits, hedits, hwrites⟩ := exists_substitutions hknows
    obtain ⟨horder, hbefore⟩ := inOrder_of_selectedMatches hscans hwrites fun _ _ h => h.1
    let windowed : Session σ := { session.begun with dot := window }
    have hopen : Run.Open windowed.document := ⟨hvalid, heditable, hfree⟩
    obtain ⟨after, hrelease, hmade⟩ := Run.release_within hopen rfl hwithin horder hbefore
    rw [hedits]
    dsimp only
    rw [hrelease]
    exact ⟨edits, after, rfl, hwrites, hmade.inOrder, hmade.content, hmade.front, hmade.behind,
      hmade.dot⟩

/-- A session on the text `abb`. -/
def Session.letters : Session Unit :=
  .onText "abb" (.point 0)

/-- The document of the session is valid. -/
theorem Session.isValid_letters : Session.letters.document.IsValid :=
  Session.isValid_onText _ _

/-- The document of the session has the text. -/
theorem Session.content_letters : Session.letters.document.content = "abb".toList :=
  Session.content_onText _ _

/-- The empty match in front is replaced, and the one at the end is not. -/
theorem Session.interpret_substitutes_groups :
    ∃ after : Session Unit,
      Session.letters.interpret .silent ",s/(b*)/<\\1>/" = (.ok (), after) ∧
      after.document.content = "<>a<bb>".toList ∧ after.dot = ⟨0, 7⟩ := by
  have hparse : Command.parse ",s/(b*)/<\\1>/" = .ok (.substitute
      (.between (.simple ⟨none, .line 0⟩) .comma (.simple ⟨none, .last⟩)) 0 '/'
      ⟨"(b*)", #[.split [3, 1], .oneOf .any, .jump 0, .save 0, .save 2, .split [6, 8], .char 'b',
        .jump 5, .save 3, .save 1, .accept], 4, false⟩ "<\\1>" false) := by
    cbv
  have hwindow : Address.evaluate Session.letters.document.source Session.letters.begun.dot
      (.between (.simple ⟨none, .line 0⟩) .comma (.simple ⟨none, .last⟩)) = .ok ⟨0, 3⟩ := by
    set_option maxRecDepth 1000 in cbv
  have hafter : (Session.letters.interpret .silent ",s/(b*)/<\\1>/").2.document.content =
      "<>a<bb>".toList := by
    set_option maxRecDepth 1000 in cbv
  obtain ⟨node, _, _, _, hnode, _, _, _, _, hsucceeds⟩ :=
    Session.letters.interpret_substitutes .silent hparse Session.isValid_letters rfl rfl hwindow
  -- The replacement text names the one group that the pattern has.
  have hgroups : Pattern.parse "(b*)" = .ok (.group (some 0) [[.group (some 1)
      [[.loop .zeroOrMore true (.char 'b')]]]]) := by
    set_option maxRecDepth 1000 in cbv
  obtain rfl := Except.ok.inj (hnode.symm.trans hgroups)
  have hknown : ∀ number ∈ references "<\\1>".toList, number ∈ Node.groupNumbers
      (.group (some 0) [[.group (some 1) [[.loop .zeroOrMore true (.char 'b')]]]]) := by
    decide
  obtain ⟨_, after, hinterpret, _, hmade⟩ := hsucceeds (.inr hknown)
  rw [hinterpret] at hafter
  obtain ⟨hstart, hstop⟩ := hmade.dot
  rw [hafter, Session.content_letters] at hstop
  refine ⟨after, hinterpret, hafter, ?_⟩
  ext
  · exact hstart
  · exact Int.ofNat.inj hstop

end Emend
