import Emend.Proofs.Pattern.Reading

/-!
# The parser and the grammar

`build` goes through the tokens once with a stack of open groups, and the grammar nests its rules.
What connects them is what a group under construction still needs: `GroupTail` says which texts
complete a branch that already has some nodes, and it grows at its left end by one token at a time,
as `build` goes from right to left through the text that it accepted. In the other direction, the
text of a rule moves `build` on by exactly the nodes of that rule.
-/

namespace Emend

open Grammar PatternToken Pattern

variable {code : CodeRule} {next middle after : Nat} {written : List Char}

/-! ## What completes a group -/

/-- Texts that complete a branch whose nodes so far are given, the newest first. The text may begin
with repetitions of the newest node. -/
inductive BranchTail (code : CodeRule) : Nat → List Node → List Char → List Node → Nat → Prop where
  /-- A branch without nodes yet. -/
  | begun {next after : Nat} {written : List Char} {nodes : List Node}
    (row : RowText code next written nodes after) : BranchTail code next [] written nodes after
  /-- A branch with nodes. -/
  | going {next after : Nat} (loops : List Char) {others : List Char} {child node : Node}
    {before nodes : List Node} (repeated : LoopsText loops child node)
    (rest : RowText code next others nodes after) :
    BranchTail code next (child :: before) (loops ++ others) (before.reverse ++ node :: nodes) after

/-- Texts that complete a group whose last branch has the given nodes so far, the newest first. -/
inductive GroupTail (code : CodeRule) :
    Nat → List Node → List Char → List (List Node) → Nat → Prop where
  /-- The branch is the last. -/
  | last {next after : Nat} {so : List Node} {written : List Char} {branch : List Node}
    (tail : BranchTail code next so written branch after) :
    GroupTail code next so written [branch] after
  /-- Other branches come after it. -/
  | bar {next middle after : Nat} {so : List Node} {written others : List Char}
    {branch : List Node} {branches : List (List Node)}
    (tail : BranchTail code next so written branch middle)
    (rest : ChoiceText code middle others branches after) :
    GroupTail code next so (written ++ '|' :: others) (branch :: branches) after

/-- A branch may end with the nodes that are already there. -/
theorem BranchTail.nil (nodes : List Node) : BranchTail code next nodes [] nodes.reverse next := by
  cases nodes with
  | nil => exact .begun .nil
  | cons child before =>
    rw [List.reverse_cons]
    exact .going [] .nil .nil

/-- A node before what completes a branch with that node. -/
theorem BranchTail.atom {before branch : List Node} {text : List Char} {node : Node}
    (first : AtomText code next text node middle)
    (tail : BranchTail code middle (node :: before) written branch after) :
    BranchTail code next before (text ++ written) branch after := by
  cases tail with
  | going loops repeated rest =>
    have row := RowText.cons first repeated rest
    rw [List.append_assoc] at row
    cases before with
    | nil => exact .begun row
    | cons child before =>
      rw [List.reverse_cons, List.append_assoc]
      exact .going [] .nil row

/-- A repetition before what completes a branch with the node repeated. -/
theorem BranchTail.greedy {kind : Repetition} {child : Node} {before branch : List Node}
    (notLazy : written.head? ≠ some '?')
    (tail : BranchTail code next (.loop kind true child :: before) written branch after) :
    BranchTail code next (child :: before) (loopChar kind :: written) branch after := by
  cases tail with
  | going loops repeated rest =>
    refine .going (loopChar kind :: loops) (.greedy ?_ repeated) rest
    cases loops with
    | nil => exact nofun
    | cons c loops => exact notLazy

/-- The same for a repetition that prefers fewer rounds. -/
theorem BranchTail.lazy {kind : Repetition} {child : Node} {before branch : List Node}
    (tail : BranchTail code next (.loop kind false child :: before) written branch after) :
    BranchTail code next (child :: before) (loopChar kind :: '?' :: written) branch after := by
  cases tail with
  | going loops repeated rest =>
    exact .going (loopChar kind :: '?' :: loops) (.lazy repeated) rest

/-- What puts a text before the end of a branch puts it before the end of a group. -/
theorem GroupTail.prepend {next' : Nat} {so so' : List Node} {branches : List (List Node)}
    (tail : GroupTail code next so written branches after) (text : List Char)
    (step : ∀ {part branch after}, part <+: written → BranchTail code next so part branch after →
      BranchTail code next' so' (text ++ part) branch after) :
    GroupTail code next' so' (text ++ written) branches after := by
  cases tail with
  | last tail => exact .last (step (List.prefix_refl _) tail)
  | bar tail rest =>
    rw [← List.append_assoc]
    exact .bar (step (List.prefix_append _ _) tail) rest

/-- What completes a group with nothing in its last branch is a choice. -/
theorem GroupTail.choiceText {branches : List (List Node)}
    (tail : GroupTail code next [] written branches after) :
    ChoiceText code next written branches after := by
  cases tail with
  | last tail =>
    cases tail with
    | begun row => exact .last row
  | bar tail rest =>
    cases tail with
    | begun row => exact .bar row rest

/-! ## What is accepted is written by the grammar -/

/-- A token that stands for a node adds it to the group under construction. -/
theorem build_of_node? {frame : GroupFrame} {outer : List GroupFrame} {token : PatternToken}
    {node : Node} (stands : token.node? = some node) (rest : List PatternToken) :
    build next frame outer (token :: rest) = build next (frame.push node) outer rest := by
  cases token <;> cases stands <;> rw [build]

/-- A closed frame is the group of its branches, the last one included. -/
theorem GroupFrame.close_eq (frame : GroupFrame) :
    frame.close = .group frame.index (frame.branches.reverse ++ [frame.nodes.reverse]) := by
  rw [GroupFrame.close, GroupFrame.endBranch, List.reverse_cons]

/-- A sign of repetition repeats the newest node of the group, if there is one. -/
theorem build_loop (frame : GroupFrame) (outer : List GroupFrame) (kind : Repetition)
    (greedy : Bool) (rest : List PatternToken) :
    build next frame outer (.loop kind greedy :: rest) =
      match frame.nodes with
      | [] => .error .nothingToRepeat
      | child :: before =>
        build next { frame with nodes := .loop kind greedy child :: before } outer rest :=
  build.eq_def next frame outer _

/-- What follows the text of a group in a text that is accepted with this tree: nothing after the
outermost group, which is the tree, and a parenthesis after any other, with a rest that is accepted
with the group as the newest node of the one around it. -/
inductive AfterGroup (next : Nat) (finished : Node) :
    List GroupFrame → List Char → Node → Prop where
  /-- The end of the pattern. -/
  | pattern : AfterGroup next finished [] [] finished
  /-- The end of a group in another. -/
  | group {enclosing : GroupFrame} {outer : List GroupFrame} {position : Nat} {rest : List Char}
    {tree : Node}
    (accepted : build next (enclosing.push finished) outer (tokens position rest) = .ok tree) :
    AfterGroup next finished (enclosing :: outer) (')' :: rest) tree

/-- A text begins with what completes the innermost open group. -/
def Completes (next : Nat) (frame : GroupFrame) (outer : List GroupFrame) (text : List Char)
    (tree : Node) : Prop :=
  ∃ written rest branches after, text = written ++ rest ∧
    GroupTail PlacesText next frame.nodes written branches after ∧
    AfterGroup after (.group frame.index (frame.branches.reverse ++ branches)) outer rest tree

section Completes

variable {frame : GroupFrame} {outer : List GroupFrame} {text : List Char} {tree : Node}

/-- The end of a group completes it with the branch that it has. -/
theorem Completes.close (h : AfterGroup next frame.close outer text tree) :
    Completes next frame outer text tree := by
  rw [frame.close_eq] at h
  exact ⟨[], text, _, next, rfl, .last (.nil _), h⟩

/-- What completes the group with one more node completes it behind the text of the node. -/
theorem Completes.atom {piece : List Char} {node : Node}
    (first : AtomText PlacesText next piece node middle)
    (h : Completes middle (frame.push node) outer text tree) :
    Completes next frame outer (piece ++ text) tree := by
  obtain ⟨written, rest, branches, after, rfl, htail, hend⟩ := h
  exact ⟨piece ++ written, rest, branches, after, (List.append_assoc _ _ _).symm,
    htail.prepend piece fun _ => .atom first, hend⟩

/-- What completes the group with its newest node repeated does so behind a sign of repetition. -/
theorem Completes.greedy {kind : Repetition} {child : Node} {before : List Node}
    (hnodes : frame.nodes = child :: before) (notLazy : text.head? ≠ some '?')
    (h : Completes next { frame with nodes := .loop kind true child :: before } outer text tree) :
    Completes next frame outer (loopChar kind :: text) tree := by
  obtain ⟨written, rest, branches, after, rfl, htail, hend⟩ := h
  refine ⟨loopChar kind :: written, rest, branches, after, rfl, ?_, hend⟩
  rw [hnodes]
  refine htail.prepend [loopChar kind] fun hpart => .greedy fun hhead => notLazy ?_
  obtain ⟨tail, rfl⟩ := List.head?_eq_some_iff.1 hhead
  obtain ⟨tail', rfl⟩ := hpart
  rfl

/-- What completes the group with its newest node repeated lazily does so behind such a sign and
`?`. -/
theorem Completes.lazy {kind : Repetition} {child : Node} {before : List Node}
    (hnodes : frame.nodes = child :: before)
    (h : Completes next { frame with nodes := .loop kind false child :: before } outer text tree) :
    Completes next frame outer (loopChar kind :: '?' :: text) tree := by
  obtain ⟨written, rest, branches, after, rfl, htail, hend⟩ := h
  refine ⟨loopChar kind :: '?' :: written, rest, branches, after, rfl, ?_, hend⟩
  rw [hnodes]
  exact htail.prepend [loopChar kind, '?'] fun _ => .lazy

/-- What completes the group with another branch does so behind a bar. -/
theorem Completes.bar (h : Completes next frame.endBranch outer text tree) :
    Completes next frame outer ('|' :: text) tree := by
  obtain ⟨written, rest, branches, after, rfl, htail, hend⟩ := h
  refine ⟨'|' :: written, rest, _, after, rfl, .bar (.nil _) htail.choiceText, ?_⟩
  rw [GroupFrame.endBranch, List.reverse_cons, List.append_assoc] at hend
  exact hend

/-- What completes a group that has just been opened in another is a choice and a parenthesis. -/
theorem Completes.inner {index : Option Nat}
    (h : Completes next (.opened index) (frame :: outer) text tree) :
    ∃ inside rest branches after position, text = inside ++ ')' :: rest ∧
      ChoiceText PlacesText next inside branches after ∧
      build after (frame.push (.group index branches)) outer (tokens position rest) =
        .ok tree := by
  obtain ⟨inside, rest, branches, after, rfl, htail, hend⟩ := h
  cases hend with
  | group accepted => exact ⟨inside, _, branches, after, _, rfl, htail.choiceText, accepted⟩

/-- A text that is accepted begins with what completes the innermost open group. -/
theorem completes_of_build {position : Nat}
    (h : build next frame outer (tokens position text) = .ok tree) :
    Completes next frame outer text tree := by
  -- By the length of the text: behind a group inside of this one it is shorter.
  induction hlength : text.length using Nat.strongRecOn
    generalizing text next position frame outer with
  | ind length ih =>
  subst hlength
  cases text with
  | nil =>
    -- At the end of the text only the whole pattern is complete.
    rw [tokens, build.eq_def] at h
    cases outer <;> cases h
    exact .close .pattern
  | cons c chars =>
  -- The first token, and what it leaves.
  obtain ⟨error, herror⟩ | ⟨piece, token, left, htext, hle, hpiece⟩ := tokens_cases position c chars
  · rw [herror, build] at h
    cases h
  rw [htext, hpiece.tokens] at h
  have hless : left.length < (c :: chars).length := Nat.lt_succ_of_le hle
  rw [htext] at hless ih ⊢
  cases hpiece with
  | simple stands text =>
    rw [build_of_node? stands] at h
    exact (ih _ hless h rfl).atom (.simple text)
  | greedy notLazy =>
    rw [build_loop] at h
    split at h
    · cases h
    · next hnodes => exact (ih _ hless h rfl).greedy hnodes notLazy
  | lazy =>
    rw [build_loop] at h
    split at h
    · cases h
    · next hnodes => exact (ih _ hless h rfl).lazy hnodes
  | remembered =>
    -- The group inside is completed first, and becomes an atom of this one.
    rw [build] at h
    obtain ⟨inside, rest, branches, after, _, rfl, hinside, h⟩ := (ih _ hless h rfl).inner
    have hshorter : rest.length < (['('] ++ (inside ++ ')' :: rest)).length := by
      simp only [List.length_append, List.length_cons]
      omega
    simpa using (ih _ hshorter h rfl).atom (.group hinside)
  | unnamed =>
    rw [build] at h
    obtain ⟨inside, rest, branches, after, _, rfl, hinside, h⟩ := (ih _ hless h rfl).inner
    have hshorter : rest.length < (['(', '?', ':'] ++ (inside ++ ')' :: rest)).length := by
      simp only [List.length_append, List.length_cons]
      omega
    simpa using (ih _ hshorter h rfl).atom (.unnamed hinside)
  | closeGroup =>
    rw [build.eq_def] at h
    cases outer with
    | nil => cases h
    | cons enclosing outer => exact .close (.group h)
  | bar =>
    rw [build] at h
    exact (ih _ hless h rfl).bar

end Completes

/-! ## What the grammar writes is accepted -/

/-- No node begins with a question mark, so it never makes a repetition before it lazy. -/
theorem Grammar.AtomText.exists_eq_cons {atom : Node}
    (h : AtomText code next written atom after) : ∃ c tail, written = c :: tail ∧ c ≠ '?' := by
  cases h with
  | simple text =>
    cases text with
    | @char c plain =>
      refine ⟨c, [], rfl, ?_⟩
      rintro rfl
      cases plain
    | dot => exact ⟨'.', _, rfl, by decide⟩
    | beginLine => exact ⟨'^', _, rfl, by decide⟩
    | endLine => exact ⟨'$', _, rfl, by decide⟩
    | escape => exact ⟨'\\', _, rfl, by decide⟩
    | oneOf => exact ⟨'[', _, rfl, by decide⟩
  | group => exact ⟨'(', _, rfl, by decide⟩
  | unnamed => exact ⟨'(', _, rfl, by decide⟩

/-- A node without other nodes in it is a token. -/
theorem Grammar.SimpleText.exists_node? {node : Node} (h : SimpleText code written node) :
    ∃ token : PatternToken, token.node? = some node := by
  cases h with
  | char => exact ⟨.char _, rfl⟩
  | dot => exact ⟨.oneOf _, rfl⟩
  | beginLine => exact ⟨.assert _, rfl⟩
  | endLine => exact ⟨.assert _, rfl⟩
  | escape escaped =>
    cases escaped with
    | assertion => exact ⟨.assert _, rfl⟩
    | shorthand => exact ⟨.oneOf _, rfl⟩
    | code => exact ⟨.char _, rfl⟩
    | letter => exact ⟨.char _, rfl⟩
  | oneOf => exact ⟨.oneOf _, rfl⟩

variable {rest : List Char}

/-- A row does not make what follows it a lazy repetition. -/
theorem Grammar.RowText.head?_append {nodes : List Node}
    (h : RowText code next written nodes after) (hrest : rest.head? ≠ some '?') :
    (written ++ rest).head? ≠ some '?' := by
  cases h with
  | nil => exact hrest
  | cons first =>
    obtain ⟨c, tail, rfl, hc⟩ := first.exists_eq_cons
    simpa using hc

/-- Branches do not make what follows them a lazy repetition. -/
theorem Grammar.ChoiceText.head?_append {branches : List (List Node)}
    (h : ChoiceText code next written branches after) (hrest : rest.head? ≠ some '?') :
    (written ++ rest).head? ≠ some '?' := by
  cases h with
  | last row => exact row.head?_append hrest
  | bar first =>
    rw [List.append_assoc]
    exact first.head?_append (by simp)

/-- Repetitions go around the newest node. -/
theorem build_loops {node result : Node} (h : LoopsText written node result)
    (hrest : rest.head? ≠ some '?') (position : Nat) {frame : GroupFrame}
    (outer : List GroupFrame) {before : List Node} (hnodes : frame.nodes = node :: before) :
    build next frame outer (tokens position (written ++ rest)) =
      build next { frame with nodes := result :: before } outer
        (tokens (position + written.length) rest) := by
  induction h generalizing position frame with
  | nil =>
    rw [← hnodes]
    rfl
  | @greedy written kind node result notLazy _ ih =>
    have hloop : TokenText position [loopChar kind] (.loop kind true) (written ++ rest) := by
      refine .greedy ?_
      cases written with
      | nil => exact hrest
      | cons c written => exact notLazy
    rw [show loopChar kind :: written ++ rest = [loopChar kind] ++ (written ++ rest) from rfl,
      hloop.tokens, build_loop, hnodes]
    dsimp only
    rw [ih _ rfl]
    simp only [List.length_cons, List.length_nil]
    rw [Nat.add_assoc, Nat.add_comm 1]
  | @lazy written kind node result _ ih =>
    have hloop : TokenText position [loopChar kind, '?'] (.loop kind false) (written ++ rest) :=
      .lazy
    rw [show loopChar kind :: '?' :: written ++ rest = [loopChar kind, '?'] ++ (written ++ rest)
      from rfl, hloop.tokens, build_loop, hnodes]
    dsimp only
    rw [ih _ rfl]
    simp only [List.length_cons, List.length_nil]
    rw [Nat.add_assoc, Nat.add_comm 2]

/-- The end of a group that was opened in another makes it the newest node of that one. -/
theorem build_closeGroup (position : Nat) {finished : GroupFrame} {node : Node}
    (hclose : finished.close = node) (frame : GroupFrame) (outer : List GroupFrame)
    (rest : List Char) :
    build next finished (frame :: outer) (tokens position (')' :: rest)) =
      build next (frame.push node) outer (tokens (position + 1) rest) := by
  have hpiece : TokenText position [')'] (.closeGroup position) rest := .closeGroup
  rw [show ')' :: rest = [')'] ++ rest from rfl, hpiece.tokens, build, hclose]
  rfl

/-- A group becomes the newest node of the group around it, if what stands in its parentheses
becomes its branches. -/
theorem build_group {next' position : Nat} {opening : List Char} {capturing : Bool}
    {index : Option Nat} {frame : GroupFrame} {outer : List GroupFrame} {rest : List Char}
    {node : Node}
    (hopening : TokenText position opening (.openGroup capturing) (written ++ ')' :: rest))
    (hopened : ∀ tokens, build next frame outer (.openGroup capturing :: tokens) =
      build next' (.opened index) (frame :: outer) tokens)
    (hinside : ∃ finished : GroupFrame, finished.close = node ∧
      build next' (.opened index) (frame :: outer)
        (tokens (position + opening.length) (written ++ ')' :: rest)) =
      build after finished (frame :: outer)
        (tokens (position + opening.length + written.length) (')' :: rest))) :
    build next frame outer (tokens position (opening ++ (written ++ [')']) ++ rest)) =
      build after (frame.push node) outer
        (tokens (position + (opening ++ (written ++ [')'])).length) rest) := by
  obtain ⟨finished, hfinished, hbuild⟩ := hinside
  rw [show opening ++ (written ++ [')']) ++ rest = opening ++ (written ++ ')' :: rest) by simp,
    hopening.tokens, hopened, hbuild, build_closeGroup _ hfinished]
  simp only [List.length_append, List.length_singleton, Nat.add_assoc]

mutual

/-- A node becomes the newest node of the group under construction. -/
theorem build_atom : ∀ {next after : Nat} {written : List Char} {node : Node},
    AtomText PlacesText next written node after →
    ∀ (position : Nat) (frame : GroupFrame) (outer : List GroupFrame) (rest : List Char),
      build next frame outer (tokens position (written ++ rest)) =
        build after (frame.push node) outer (tokens (position + written.length) rest)
  | next, _, written, _, .simple text, position, frame, outer, rest => by
    obtain ⟨token, stands⟩ := text.exists_node?
    have hpiece : TokenText position written token rest := .simple stands text
    rw [hpiece.tokens, build_of_node? stands]
  | next, _, _, _, @AtomText.group _ _ _ written branches inside, position, frame, outer, rest => by
    have hend : (')' :: rest).head? ≠ some '?' := by simp
    refine build_group (.remembered ?_) (fun _ => by rw [build])
      (build_choice inside (position + 1) (.opened (some next)) (frame :: outer) _ hend rfl)
    rintro ⟨tail, htail⟩
    exact inside.head?_append hend (by rw [← htail]; rfl)
  | next, _, _, _, .unnamed inside, position, frame, outer, rest =>
    build_group .unnamed (fun _ => by rw [build])
      (build_choice inside (position + 3) (.opened none) (frame :: outer) _ (by simp) rfl)

/-- The nodes of a row become the newest nodes of the group under construction. -/
theorem build_row : ∀ {next after : Nat} {written : List Char} {nodes : List Node},
    RowText PlacesText next written nodes after →
    ∀ (position : Nat) (frame : GroupFrame) (outer : List GroupFrame) (rest : List Char),
      rest.head? ≠ some '?' →
      build next frame outer (tokens position (written ++ rest)) =
        build after { frame with nodes := nodes.reverse ++ frame.nodes } outer
          (tokens (position + written.length) rest)
  | _, _, _, _, .nil, position, frame, outer, rest, hrest => rfl
  | _, _, _, _, .cons first repeated others, position, frame, outer, rest, hrest => by
    have hothers := others.head?_append hrest
    rw [List.append_assoc, List.append_assoc, build_atom first,
      build_loops repeated hothers _ _ rfl, build_row others _ _ _ _ hrest]
    simp only [List.reverse_cons, List.append_assoc, List.length_append, Nat.add_assoc,
      List.singleton_append]
    rfl

/-- The branches of a choice become the newest branches of the group under construction, with the
last of them still open. -/
theorem build_choice : ∀ {next after : Nat} {written : List Char} {branches : List (List Node)},
    ChoiceText PlacesText next written branches after →
    ∀ (position : Nat) (frame : GroupFrame) (outer : List GroupFrame) (rest : List Char),
      rest.head? ≠ some '?' → frame.nodes = [] →
      ∃ finished : GroupFrame,
        finished.close = .group frame.index (frame.branches.reverse ++ branches) ∧
        build next frame outer (tokens position (written ++ rest)) =
          build after finished outer (tokens (position + written.length) rest)
  | _, _, _, _, .last row, position, frame, outer, rest, hrest, hnodes => by
    refine ⟨_, ?_, build_row row position frame outer rest hrest⟩
    rw [GroupFrame.close_eq, hnodes, List.append_nil, List.reverse_reverse]
  | next, _, _, _, @ChoiceText.bar _ _ middle _ written others branch branches first others',
      position, frame, outer, rest, hrest, hnodes => by
    have hpiece : TokenText (position + written.length) ['|'] .bar (others ++ rest) := .bar
    have hbar : build next frame outer (tokens position (written ++ '|' :: (others ++ rest))) =
        build middle { frame with branches := branch :: frame.branches } outer
          (tokens (position + written.length + 1) (others ++ rest)) := by
      rw [build_row first _ _ _ _ (by simp),
        show '|' :: (others ++ rest) = ['|'] ++ (others ++ rest) from rfl, hpiece.tokens, build,
        GroupFrame.endBranch, hnodes, List.append_nil, List.reverse_reverse]
      rfl
    obtain ⟨finished, hfinished, hbuild⟩ := build_choice others' (position + written.length + 1)
      { frame with branches := branch :: frame.branches } outer rest hrest hnodes
    refine ⟨finished, ?_, ?_⟩
    · rw [hfinished, List.reverse_cons, List.append_assoc]
      rfl
    · rw [List.append_assoc, List.cons_append, hbar, hbuild, List.length_append, List.length_cons,
        show position + written.length + 1 + others.length =
          position + (written.length + (others.length + 1)) by omega]

end

end Emend
