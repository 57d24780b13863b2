import Emend.Proofs.Pattern.Layout
import Emend.Proofs.Pattern.Rounds
import Emend.Proofs.Pattern.Steady

/-!
# The code of a steady node tries its ways in order

The code of a steady node is a part of a program for the ways of the node (`IsProper.part`), by
induction on the node: rows are parts one after the other, a choice tries its branches one after the
other (`part_branches`), and repetitions are parts by their kind.
-/

namespace Emend

namespace Node

open Machine

variable {program : Array Instr} {text : Source} {base fin exit position : Nat} {slots : Slots}
  {barred : Set Nat} {branch : List Node} {branches : List (List Node)} {starts : List Nat}
  {K : Way → Option Slots}

/-! ## Branches -/

/-- The code of a branch is a part for its ways, behind the base of the choice. -/
def IsBranchPart (program : Array Instr) (text : Source) (base exit : Nat) (branch : List Node)
    (start : Nat) : Prop :=
  ∃ fin, base < start ∧ fin ≤ exit ∧ Part program text (nullableRow branch)
    (fun moved => rowLeavesLast moved branch) start fin exit (waysOfRow text branch)

/-- A branch of a choice is one of a choice that begins earlier. -/
theorem IsBranchPart.mono {base' start : Nat}
    (h : IsBranchPart program text base exit branch start) (hbase : base' ≤ base) :
    IsBranchPart program text base' exit branch start := by
  obtain ⟨fin, hstart, hfin, hpart⟩ := h
  exact ⟨fin, Nat.lt_of_le_of_lt hbase hstart, hfin, hpart⟩

/-- A jump is a part that changes nothing. -/
theorem part_jump (hjump : program[base]? = some (.jump exit)) (hlt : base < exit) :
    Part program text true (fun _ => true) base (base + 1) exit fun way => [way] :=
  part_stay hjump rfl rfl hlt fun _ slots => .inr ⟨slots, onward_jump hjump, rfl⟩

/-- A branch with the jump behind it. -/
theorem part_branch_jump {start middle : Nat}
    (h : Part program text (nullableRow branch) (fun moved => rowLeavesLast moved branch) start
      middle middle (waysOfRow text branch))
    (hjump : program[middle]? = some (.jump exit)) (hlt : middle < exit) :
    Part program text (nullableRow branch) (fun moved => rowLeavesLast moved branch) start
      (middle + 1) exit (waysOfRow text branch) := by
  have hbehind := h.behind (part_jump hjump hlt)
  have hways : (fun way => (waysOfRow text branch way).flatMap fun way => [way]) =
      waysOfRow text branch := funext fun way => List.flatMap_singleton' _
  rwa [hways] at hbehind

/-- Each branch is a part, with the jump that stands behind it. -/
theorem isBranchPart_codeStarts (hne : branches ≠ [])
    (hrows : ∀ branch ∈ branches, ∀ start,
      CodeAt program start (sequenceCode false start branch) →
      Part program text (nullableRow branch) (fun moved => rowLeavesLast moved branch) start
        (start + (sequenceCode false start branch).length)
        (start + (sequenceCode false start branch).length) (waysOfRow text branch))
    (h : CodeAt program (base + 1) (joinCode exit (branchCodes false (base + 1) branches)))
    (hexit : base + 1 + (joinCode exit (branchCodes false (base + 1) branches)).length = exit) :
    List.Forall₂ (IsBranchPart program text base exit) branches
      (codeStarts (base + 1) (branchCodes false (base + 1) branches)) := by
  induction branches generalizing base with
  | nil => exact absurd rfl hne
  | cons branch rest ih =>
    have hothers := fun other hmem => hrows other (List.mem_cons_of_mem _ hmem)
    rw [branchCodes_cons] at h hexit ⊢
    by_cases hrest : rest = []
    · subst hrest
      have hend : base + 1 + (sequenceCode false (base + 1) branch).length = exit := hexit
      have hpart := hrows branch List.mem_cons_self _ h
      rw [hend] at hpart
      exact .cons ⟨exit, Nat.lt_succ_self _, Nat.le_refl _, hpart⟩ .nil
    · rw [joinCode_cons _ (branchCodes_ne_nil hrest)] at h hexit
      rw [List.length_append, List.length_cons] at hexit
      have hpart := hrows branch List.mem_cons_self _ h.left
      refine .cons ⟨_, Nat.lt_succ_self _, by omega,
        part_branch_jump hpart h.right.head (by omega)⟩ ?_
      exact (ih hrest hothers h.right.tail (by omega)).imp fun _ _ hbranch =>
        hbranch.mono (by omega)

/-- If the branches are left last, each of them is, and one that may be empty is the last. -/
theorem branchesLeaveLast_cons {moved : Bool} {rest : List (List Node)}
    (h : branchesLeaveLast moved (branch :: rest) = true) :
    rowLeavesLast moved branch = true ∧
      (moved = false → nullableRow branch = true → rest = []) ∧
      branchesLeaveLast moved rest = true := by
  rw [branchesLeaveLast, Bool.and_eq_true, Bool.and_eq_true] at h
  refine ⟨h.1.1, fun hmoved hnullable => ?_, h.2⟩
  simpa [hmoved, hnullable] using h.1.2

/-- **Branches are tried one after the other.** Those before have come to nothing. -/
theorem findSome?_branches {whole : List (List Node)} {targets : List Nat}
    (hsplit : program[base]? = some (.split targets)) (hlt : base < exit)
    (hposition : position ≤ text.size)
    (hbarred : ∀ pc ∈ barred, ¬ (base ≤ pc ∧ pc < exit))
    (hexit : ∀ stop noted after,
      Leaving program text (fun moved => branchesLeaveLast moved whole) base exit exit barred
        position stop after →
      tryAt program text stop after exit noted = K ⟨stop, noted.toList⟩)
    (hall : List.Forall₂ (IsBranchPart program text base exit) branches starts)
    (hwhole : ∀ moved, branchesLeaveLast moved whole = true →
      branchesLeaveLast moved branches = true)
    (htargets : ∀ target ∈ targets, target ∈ starts ∨
      Spent program text exit position target)
    (hstarts : starts ⊆ targets) :
    (starts.findSome? fun start => tryAt program text position (insert base barred) start slots) =
      (waysOfBranches text branches ⟨position, slots.toList⟩).findSome? K := by
  induction hall with
  | nil =>
    rw [waysOfBranches]
    rfl
  | @cons branch start rest starts hbranch hall ih =>
    obtain ⟨fin, hstart, hfin, hpart⟩ := hbranch
    have hbarred' := not_barred_behind hbarred hstart hfin
    have hfirst : tryAt program text position (insert base barred) start slots =
        (waysOfRow text branch ⟨position, slots.toList⟩).findSome? K := by
      refine hpart.tries hposition hbarred' fun stop noted after hleaving =>
        hexit stop noted after ?_
      refine hleaving.enter hstart hlt hfin
        (fun moved hlast => (branchesLeaveLast_cons (hwhole moved hlast)).1)
        (.step hsplit rfl (hstarts List.mem_cons_self) .refl) fun hlast hflows hspent => ?_
      -- Through this branch no character need be taken, so it is the last.
      obtain ⟨_, hrest, _⟩ := branchesLeaveLast_cons (hwhole false hlast)
      have hnil := hrest rfl (hpart.flows hflows)
      subst hnil
      cases hall
      refine spent_of_successors hsplit rfl fun next hnext => ?_
      rcases htargets next hnext with hmem | hnext
      · rw [List.mem_singleton.1 hmem]
        exact hspent
      · exact hnext
    rw [List.findSome?_cons, waysOfBranches, List.findSome?_append, hfirst]
    cases hnone : (waysOfRow text branch ⟨position, slots.toList⟩).findSome? K with
    | some result => rfl
    | none =>
      rw [hnone] at hfirst
      -- What begins here has come to nothing, so it is spent.
      have hspent : Spent program text exit position start :=
        hpart.spent_of_none hbarred' hfirst
      refine ih (fun moved hlast => (branchesLeaveLast_cons (hwhole moved hlast)).2.2) ?_
        (List.cons_subset.1 hstarts).2
      intro target htarget
      rcases htargets target htarget with hmem | hdone
      · rcases List.mem_cons.1 hmem with rfl | hrest
        · exact .inr hspent
        · exact .inl hrest
      · exact .inr hdone

/-- A branch that can be passed without taking a character makes the choice so. -/
theorem nullableBranches_of_mem (hmem : branch ∈ branches) (h : nullableRow branch = true) :
    nullableBranches branches = true := by
  induction branches with
  | nil => cases hmem
  | cons first rest ih =>
    rw [nullableBranches, Bool.or_eq_true]
    rcases List.mem_cons.1 hmem with rfl | hrest
    · exact .inl h
    · exact .inr (ih hrest)

/-- **A choice between several branches.** -/
theorem part_split (hsplit : program[base]? = some (.split starts)) (hlt : base < exit)
    (hencloses : Encloses program base exit exit)
    (hall : List.Forall₂ (IsBranchPart program text base exit) branches starts) :
    Part program text (nullableBranches branches) (fun moved => branchesLeaveLast moved branches)
      base exit exit (waysOfBranches text branches) := by
  refine ⟨Nat.le_refl _, .inl hlt, hencloses, fun hflows => ?_, ?_⟩
  · -- The flow to the exit is one through some branch.
    cases hflows with
    | refl => exact absurd hlt (Nat.lt_irrefl _)
    | step here stays goes rest =>
      rw [hsplit] at here
      cases here
      obtain ⟨branch, hmem, fin, _, _, hpart⟩ := exists_mem_of_forall₂ hall.flip goes
      exact nullableBranches_of_mem hmem (hpart.flows rest)
  · intro position barred slots K hposition hbarred hexit
    have hfree : base ∉ barred := fun hmem => hbarred base hmem ⟨Nat.le_refl _, hlt⟩
    have honward : onward program text position ⟨base, slots⟩ =
        starts.map fun target => ⟨target, slots⟩ := onward_split hsplit
    rw [tryAt, attempt_onward hsplit rfl hfree, honward, List.findSome?_map]
    exact findSome?_branches hsplit hlt hposition hbarred hexit hall (fun _ => id)
      (fun target htarget => .inl htarget) (List.Subset.refl _)

/-- A single branch makes the choice. -/
theorem part_single (h : Part program text (nullableRow branch)
      (fun moved => rowLeavesLast moved branch) base fin exit (waysOfRow text branch)) :
    Part program text (nullableBranches [branch]) (fun moved => branchesLeaveLast moved [branch])
      base fin exit (waysOfBranches text [branch]) := by
  have hways : waysOfBranches text [branch] = waysOfRow text branch := by
    funext way
    rw [waysOfBranches, waysOfBranches, List.append_nil]
  rw [hways]
  refine h.mono (nullableBranches_of_mem (List.mem_singleton_self _)) fun moved hlast => ?_
  exact (branchesLeaveLast_cons hlast).1

/-- A group that notes where it is entered and left. -/
theorem part_remembered {index middle : Nat}
    (h : Part program text (nullableBranches branches)
      (fun moved => branchesLeaveLast moved branches) (base + 1) middle middle
      (waysOfBranches text branches))
    (henter : program[base]? = some (.save (2 * index)))
    (hleave : program[middle]? = some (.save (2 * index + 1))) :
    Part program text (nullableBranches branches) (fun moved => branchesLeaveLast moved branches)
      base (middle + 1) (middle + 1) (ways text (.group (some index) branches)) := by
  have hsave : Part program text true (fun _ => true) middle (middle + 1) (middle + 1)
      fun way => [way.note (2 * index + 1)] := by
    refine part_stay hleave rfl rfl (Nat.lt_succ_self _) fun position slots => .inr ⟨_,
      onward_save hleave, ?_⟩
    rw [Array.toList_setIfInBounds]
    rfl
  refine (h.behind hsave).enter henter rfl rfl rfl fun position slots => ⟨_, onward_save henter, ?_⟩
  rw [ways, Array.toList_setIfInBounds, List.map_eq_flatMap]
  rfl

/-! ## The tree -/

/-- The code of a node, wherever it stands in a program, is a part for the ways of the node. -/
def IsPart (program : Array Instr) (text : Source) (node : Node) : Prop :=
  ∀ {base : Nat}, CodeAt program base (node.code false base) →
    Part program text node.nullable (fun moved => node.leavesLast moved) base
      (base + (node.code false base).length) (base + (node.code false base).length)
      (node.ways text)

/-- The code of nodes in a row. -/
theorem part_row {row : List Node} (hrow : ∀ node ∈ row, IsPart program text node)
    (hcode : CodeAt program base (sequenceCode false base row)) :
    Part program text (nullableRow row) (fun moved => rowLeavesLast moved row) base
      (base + (sequenceCode false base row).length)
      (base + (sequenceCode false base row).length) (waysOfRow text row) := by
  induction row generalizing base with
  | nil =>
    have hways : (fun way => [way]) = waysOfRow text [] := by
      funext way
      rw [waysOfRow]
    rw [sequenceCode, ← hways]
    exact (part_empty base).mono (fun _ => rfl) fun _ _ => rfl
  | cons node rest ih =>
    rw [sequenceCode, if_neg Bool.false_ne_true] at hcode ⊢
    have hnode := hrow node List.mem_cons_self hcode.left
    have hrest := ih (fun other hmem => hrow other (List.mem_cons_of_mem _ hmem)) hcode.right
    have hways : (fun way => (node.ways text way).flatMap (waysOfRow text rest)) =
        waysOfRow text (node :: rest) := by
      funext way
      rw [waysOfRow]
    rw [List.length_append, ← Nat.add_assoc, ← hways]
    refine (hnode.append hrest).mono (fun hnullable => ?_) fun moved hlast => ?_
    · rw [nullableRow]
      exact hnullable
    · rw [rowLeavesLast] at hlast
      exact hlast

/-- Code that stays within itself encloses itself. -/
theorem encloses_of_within {code : List Instr} (hcode : CodeAt program base code)
    (h : Within base (base + code.length) base code) :
    Encloses program base (base + code.length) (base + code.length) := by
  intro pc instr hlow hhigh hinstr next hnext
  obtain ⟨offset, rfl⟩ := Nat.exists_eq_add_of_le hlow
  have hlt : offset < code.length := by omega
  have hsame := hcode offset code[offset] (List.getElem?_eq_getElem hlt)
  rw [hinstr] at hsame
  cases hsame
  obtain ⟨hlow', hhigh'⟩ := h offset _ (List.getElem?_eq_getElem hlt) next hnext
  omega

/-- The code of a choice. -/
theorem part_choice (hne : branches ≠ [])
    (hproper : ∀ branch ∈ branches, ∀ node ∈ branch, IsProper node)
    (hbranches : ∀ branch ∈ branches, ∀ node ∈ branch, IsPart program text node)
    (hcode : CodeAt program base (choiceCode false base branches)) :
    Part program text (nullableBranches branches) (fun moved => branchesLeaveLast moved branches)
      base (base + (choiceCode false base branches).length)
      (base + (choiceCode false base branches).length) (waysOfBranches text branches) := by
  match branches, hne with
  | [branch], _ =>
    rw [choiceCode] at hcode ⊢
    exact part_single (part_row (hbranches branch List.mem_cons_self) hcode)
  | branch :: second :: rest, hne =>
    have hencloses : Encloses program base
        (base + (choiceCode false base (branch :: second :: rest)).length)
        (base + (choiceCode false base (branch :: second :: rest)).length) :=
      encloses_of_within hcode (within_choiceCode (fun branch hbranch node hnode =>
        (hproper branch hbranch node hnode).staysWithin false) base)
    obtain ⟨pieces, exit, rfl, hpieces, hexit⟩ := choiceCode_several false base branch second rest
    rw [hexit] at hencloses ⊢
    rw [hpieces] at hcode hexit
    rw [List.length_cons] at hexit
    refine part_split hcode.head (by omega) hencloses
      (isBranchPart_codeStarts hne (fun branch hmem start hrow => ?_) hcode.tail (by omega))
    exact part_row (hbranches branch hmem) hrow

/-- What is said of a row is said of each node in it. -/
theorem steady_of_mem_row {node : Node} {row : List Node} (h : steadyRow row = true)
    (hnode : node ∈ row) : node.steady = true := by
  induction row with
  | nil => cases hnode
  | cons first rest ih =>
    rw [steadyRow, Bool.and_eq_true] at h
    rcases List.mem_cons.1 hnode with rfl | hrest
    · exact h.1
    · exact ih h.2 hrest

/-- What is said of all branches is said of each node in them. -/
theorem steady_of_mem {node : Node} (h : steadyBranches branches = true) (hbranch : branch ∈ branches)
    (hnode : node ∈ branch) : node.steady = true := by
  induction branches with
  | nil => cases hbranch
  | cons first rest ih =>
    rw [steadyBranches, Bool.and_eq_true] at h
    rcases List.mem_cons.1 hbranch with rfl | hrest
    · exact steady_of_mem_row h.1 hnode
    · exact ih h.2 hrest

/-- A repetition of one round at most. -/
theorem IsPart.zeroOrOne {greedy : Bool} {child : Node} (h : IsPart program text child) :
    IsPart program text (.loop .zeroOrOne greedy child) := by
  intro base hcode
  rw [code] at hcode ⊢
  have hpart := h hcode.tail
  have hexit : base + ((child.code false (base + 1)).length + 1) =
      base + 1 + (child.code false (base + 1)).length := by
    omega
  have hways : (fun way => Way.order greedy (child.ways text way) way) =
      ways text (.loop .zeroOrOne greedy child) := by
    funext way
    rw [ways]
  have hchoice := hcode.head
  rw [Nat.add_right_comm] at hchoice
  rw [List.length_cons, hexit, ← hways]
  refine (hpart.optional hchoice rfl).mono (fun _ => rfl) fun moved hlast => ?_
  rw [leavesLast] at hlast
  exact hlast

/-- A repetition of any number of rounds, which may be empty only if they are left last. -/
theorem IsPart.zeroOrMore {greedy : Bool} {child : Node} (h : IsPart program text child)
    (hrejoins : child.nullable = false ∨ child.leavesLast true = true) :
    IsPart program text (.loop .zeroOrMore greedy child) := by
  intro base hcode
  rw [code] at hcode ⊢
  have hpart := h hcode.tail.left
  have hback := hcode.tail.right.head
  have hchoice := hcode.head
  have hexit : base + (child.code false (base + 1)).length + 2 =
      base + 1 + (child.code false (base + 1)).length + 1 := by
    omega
  have hlength : base + ((child.code false (base + 1)).length + 1 + 1) =
      base + 1 + (child.code false (base + 1)).length + 1 := by
    omega
  have hways : (fun way => way.rounds text.size greedy (child.ways text)) =
      ways text (.loop .zeroOrMore greedy child) := by
    funext way
    rw [ways]
  rw [hexit] at hchoice
  rw [List.length_cons, List.length_append, List.length_singleton, hlength, ← hways]
  refine (hpart.star ⟨hchoice, hback, rfl, rfl⟩ hrejoins).mono (fun _ => rfl) ?_
  intro moved hlast
  rw [leavesLast] at hlast
  exact hlast

/-- A repetition of at least one round, none of which may be empty. -/
theorem IsPart.oneOrMore {greedy : Bool} {child : Node} (h : IsPart program text child)
    (hnullable : child.nullable = false) :
    IsPart program text (.loop .oneOrMore greedy child) := by
  intro base hcode
  rw [code] at hcode ⊢
  have hpart := h hcode.left
  have hchoice := hcode.right.head
  have hways : (fun way => way.roundsFromOne text.size greedy (child.ways text)) =
      ways text (.loop .oneOrMore greedy child) := by
    funext way
    rw [ways]
  rw [hnullable] at hpart
  rw [List.length_append, List.length_singleton, ← Nat.add_assoc, ← hways]
  refine (hpart.plus ⟨hchoice, rfl⟩).mono (fun h => absurd h Bool.false_ne_true)
    fun moved hlast => ?_
  rw [leavesLast] at hlast
  exact hlast

/-- **A repetition.** -/
theorem IsPart.loop {kind : Repetition} {greedy : Bool} {child : Node}
    (h : child.steady = true → IsPart program text child)
    (hsteady : steady (.loop kind greedy child) = true) :
    IsPart program text (.loop kind greedy child) := by
  cases kind with
  | zeroOrOne =>
    rw [steady] at hsteady
    exact IsPart.zeroOrOne (@h hsteady)
  | zeroOrMore =>
    rw [steady, Bool.and_eq_true, Bool.or_eq_true, Bool.not_eq_true'] at hsteady
    exact IsPart.zeroOrMore (@h hsteady.2) hsteady.1
  | oneOrMore =>
    rw [steady, Bool.and_eq_true, Bool.not_eq_true'] at hsteady
    exact IsPart.oneOrMore (@h hsteady.2) hsteady.1

/-- A character. -/
theorem isPart_char (c : Char) : IsPart program text (.char c) := by
  intro base hcode
  have hways : (fun way : Way => if (text.charAt? way.position).any (Instr.char c).takes then
      [{ way with position := way.position + 1 }] else []) = ways text (.char c) := by
    funext way
    rw [ways]
    cases text.charAt? way.position with
    | none => rfl
    | some d =>
      by_cases heq : c = d
      · simp [Instr.takes, heq]
      · simp [Instr.takes, heq, Ne.symm heq]
  rw [← hways]
  exact part_take hcode.head rfl (by simp)

/-- A class. -/
theorem isPart_oneOf (set : CharClass) : IsPart program text (.oneOf set) := by
  intro base hcode
  have hways : (fun way : Way => if (text.charAt? way.position).any (Instr.oneOf set).takes then
      [{ way with position := way.position + 1 }] else []) = ways text (.oneOf set) := by
    funext way
    rw [ways]
    rfl
  rw [← hways]
  exact part_take hcode.head rfl (by simp)

/-- An assertion. -/
theorem isPart_assert (assertion : Assertion) : IsPart program text (.assert assertion) := by
  intro base hcode
  refine part_stay hcode.head rfl rfl (Nat.lt_succ_self _) fun position slots => ?_
  rw [onward_assert hcode.head, ways]
  dsimp only
  split
  · exact .inr ⟨slots, rfl, rfl⟩
  · exact .inl ⟨rfl, rfl⟩

/-- **A group**, remembered or not. -/
theorem isPart_group (index : Option Nat) {branches : List (List Node)} (nonempty : branches ≠ [])
    (proper : ∀ branch ∈ branches, ∀ node ∈ branch, node.IsProper)
    (hall : ∀ branch ∈ branches, ∀ node ∈ branch, IsPart program text node) :
    IsPart program text (.group index branches) := by
  intro base hcode
  cases index with
  | none =>
    have hways : waysOfBranches text branches = ways text (.group none branches) := by
      funext way
      rw [ways]
    rw [code] at hcode ⊢
    rw [← hways]
    refine (part_choice nonempty proper hall hcode).mono (fun hnullable => ?_) fun moved hlast => ?_
    · rw [nullable]
      exact hnullable
    · rw [leavesLast] at hlast
      exact hlast
  | some index =>
    -- The notes stand around the choice, and take no character.
    obtain ⟨henter, hchoice, hleave, hexit⟩ := remembered_cases hcode
    rw [hexit]
    refine (part_remembered (part_choice nonempty proper hall hchoice) henter hleave).mono
      (fun hnullable => ?_) fun moved hlast => ?_
    · rw [nullable]
      exact hnullable
    · rw [leavesLast] at hlast
      exact hlast

/-- **The code of a steady node is a part for its ways.** -/
theorem IsProper.part {node : Node} (h : node.IsProper) (hsteady : node.steady = true) :
    IsPart program text node := by
  induction h with
  | char c => exact isPart_char c
  | oneOf set => exact isPart_oneOf set
  | assert assertion => exact isPart_assert assertion
  | loop kind greedy proper ih => exact IsPart.loop ih hsteady
  | group index nonempty proper ih =>
    rename_i branches
    have hbranches : steadyBranches branches = true := by
      rw [← hsteady, steady]
    have hall : ∀ branch ∈ branches, ∀ node ∈ branch, IsPart program text node :=
      fun branch hbranch node hnode => ih branch hbranch node hnode
        (steady_of_mem hbranches hbranch hnode)
    exact @isPart_group program text index branches nonempty proper hall

end Node

end Emend
