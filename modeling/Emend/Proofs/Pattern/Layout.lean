import Emend.Pattern.Closed
import Emend.Proofs.Pattern.Steps
import Mathlib.Data.List.Forall2

/-!
# Where the code of a node lies

The code of a node stands in the program from its base on, and the code of each part of the node
stands within it. `CodeAt` says where code stands, and takes it apart as the code is put together.
The one piece of layout that needs an argument is that of branches: each stands at one of the
targets of the split before them, and comes out at the end of the choice (`choice_cases`).

A node is proper if every group in it has a branch. Only a group without branches could be passed
without one, and no pattern writes such a group.
-/

namespace Emend

/-- The direction walks towards the beginning. -/
def Direction.isBackward : Direction → Bool
  | .forward => false
  | .backward => true

/-- The code stands in the program from `base` on. -/
def CodeAt (program : Array Instr) (base : Nat) (code : List Instr) : Prop :=
  ∀ (offset : Nat) (instr : Instr), code[offset]? = some instr →
    program[base + offset]? = some instr

section CodeAt

variable {program : Array Instr} {base : Nat} {code rest : List Instr} {instr : Instr}

/-- The first instruction of code stands where the code does. -/
theorem CodeAt.head (h : CodeAt program base (instr :: rest)) : program[base]? = some instr :=
  h 0 instr rfl

/-- The rest of the code stands right behind it. -/
theorem CodeAt.tail (h : CodeAt program base (instr :: rest)) : CodeAt program (base + 1) rest := by
  intro offset other hother
  rw [Nat.add_assoc, Nat.add_comm 1]
  exact h (offset + 1) other hother

/-- The first part of code stands where the code does. -/
theorem CodeAt.left (h : CodeAt program base (code ++ rest)) : CodeAt program base code := by
  intro offset other hother
  apply h
  rw [List.getElem?_append_left (List.getElem?_eq_some_iff.1 hother).1]
  exact hother

/-- The second part stands behind the first. -/
theorem CodeAt.right (h : CodeAt program base (code ++ rest)) :
    CodeAt program (base + code.length) rest := by
  intro offset other hother
  rw [Nat.add_assoc]
  apply h
  rw [List.getElem?_append_right (Nat.le_add_right _ _), Nat.add_sub_cancel_left]
  exact hother

/-- A program holds its own code. -/
theorem codeAt_toArray (code : List Instr) : CodeAt code.toArray 0 code := by
  intro offset instr h
  rw [Nat.zero_add, List.getElem?_toArray]
  exact h

end CodeAt

namespace Node

variable {program : Array Instr} {backward : Bool} {base exit : Nat}

/-! ## Branches -/

/-- The code of a branch stands at `start`, and what leaves it comes to `exit`. -/
structure BranchAt (program : Array Instr) (backward : Bool) (exit : Nat) (branch : List Node)
    (start : Nat) : Prop where
  /-- The code of the branch. -/
  code : CodeAt program start (sequenceCode backward start branch)
  /-- After it comes the exit, or a jump there. -/
  leave : start + (sequenceCode backward start branch).length = exit ∨
    program[start + (sequenceCode backward start branch).length]? = some (.jump exit)

/-- Between the code of a branch and the next there is room for a jump. -/
theorem branchCodes_cons (branch : List Node) (rest : List (List Node)) :
    branchCodes backward base (branch :: rest) =
      sequenceCode backward base branch ::
        branchCodes backward (base + (sequenceCode backward base branch).length + 1) rest := by
  rw [branchCodes]

/-- There is one piece of code for each branch. -/
theorem branchCodes_ne_nil {branches : List (List Node)} (hne : branches ≠ []) :
    branchCodes backward base branches ≠ [] := by
  cases branches with
  | nil => exact absurd rfl hne
  | cons branch rest =>
    rw [branchCodes_cons]
    exact List.cons_ne_nil _ _

/-- All pieces but the last have a jump after them. -/
theorem joinCode_cons (code : List Instr) {pieces : List (List Instr)} (hne : pieces ≠ []) :
    joinCode exit (code :: pieces) = code ++ .jump exit :: joinCode exit pieces := by
  cases pieces with
  | nil => exact absurd rfl hne
  | cons piece rest => rfl

/-- Joined branches have a jump between each two. -/
theorem length_joinCode {pieces : List (List Instr)} (hne : pieces ≠ []) :
    (joinCode exit pieces).length + 1 = pieces.length + pieces.flatten.length := by
  induction pieces with
  | nil => exact absurd rfl hne
  | cons code rest ih =>
    cases rest with
    | nil =>
      rw [joinCode, List.flatten_cons, List.length_append]
      simp
      omega
    | cons piece rest =>
      have hrest := ih (List.cons_ne_nil _ _)
      rw [joinCode_cons code (List.cons_ne_nil _ _), List.flatten_cons, List.length_append,
        List.length_append, List.length_cons, List.length_cons, hrest]
      omega

/-- Each branch stands where its code begins. -/
theorem branchAt_codeStarts {branches : List (List Node)} (hne : branches ≠ [])
    (h : CodeAt program base (joinCode exit (branchCodes backward base branches)))
    (hexit : base + (joinCode exit (branchCodes backward base branches)).length = exit) :
    List.Forall₂ (BranchAt program backward exit) branches
      (codeStarts base (branchCodes backward base branches)) := by
  induction branches generalizing base with
  | nil => exact absurd rfl hne
  | cons branch rest ih =>
    rw [branchCodes_cons] at h hexit ⊢
    by_cases hrest : rest = []
    · -- The last branch ends where the choice ends, all others with a jump there.
      subst hrest
      exact .cons ⟨h, .inl hexit⟩ .nil
    · rw [joinCode_cons _ (branchCodes_ne_nil hrest)] at h hexit
      refine .cons ⟨h.left, .inr h.right.head⟩ (ih hrest h.right.tail ?_)
      rw [List.length_append, List.length_cons] at hexit
      omega

/-- The code of several branches: a split to all of them, and the branches with their jumps. -/
theorem choiceCode_several (backward : Bool) (base : Nat) (branch second : List Node)
    (rest : List (List Node)) :
    ∃ pieces exit, pieces = branchCodes backward (base + 1) (branch :: second :: rest) ∧
      choiceCode backward base (branch :: second :: rest) =
        .split (codeStarts (base + 1) pieces) :: joinCode exit pieces ∧
      base + (choiceCode backward base (branch :: second :: rest)).length = exit := by
  have hne : branchCodes backward (base + 1) (branch :: second :: rest) ≠ [] :=
    branchCodes_ne_nil (List.cons_ne_nil _ _)
  refine ⟨_, _, rfl, by rw [choiceCode, ← branchCodes_cons], ?_⟩
  rw [choiceCode, ← branchCodes_cons, List.length_cons, length_joinCode hne]
  exact (Nat.add_assoc _ _ _).symm

/-- **The layout of a choice.** A single branch stands in its place. Several branches stand at the
targets of the split that stands there. -/
theorem choice_cases {branches : List (List Node)} (hne : branches ≠ [])
    (h : CodeAt program base (choiceCode backward base branches)) :
    (∃ branch, branches = [branch] ∧ BranchAt program backward
      (base + (choiceCode backward base branches).length) branch base) ∨
    ∃ starts, program[base]? = some (.split starts) ∧
      List.Forall₂ (BranchAt program backward
        (base + (choiceCode backward base branches).length)) branches starts := by
  match branches, hne with
  | [branch], _ =>
    rw [choiceCode] at h ⊢
    exact .inl ⟨branch, rfl, h, .inl rfl⟩
  | branch :: second :: rest, hne =>
    obtain ⟨pieces, exit, rfl, hcode, hexit⟩ :=
      choiceCode_several backward base branch second rest
    rw [hexit]
    rw [hcode] at h hexit
    refine .inr ⟨_, h.head, branchAt_codeStarts hne h.tail ?_⟩
    rw [List.length_cons] at hexit
    omega

/-- **The layout of a remembered group.** The choice stands between the two places where the group
is noted. -/
theorem remembered_cases {index : Nat} {branches : List (List Node)}
    (h : CodeAt program base (code backward base (.group (some index) branches))) :
    program[base]? = some (.save (2 * index)) ∧
      CodeAt program (base + 1) (choiceCode backward (base + 1) branches) ∧
      program[base + 1 + (choiceCode backward (base + 1) branches).length]? =
        some (.save (2 * index + 1)) ∧
      base + (code backward base (.group (some index) branches)).length =
        base + 1 + (choiceCode backward (base + 1) branches).length + 1 := by
  rw [code] at h ⊢
  refine ⟨h.head, h.tail.left, h.tail.right.head, ?_⟩
  rw [List.length_cons, List.length_append, List.length_singleton]
  omega

/-! ## Repetitions -/

/-- How the code of a repeated node at `body` is entered at `base` and left. -/
structure LoopAt (program : Array Instr) (backward : Bool) (kind : Repetition) (greedy : Bool)
    (child : Node) (base exit body : Nat) : Prop where
  /-- The code of the repeated node. -/
  code : CodeAt program body (child.code backward body)
  /-- A repetition that may be left out begins with a choice. -/
  choice : kind ≠ .oneOrMore → program[base]? = some (.choice greedy body exit)
  /-- Any other begins with the node itself. -/
  first : kind = .oneOrMore → body = base
  /-- A repetition that may not be left out has the choice after the node. -/
  more : kind = .oneOrMore →
    program[body + (child.code backward body).length]? = some (.choice greedy base exit)
  /-- After a round one that goes on comes back to the choice before the node. -/
  back : kind = .zeroOrMore →
    program[body + (child.code backward body).length]? = some (.jump base)
  /-- One that does not go on ends with the node. -/
  single : kind = .zeroOrOne → body + (child.code backward body).length = exit

/-- **The layout of a repetition.** -/
theorem exists_loopAt {kind : Repetition} {greedy : Bool} {child : Node}
    (h : CodeAt program base (code backward base (.loop kind greedy child))) :
    ∃ body, LoopAt program backward kind greedy child base
      (base + (code backward base (.loop kind greedy child)).length) body := by
  cases kind with
  | oneOrMore =>
    rw [code] at h ⊢
    rw [List.length_append, List.length_singleton]
    exact ⟨base, h.left, fun hne => absurd rfl hne, fun _ => rfl, fun _ => h.right.head, nofun,
      nofun⟩
  | zeroOrMore =>
    rw [code] at h ⊢
    rw [List.length_cons, List.length_append, List.length_singleton]
    exact ⟨base + 1, h.tail.left, fun _ => h.head, nofun, nofun, fun _ => h.tail.right.head, nofun⟩
  | zeroOrOne =>
    rw [code] at h ⊢
    rw [List.length_cons]
    have hexit : base + 1 + (child.code backward (base + 1)).length =
        base + ((child.code backward (base + 1)).length + 1) := by
      omega
    refine ⟨base + 1, h.tail, fun _ => ?_, nofun, nofun, nofun, fun _ => hexit⟩
    rw [← Nat.add_assoc]
    exact h.head

/-! ## Targets -/

/-- The node and every node in it can be passed only through branches: no group is empty. -/
inductive IsProper : Node → Prop where
  /-- A character. -/
  | char (c : Char) : IsProper (.char c)
  /-- A class. -/
  | oneOf (set : CharClass) : IsProper (.oneOf set)
  /-- An assertion. -/
  | assert (assertion : Assertion) : IsProper (.assert assertion)
  /-- A repetition of a proper node. -/
  | loop (kind : Repetition) (greedy : Bool) {child : Node} (proper : IsProper child) :
    IsProper (.loop kind greedy child)
  /-- A group with a branch, all of whose branches hold proper nodes. -/
  | group (index : Option Nat) {branches : List (List Node)} (nonempty : branches ≠ [])
    (proper : ∀ branch ∈ branches, ∀ node ∈ branch, IsProper node) :
    IsProper (.group index branches)

/-- Whatever the code at `base` goes on to lies between two addresses. -/
def Within (low high base : Nat) (code : List Instr) : Prop :=
  ∀ (offset : Nat) (instr : Instr), code[offset]? = some instr →
    ∀ next ∈ instr.successors (base + offset), low ≤ next ∧ next ≤ high

section Within

variable {low high low' high' : Nat} {code rest : List Instr} {instr : Instr}

/-- Code that stays within bounds stays within wider ones. -/
theorem Within.mono (h : Within low high base code) (hlow : low' ≤ low) (hhigh : high ≤ high') :
    Within low' high' base code := by
  intro offset instr hinstr next hnext
  obtain ⟨h₁, h₂⟩ := h offset instr hinstr next hnext
  exact ⟨Nat.le_trans hlow h₁, Nat.le_trans h₂ hhigh⟩

/-- No code goes nowhere. -/
theorem within_nil : Within low high base [] := by
  intro offset instr hinstr
  cases hinstr

/-- An instruction in front of code has to stay within the bounds as well. -/
theorem within_cons (hinstr : ∀ next ∈ instr.successors base, low ≤ next ∧ next ≤ high)
    (h : Within low high (base + 1) rest) : Within low high base (instr :: rest) := by
  intro offset other hother
  cases offset with
  | zero =>
    cases hother
    exact hinstr
  | succ offset =>
    have hrest := h offset other hother
    rwa [Nat.add_assoc, Nat.add_comm 1] at hrest

/-- Code stays within bounds that both of its parts stay within. -/
theorem within_append (h : Within low high base code)
    (h' : Within low high (base + code.length) rest) : Within low high base (code ++ rest) := by
  intro offset instr hinstr
  by_cases hlt : offset < code.length
  · rw [List.getElem?_append_left hlt] at hinstr
    exact h offset instr hinstr
  · have hle := Nat.le_of_not_lt hlt
    rw [List.getElem?_append_right hle] at hinstr
    have hrest := h' _ instr hinstr
    rwa [Nat.add_assoc, Nat.add_sub_cancel' hle] at hrest

end Within

/-- The code goes on within itself or right after itself. -/
def StaysWithin (backward : Bool) (node : Node) : Prop :=
  ∀ base, Within base (base + (node.code backward base).length) base (node.code backward base)

/-- A row goes on within itself or right behind itself, if its nodes do. -/
theorem within_sequenceCode {row : List Node} (h : ∀ node ∈ row, StaysWithin backward node) :
    ∀ base, Within base (base + (sequenceCode backward base row).length) base
      (sequenceCode backward base row) := by
  induction row with
  | nil => exact fun base => within_nil
  | cons node rest ih =>
    intro base
    have hnode := h node List.mem_cons_self
    have hrest := ih fun other hmem => h other (List.mem_cons_of_mem _ hmem)
    rw [sequenceCode]
    split
    · rw [List.length_append]
      refine within_append ((hrest base).mono (Nat.le_refl _) (by omega)) ?_
      exact (hnode _).mono (by omega) (by omega)
    · rw [List.length_append]
      refine within_append ((hnode base).mono (Nat.le_refl _) (by omega)) ?_
      exact (hrest _).mono (by omega) (by omega)

/-- Joined branches begin within the bounds and go on to the exit. -/
theorem within_joinCode {branches : List (List Node)} {low : Nat}
    (h : ∀ branch ∈ branches, ∀ node ∈ branch, StaysWithin backward node) (hlow : low ≤ base)
    (hexit : base + (joinCode exit (branchCodes backward base branches)).length = exit) :
    Within low exit base (joinCode exit (branchCodes backward base branches)) ∧
      ∀ start ∈ codeStarts base (branchCodes backward base branches),
        low ≤ start ∧ start ≤ exit := by
  induction branches generalizing base with
  | nil => exact ⟨within_nil, fun start hstart => by cases hstart⟩
  | cons branch rest ih =>
    have hbranch := within_sequenceCode (h branch List.mem_cons_self) base
    have hothers := fun other hmem => h other (List.mem_cons_of_mem _ hmem)
    rw [branchCodes_cons] at hexit ⊢
    by_cases hrest : rest = []
    · -- The last branch comes out at the exit by itself.
      subst hrest
      have hlength : base + (sequenceCode backward base branch).length = exit := hexit
      refine ⟨hbranch.mono hlow (Nat.le_of_eq hlength), fun start hstart => ?_⟩
      have hstart : start = base := List.mem_singleton.1 hstart
      omega
    · rw [joinCode_cons _ (branchCodes_ne_nil hrest)] at hexit ⊢
      rw [List.length_append, List.length_cons] at hexit
      have hlater : base + (sequenceCode backward base branch).length + 1 + (joinCode exit
          (branchCodes backward (base + (sequenceCode backward base branch).length + 1)
            rest)).length = exit := by
        omega
      obtain ⟨hcode, hstarts⟩ := ih hothers (by omega) hlater
      -- The jump in between goes to the exit.
      constructor
      · refine within_append (hbranch.mono hlow (by omega)) (within_cons ?_ hcode)
        intro next hnext
        cases List.mem_singleton.1 hnext
        omega
      · intro start hstart
        rcases List.mem_cons.1 hstart with rfl | hlater
        · omega
        · exact hstarts start hlater

/-- A choice goes on within itself or right behind itself, if its branches do. -/
theorem within_choiceCode {branches : List (List Node)}
    (h : ∀ branch ∈ branches, ∀ node ∈ branch, StaysWithin backward node) (base : Nat) :
    Within base (base + (choiceCode backward base branches).length) base
      (choiceCode backward base branches) := by
  match branches with
  | [] =>
    rw [choiceCode]
    exact within_nil
  | [branch] =>
    rw [choiceCode]
    exact within_sequenceCode (h branch List.mem_cons_self) base
  | branch :: second :: rest =>
    obtain ⟨pieces, exit, rfl, hcode, hexit⟩ := choiceCode_several backward base branch second rest
    rw [hexit]
    rw [hcode, List.length_cons] at hexit
    rw [hcode]
    have hjoin : base + 1 + (joinCode exit
        (branchCodes backward (base + 1) (branch :: second :: rest))).length = exit := by
      omega
    obtain ⟨hrest, hstarts⟩ := within_joinCode h (Nat.le_succ base) hjoin
    exact within_cons hstarts hrest

/-- What goes on to the next instruction only. -/
theorem within_next {next : Nat} (h : next ∈ [base + 1]) : base ≤ next ∧ next ≤ base + 1 := by
  cases List.mem_singleton.1 h
  exact ⟨Nat.le_succ base, Nat.le_refl _⟩

/-- A choice goes on to either of its two targets. -/
theorem within_of_mem_choice {greedy : Bool} {low high body next : Nat}
    (hbody : low ≤ body ∧ body ≤ high) (hexit : low ≤ exit ∧ exit ≤ high)
    (h : next ∈ (Instr.choice greedy body exit).successors base) : low ≤ next ∧ next ≤ high := by
  cases greedy with
  | true => rcases List.mem_pair.1 h with rfl | rfl <;> assumption
  | false => rcases List.mem_pair.1 h with rfl | rfl <;> assumption

/-- A repetition goes back to its beginning at most, and out to its end. -/
theorem staysWithin_loop {child : Node} (h : StaysWithin backward child) (kind : Repetition)
    (greedy : Bool) : StaysWithin backward (.loop kind greedy child) := by
  intro base
  cases kind with
  | oneOrMore =>
    rw [code, List.length_append, List.length_singleton]
    refine within_append ((h base).mono (Nat.le_refl _) (by omega)) (within_cons ?_ within_nil)
    exact fun next => within_of_mem_choice ⟨Nat.le_refl _, by omega⟩ ⟨by omega, by omega⟩
  | zeroOrMore =>
    rw [code, List.length_cons, List.length_append, List.length_singleton]
    refine within_cons ?_ (within_append ((h (base + 1)).mono (by omega) (by omega))
      (within_cons ?_ within_nil))
    · exact fun next => within_of_mem_choice ⟨by omega, by omega⟩ ⟨by omega, by omega⟩
    · -- The jump back to the choice.
      intro next hmem
      cases List.mem_singleton.1 hmem
      omega
  | zeroOrOne =>
    rw [code, List.length_cons]
    refine within_cons ?_ ((h (base + 1)).mono (by omega) (by omega))
    exact fun next => within_of_mem_choice ⟨by omega, by omega⟩ ⟨by omega, by omega⟩

/-- A group adds at most a note at either end of its branches. -/
theorem staysWithin_group {branches : List (List Node)}
    (h : ∀ branch ∈ branches, ∀ node ∈ branch, StaysWithin backward node) (index : Option Nat) :
    StaysWithin backward (.group index branches) := by
  intro base
  cases index with
  | none =>
    rw [code]
    exact within_choiceCode h base
  | some index =>
    rw [code, List.length_cons, List.length_append, List.length_singleton]
    refine within_cons (fun next hmem => ?_) (within_append
      ((within_choiceCode h (base + 1)).mono (by omega) (by omega))
      (within_cons (fun next hmem => ?_) within_nil))
    · have hnext := within_next hmem
      omega
    · have hnext := within_next hmem
      omega

/-- **Code goes on within itself** or right after itself. -/
theorem IsProper.staysWithin {node : Node} (h : node.IsProper) (backward : Bool) :
    StaysWithin backward node := by
  induction h with
  | char c => exact fun base => within_cons (fun next => within_next) within_nil
  | oneOf set => exact fun base => within_cons (fun next => within_next) within_nil
  | assert assertion => exact fun base => within_cons (fun next => within_next) within_nil
  | loop kind greedy proper ih => exact staysWithin_loop ih kind greedy
  | group index nonempty proper ih => exact staysWithin_group ih index

end Node

end Emend
