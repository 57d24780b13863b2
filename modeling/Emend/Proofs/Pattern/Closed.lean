import Emend.Pattern.Closed
import Emend.Proofs.Pattern.Layout
import Emend.Proofs.Pattern.Slots

/-!
# Closed programs

What the code of a node goes on to lies in it or right after it (`IsProper.staysWithin`), and every
instruction of it goes on to something (`IsProper.goesOn`). So with the acceptance at its end the
program of a pattern is closed, and it has a slot for whatever it notes: `closedProgram_programOf`.
-/

namespace Emend

/-- The instruction has a successor, wherever it stands. -/
def Instr.GoesOn (instr : Instr) : Prop :=
  ∀ address, instr.successors address ≠ []

/-- A choice goes on, whichever of its branches is tried first. -/
theorem Instr.goesOn_choice (greedy : Bool) (body exit : Nat) :
    (Instr.choice greedy body exit).GoesOn := by
  intro address
  cases greedy <;> exact List.cons_ne_nil _ _

namespace Node

variable {backward : Bool} {row : List Node} {branches : List (List Node)} {exit : Nat}

/-- The code of a row goes on where the codes of its nodes do. -/
theorem goesOn_sequenceCode
    (h : ∀ node ∈ row, ∀ base, ∀ instr ∈ node.code backward base, instr.GoesOn) (base : Nat) :
    ∀ instr ∈ sequenceCode backward base row, instr.GoesOn := by
  induction row generalizing base with
  | nil =>
    rw [sequenceCode]
    exact List.forall_mem_nil _
  | cons node rest ih =>
    have hnode := h node List.mem_cons_self
    have hrest := ih fun other hmem => h other (List.mem_cons_of_mem _ hmem)
    rw [sequenceCode]
    split
    · exact List.forall_mem_append.2 ⟨hrest _, hnode _⟩
    · exact List.forall_mem_append.2 ⟨hnode _, hrest _⟩

/-- Branches that are joined by jumps go on where the codes of their nodes do. -/
theorem goesOn_joinCode
    (h : ∀ branch ∈ branches, ∀ node ∈ branch, ∀ base, ∀ instr ∈ node.code backward base,
      instr.GoesOn) (base : Nat) :
    ∀ instr ∈ joinCode exit (branchCodes backward base branches), instr.GoesOn := by
  induction branches generalizing base with
  | nil =>
    rw [branchCodes]
    exact List.forall_mem_nil _
  | cons branch rest ih =>
    have hbranch := goesOn_sequenceCode (h branch List.mem_cons_self)
    have hrest := ih fun other hmem => h other (List.mem_cons_of_mem _ hmem)
    rw [branchCodes_cons]
    by_cases hnil : rest = []
    · subst hnil
      exact hbranch base
    · rw [joinCode_cons _ (branchCodes_ne_nil hnil)]
      have hjump : (Instr.jump exit).GoesOn := fun _ => List.cons_ne_nil _ _
      exact List.forall_mem_append.2 ⟨hbranch _, List.forall_mem_cons.2 ⟨hjump, hrest _⟩⟩

/-- A choice between branches goes on where the codes of their nodes do. -/
theorem goesOn_choiceCode
    (h : ∀ branch ∈ branches, ∀ node ∈ branch, ∀ base, ∀ instr ∈ node.code backward base,
      instr.GoesOn) (base : Nat) :
    ∀ instr ∈ choiceCode backward base branches, instr.GoesOn := by
  match branches with
  | [] =>
    rw [choiceCode]
    exact List.forall_mem_nil _
  | [branch] =>
    rw [choiceCode]
    exact goesOn_sequenceCode (h branch List.mem_cons_self) base
  | branch :: second :: rest =>
    obtain ⟨pieces, exit, rfl, hcode, _⟩ := choiceCode_several backward base branch second rest
    rw [hcode]
    refine List.forall_mem_cons.2 ⟨fun _ => ?_, goesOn_joinCode h (base + 1)⟩
    -- Each branch has a target of its own.
    rw [branchCodes_cons]
    exact List.cons_ne_nil _ _

/-- **Every instruction of a node goes on**: none of them ends the match. -/
theorem IsProper.goesOn {node : Node} (h : node.IsProper) (base : Nat) :
    ∀ instr ∈ node.code backward base, instr.GoesOn := by
  -- Most instructions have one successor.
  have hnext {instr : Instr} {next : Nat → Nat}
      (hsuccessors : ∀ address, instr.successors address = [next address]) : instr.GoesOn :=
    fun address => by rw [hsuccessors]; exact List.cons_ne_nil _ _
  induction h generalizing base with
  | char c => exact List.forall_mem_singleton.2 (hnext fun _ => rfl)
  | oneOf set => exact List.forall_mem_singleton.2 (hnext fun _ => rfl)
  | assert assertion => exact List.forall_mem_singleton.2 (hnext fun _ => rfl)
  | loop kind greedy proper ih =>
    cases kind with
    | oneOrMore =>
      rw [code]
      exact List.forall_mem_append.2
        ⟨ih base, List.forall_mem_singleton.2 (Instr.goesOn_choice greedy _ _)⟩
    | zeroOrMore =>
      rw [code]
      exact List.forall_mem_cons.2 ⟨Instr.goesOn_choice greedy _ _, List.forall_mem_append.2
        ⟨ih (base + 1), List.forall_mem_singleton.2 (hnext fun _ => rfl)⟩⟩
    | zeroOrOne =>
      rw [code]
      exact List.forall_mem_cons.2 ⟨Instr.goesOn_choice greedy _ _, ih (base + 1)⟩
  | group index nonempty proper ih =>
    cases index with
    | none =>
      rw [code]
      exact goesOn_choiceCode ih base
    | some index =>
      rw [code]
      exact List.forall_mem_cons.2 ⟨hnext fun _ => rfl, List.forall_mem_append.2
        ⟨goesOn_choiceCode ih (base + 1), List.forall_mem_singleton.2 (hnext fun _ => rfl)⟩⟩

end Node

/-- A program has a slot for whatever it notes. -/
theorem notesBelow_slotsFor {program : List Instr} {instr : Instr} (h : instr ∈ program) :
    instr.NotesBelow (Regex.slotsFor program) := by
  cases instr with
  | save slot =>
    show slot < Regex.slotsFor program
    unfold Regex.slotsFor
    generalize hhighest : program.foldl _ 1 = highest
    have hle := (foldl_highest_le_iff.1 (Nat.le_of_eq hhighest)).2 slot h
    dsimp only
    omega
  | _ => trivial

/-- Code that goes on within itself or right after itself is closed by an acceptance at its end. -/
theorem closedProgram_concat {code : List Instr}
    (hwithin : Node.Within 0 code.length 0 code) (hgoesOn : ∀ instr ∈ code, instr.GoesOn) :
    ClosedProgram (code ++ [.accept]) (Regex.slotsFor (code ++ [.accept])) := by
  have hlength : (code ++ [Instr.accept]).length = code.length + 1 := List.length_append
  have hcases : ∀ {address : Nat} {instr : Instr}, (code ++ [.accept])[address]? = some instr →
      code[address]? = some instr ∨ address = code.length ∧ instr = .accept := by
    intro address instr hinstr
    rw [List.getElem?_append] at hinstr
    split at hinstr
    · exact .inl hinstr
    · next hout =>
      obtain ⟨hlt, hget⟩ := List.getElem?_eq_some_iff.1 hinstr
      rw [List.length_singleton] at hlt
      refine .inr ⟨by omega, ?_⟩
      rw [← hget, List.getElem_singleton]
  refine ⟨List.getLast?_concat, fun address hinstr => ?_, fun address instr hinstr next hnext => ?_,
    fun address instr hinstr hne => ?_, fun instr hmem => notesBelow_slotsFor hmem⟩
  · rcases hcases hinstr with hcode | ⟨rfl, _⟩
    · exact absurd rfl (hgoesOn _ (List.mem_of_getElem? hcode) address)
    · exact hlength.symm
  · rcases hcases hinstr with hcode | ⟨_, rfl⟩
    · have hhere := hwithin address instr hcode next
      rw [Nat.zero_add] at hhere
      rw [hlength]
      exact Nat.lt_succ_of_le (hhere hnext).2
    · cases hnext
  · rcases hcases hinstr with hcode | ⟨_, rfl⟩
    · exact hgoesOn _ (List.mem_of_getElem? hcode) address
    · exact absurd rfl hne

/-- **The program of a tree is closed**, with or without the loop that searches. -/
theorem closedProgram_programOf {node : Node} (h : node.IsProper) (search backward : Bool) :
    ClosedProgram (Regex.programOf node search backward)
      (Regex.slotsFor (Regex.programOf node search backward)) := by
  have hnode := h.staysWithin backward
  cases search with
  | false =>
    have hcode := hnode 0
    rw [Nat.zero_add] at hcode
    exact closedProgram_concat hcode (h.goesOn 0)
  | true =>
    have hlead : Node.IsProper Regex.searchLoop := .loop .zeroOrMore false (.oneOf .any)
    have hwithin := (hlead.staysWithin backward) 0
    have hbehind := hnode (Regex.searchLoop.code backward 0).length
    rw [Nat.zero_add] at hwithin
    refine closedProgram_concat (Node.within_append ?_ ?_)
      (List.forall_mem_append.2 ⟨hlead.goesOn 0, h.goesOn _⟩)
    · exact hwithin.mono (Nat.le_refl _) (by rw [List.length_append]; exact Nat.le_add_right _ _)
    · rw [Nat.zero_add]
      exact hbehind.mono (Nat.zero_le _) (Nat.le_of_eq List.length_append.symm)

end Emend
