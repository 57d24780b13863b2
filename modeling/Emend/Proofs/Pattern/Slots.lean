import Emend.Pattern.Regex
import Emend.Proofs.Pattern.Numbers

/-!
# The slots of a program

A program notes places for the groups of its pattern and for nothing else (`IsProper.savesOf`), so
it has two slots for each group (`slotsFor_programOf`).
-/

namespace Emend

namespace Node

variable {backward : Bool} {base exit : Nat} {code rest : List Instr} {numbers more : List Nat}
  {row : List Node} {branches : List (List Node)}

/-- The code notes places for the groups with these numbers, and for no others. -/
def SavesOf (code : List Instr) (numbers : List Nat) : Prop :=
  ∀ slot, Instr.save slot ∈ code ↔ slot / 2 ∈ numbers

/-- No code notes nothing. -/
theorem savesOf_nil : SavesOf [] [] :=
  fun _ => by simp

/-- Two pieces of code note what each of them does. -/
theorem SavesOf.append (h : SavesOf code numbers) (h' : SavesOf rest more) :
    SavesOf (code ++ rest) (numbers ++ more) := by
  intro slot
  rw [List.mem_append, List.mem_append, h slot, h' slot]

/-- An instruction in front that notes nothing changes nothing. -/
theorem SavesOf.cons (h : SavesOf code numbers) {instr : Instr} (hne : ∀ slot, instr ≠ .save slot) :
    SavesOf (instr :: code) numbers := by
  intro slot
  rw [List.mem_cons, h slot]
  exact or_iff_right fun heq => hne slot heq.symm

/-- An instruction behind that notes nothing changes nothing. -/
theorem SavesOf.snoc (h : SavesOf code numbers) {instr : Instr} (hne : ∀ slot, instr ≠ .save slot) :
    SavesOf (code ++ [instr]) numbers := by
  have happend := h.append (savesOf_nil.cons hne)
  rwa [List.append_nil] at happend

/-- Both ends of a group are noted. -/
theorem SavesOf.remembered (h : SavesOf code numbers) (index : Nat) :
    SavesOf (.save (2 * index) :: (code ++ [.save (2 * index + 1)])) (index :: numbers) := by
  intro slot
  rw [List.mem_cons, List.mem_append, List.mem_singleton, List.mem_cons, h slot, Instr.save.injEq,
    Instr.save.injEq]
  constructor
  · rintro (heq | hmem | heq)
    · exact .inl (by omega)
    · exact .inr hmem
    · exact .inl (by omega)
  · rintro (heq | hmem)
    · rcases Nat.mod_two_eq_zero_or_one slot with heven | hodd
      · exact .inl (by omega)
      · exact .inr (.inr (by omega))
    · exact .inr (.inl hmem)

/-- A row notes the groups of its nodes. -/
theorem savesOf_sequenceCode (h : ∀ node ∈ row, ∀ base,
      SavesOf (node.code backward base) node.groupNumbers) (base : Nat) :
    SavesOf (sequenceCode backward base row) (rowNumbers row) := by
  induction row generalizing base with
  | nil =>
    rw [sequenceCode]
    exact savesOf_nil
  | cons node rest ih =>
    have hnode := h node List.mem_cons_self
    have hrest := ih fun other hmem => h other (List.mem_cons_of_mem _ hmem)
    rw [sequenceCode, rowNumbers_cons]
    split
    · intro slot
      rw [List.mem_append, List.mem_append, hrest _ slot, hnode _ slot, or_comm]
    · exact (hnode _).append (hrest _)

/-- The numbers of the first branch come first. -/
@[simp]
theorem branchNumbers_cons (branch : List Node) (rest : List (List Node)) :
    branchNumbers (branch :: rest) = rowNumbers branch ++ branchNumbers rest := by
  rw [← List.singleton_append, branchNumbers_append, branchNumbers_singleton]

/-- Joined branches note the groups of their nodes. -/
theorem savesOf_joinCode (h : ∀ branch ∈ branches, ∀ node ∈ branch, ∀ base,
      SavesOf (node.code backward base) node.groupNumbers) (base : Nat) :
    SavesOf (joinCode exit (branchCodes backward base branches)) (branchNumbers branches) := by
  induction branches generalizing base with
  | nil => exact savesOf_nil
  | cons branch rest ih =>
    have hbranch := savesOf_sequenceCode (h branch List.mem_cons_self)
    have hrest := ih fun other hmem => h other (List.mem_cons_of_mem _ hmem)
    rw [branchCodes_cons, branchNumbers_cons]
    by_cases hnil : rest = []
    · subst hnil
      have happend := (hbranch base).append savesOf_nil
      rwa [List.append_nil] at happend
    · rw [joinCode_cons _ (branchCodes_ne_nil hnil)]
      exact (hbranch _).append ((hrest _).cons (by simp))

/-- A choice between branches notes the groups of their nodes. -/
theorem savesOf_choiceCode (h : ∀ branch ∈ branches, ∀ node ∈ branch, ∀ base,
      SavesOf (node.code backward base) node.groupNumbers) (base : Nat) :
    SavesOf (choiceCode backward base branches) (branchNumbers branches) := by
  match branches with
  | [] =>
    rw [choiceCode]
    exact savesOf_nil
  | [branch] =>
    rw [choiceCode, branchNumbers_singleton]
    exact savesOf_sequenceCode (h branch List.mem_cons_self) base
  | branch :: second :: rest =>
    obtain ⟨pieces, exit, rfl, hcode, _⟩ := choiceCode_several backward base branch second rest
    rw [hcode]
    exact (savesOf_joinCode h (base + 1)).cons (by simp)

/-- **The code of a node notes places for the groups of the node.** -/
theorem IsProper.savesOf {node : Node} (h : node.IsProper) (base : Nat) :
    SavesOf (node.code backward base) node.groupNumbers := by
  induction h generalizing base with
  | char c => exact savesOf_nil.cons (by simp)
  | oneOf set => exact savesOf_nil.cons (by simp)
  | assert assertion => exact savesOf_nil.cons (by simp)
  | loop kind greedy proper ih =>
    cases kind with
    | oneOrMore =>
      rw [Node.code]
      exact (ih base).snoc (by simp [Instr.choice])
    | zeroOrMore =>
      rw [Node.code]
      exact ((ih (base + 1)).snoc (by simp)).cons (by simp [Instr.choice])
    | zeroOrOne =>
      rw [Node.code]
      exact (ih (base + 1)).cons (by simp [Instr.choice])
  | group index nonempty proper ih =>
    rw [groupNumbers_group]
    cases index with
    | none =>
      rw [Node.code]
      exact savesOf_choiceCode ih base
    | some index =>
      rw [Node.code]
      exact (savesOf_choiceCode ih (base + 1)).remembered index

end Node

/-- The highest slot that is noted, or `least` if that is higher. -/
theorem foldl_highest_le_iff {program : List Instr} {least highest : Nat} :
    program.foldl (fun highest instr =>
        match instr with
        | .save slot => max highest slot
        | _ => highest) least ≤ highest ↔
      least ≤ highest ∧ ∀ slot, Instr.save slot ∈ program → slot ≤ highest := by
  induction program generalizing least with
  | nil => simp
  | cons instr rest ih =>
    rw [List.foldl_cons, ih]
    cases instr with
    | save slot =>
      rw [Nat.max_le, and_assoc]
      refine and_congr_right fun _ => ⟨fun ⟨hslot, hrest⟩ other hmem => ?_, fun h => ?_⟩
      · rcases List.mem_cons.1 hmem with heq | hmem
        · exact Instr.save.inj heq ▸ hslot
        · exact hrest other hmem
      · exact ⟨h slot List.mem_cons_self, fun other hmem => h other (List.mem_cons_of_mem _ hmem)⟩
    | _ => simp

/-- A program that notes places for so many groups has two slots for each. -/
theorem slotsFor_eq {program : List Instr} {count : Nat} (hpos : 0 < count)
    (h : ∀ slot, Instr.save slot ∈ program ↔ slot / 2 < count) :
    Regex.slotsFor program = 2 * count := by
  unfold Regex.slotsFor
  generalize hhighest : program.foldl _ 1 = highest
  have hle : highest ≤ 2 * count - 1 := by
    rw [← hhighest]
    refine foldl_highest_le_iff.2 ⟨by omega, fun slot hslot => ?_⟩
    have hlt := (h slot).1 hslot
    omega
  have hge : 2 * count - 1 ≤ highest :=
    (foldl_highest_le_iff.1 (Nat.le_of_eq hhighest)).2 _ ((h _).2 (by omega))
  dsimp only
  omega

/-- The loop that searches and the end of the match note nothing. -/
theorem Node.IsProper.savesOf_programOf {node : Node} (h : node.IsProper)
    (search backward : Bool) :
    Node.SavesOf (Regex.programOf node search backward) node.groupNumbers := by
  have hlead : Node.SavesOf (if search then Regex.searchLoop.code backward 0 else []) [] := by
    cases search with
    | true => exact Node.IsProper.savesOf (.loop .zeroOrMore false (.oneOf .any)) 0
    | false => exact Node.savesOf_nil
  exact (hlead.append (h.savesOf _)).snoc (by simp)

/-- **A program has two slots for each group of its pattern.** -/
theorem slotsFor_programOf {pattern : String} {node : Node} (hparse : Pattern.parse pattern = .ok node)
    (search backward : Bool) :
    Regex.slotsFor (Regex.programOf node search backward) = 2 * node.groupNumbers.length := by
  obtain ⟨hproper, ⟨branches, rfl⟩, count, hcount⟩ := Pattern.groupNumbers_parse hparse
  have hpos : 0 < count := by
    rw [Node.groupNumbers_group] at hcount
    cases count with
    | zero => cases hcount
    | succ count => exact Nat.zero_lt_succ count
  have hsaves := hproper.savesOf_programOf search backward
  rw [hcount] at hsaves ⊢
  rw [List.length_range]
  refine slotsFor_eq hpos fun slot => ?_
  rw [hsaves slot, List.mem_range]

end Emend
