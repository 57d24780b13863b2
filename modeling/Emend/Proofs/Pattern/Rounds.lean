import Emend.Proofs.Pattern.Parts

/-!
# Repetitions as parts of a program

The code of a repetition is a part of a program for the ways of its rounds, if the code of the
repeated node is a part for the ways of one round (`Part.optional`, `Part.star`, `Part.plus`).

For `*` the threads that have passed a round come back to the choice with the marks of that round.
Such a mark bars a later round at the same place only if the round comes to it without taking a
character; then the repeated node can be passed without one, so it has to be a node from whose marks
nothing more is found (`hrejoins` of `Part.star`). A round that takes no character comes back to the
marked choice and ends there, as it should. After a round of `+` another one would be begun at once,
so there every round has to take a character.
-/

namespace Emend

namespace Machine

variable {program : Array Instr} {text : Source}
  {base body again fin exit position stop pc : Nat} {slots noted : Slots}
  {barred after : Set Nat} {greedy nullable : Bool} {last : Bool → Bool}
  {ways : Way → List Way} {K : Way → Option Slots}

/-! ## At most one round -/

/-- The code of a repetition that begins with a choice goes on within itself. -/
theorem encloses_choice (hchoice : program[base]? = some (.choice greedy body exit))
    (hbody : body = base + 1) (hbegins : body < fin ∨ body = exit)
    (hencloses : ∀ (pc : Nat) (instr : Instr), body ≤ pc → pc < fin → program[pc]? = some instr →
      ∀ next ∈ instr.successors pc, base ≤ next ∧ next < fin ∨ next = exit) :
    Encloses program base fin exit := by
  intro pc instr hlow hhigh hinstr next hnext
  rcases Nat.eq_or_lt_of_le hlow with rfl | hlt
  · rw [hchoice] at hinstr
    cases hinstr
    rcases mem_successors_choice.1 hnext with rfl | rfl
    · rcases hbegins with hlt | heq
      · exact .inl ⟨by omega, hlt⟩
      · exact .inr heq
    · exact .inr rfl
  · exact hencloses pc instr (by omega) hhigh hinstr next hnext

/-- **A repetition of at most one round.** -/
theorem Part.optional (h : Part program text nullable last body exit exit ways)
    (hchoice : program[base]? = some (.choice greedy body exit)) (hbody : body = base + 1) :
    Part program text true (fun moved => (greedy || moved) && last moved) base exit exit
      fun way => Way.order greedy (ways way) way := by
  have hle := h.base_le
  have hin : body < exit ∨ body = exit := h.begins.imp id fun ⟨heq, _⟩ => heq
  have hencloses : Encloses program base exit exit :=
    encloses_choice hchoice hbody hin fun pc instr hlow hhigh hinstr next hnext =>
      (h.encloses pc instr hlow hhigh hinstr next hnext).imp
        (fun ⟨hlow', hhigh'⟩ => ⟨by omega, hhigh'⟩) id
  have hflows : Flows program base exit :=
    .step hchoice rfl (mem_successors_choice.2 (.inr rfl)) .refl
  refine ⟨Nat.le_refl _, .inl (by omega), hencloses, fun _ => rfl, ?_⟩
  intro position barred slots K hposition hbarred hexit
  have hfree : base ∉ barred := fun hmem => hbarred base hmem ⟨Nat.le_refl _, by omega⟩
  rw [tryAt_choice hchoice hfree, findSome?_order]
  apply prefer_congr
  · refine h.tries hposition (not_barred_behind hbarred (by omega) (Nat.le_refl _))
      fun stop noted after hleaving => hexit stop noted after ?_
    refine hleaving.enter (by omega) (by omega) (Nat.le_refl _)
      (fun moved hlast => (Bool.and_eq_true_iff.1 hlast).2)
      (.step hchoice rfl (mem_successors_choice.2 (.inl rfl)) .refl) fun _ _ hspent => ?_
    refine spent_of_successors hchoice rfl fun next hnext => ?_
    rcases mem_successors_choice.1 hnext with rfl | rfl
    · exact hspent
    · exact spent_exit next
  · intro hnone
    refine hexit position slots _ (leaving_base (by omega) hflows fun hlast => ?_)
    have hgreedy : greedy = true := by simpa using (Bool.and_eq_true_iff.1 hlast).1
    exact spent_choice hchoice hencloses (by omega) hin hbarred (not_finds_of_none (hnone hgreedy))

/-! ## Any number of rounds -/

/-- At every place behind `position` a thread that leaves a piece of code comes to what `K` says. -/
def LeavesTo (program : Array Instr) (text : Source) (flag : Bool) (base exit position : Nat)
    (K : Way → Option Slots) : Prop :=
  ∀ (stop : Nat) (noted : Slots) (after : Set Nat), position < stop → stop ≤ text.size →
    (∀ pc ∈ after, Passed program text flag base exit exit stop pc) →
    tryAt program text stop after exit noted = K ⟨stop, noted.toList⟩

/-- What holds of a piece left from a place on holds of it from a later place on. -/
theorem LeavesTo.mono {flag : Bool} (h : LeavesTo program text flag base exit position K)
    (hle : position ≤ stop) : LeavesTo program text flag base exit stop K :=
  fun _ _ _ hmoved => h _ _ _ (Nat.lt_of_le_of_lt hle hmoved)

/-- How the code of a repetition of any number of rounds is laid out around that of one round. -/
structure StarAt (program : Array Instr) (greedy : Bool) (base body again exit : Nat) : Prop where
  /-- It begins with a choice. -/
  choice : program[base]? = some (.choice greedy body exit)
  /-- After a round it begins again. -/
  back : program[again]? = some (.jump base)
  /-- The round stands behind the choice. -/
  body : body = base + 1
  /-- The exit stands behind the jump. -/
  exit : exit = again + 1

section Star

variable (hstar : StarAt program greedy base body again exit)

include hstar

/-- From the base of a repetition a thread comes to its exit. -/
theorem StarAt.flows_base : Flows program base exit :=
  .step hstar.choice rfl (mem_successors_choice.2 (.inr rfl)) .refl

/-- From the end of a round it comes back to the base. -/
theorem StarAt.flows_again : Flows program again base :=
  .step hstar.back rfl (List.mem_singleton_self _) .refl

/-- Behind a round nothing is found past a base that is barred. -/
theorem StarAt.not_finds_again (hbase : base ∈ barred) :
    ¬ Finds program text position barred again := by
  refine not_finds_of_stays hstar.back rfl fun next hnext hfinds => ?_
  rw [List.mem_singleton.1 hnext] at hfinds
  exact hfinds.free (.inr hbase)

/-- A thread that has passed a round comes to the choice again. The marks of the round do not matter
to the next one. -/
theorem StarAt.tryAt_again (hle : body ≤ again)
    (hpassed : ∀ pc ∈ after, Passed program text (last true) body again again stop pc)
    (hdead : ∀ pc ∈ after, Flows program body pc → Spent program text again stop pc) :
    tryAt program text stop after again noted =
      prefer greedy (tryAt program text stop (insert base ∅) body noted)
        (tryAt program text stop (insert base (insert again after)) exit noted) := by
  have hagain : again ∉ after := fun hmem => Nat.lt_irrefl _ (hpassed again hmem).high
  have hbody := hstar.body
  have hbase : base ∉ insert again after := by
    rintro (heq | hmem)
    · omega
    · have hlow := (hpassed base hmem).low
      omega
  have honward : onward program text stop ⟨again, noted⟩ = [⟨base, noted⟩] :=
    onward_jump hstar.back
  rw [tryAt_onward hstar.back rfl hagain honward, tryAt_choice hstar.choice hbase]
  refine prefer_congr (attempt_congr (Set.insert_subset_insert (Set.empty_subset _)) ?_)
    fun _ => rfl
  rintro pc (rfl | rfl | hmem) hfree hflows
  · exact absurd (Set.mem_insert _ _) hfree
  · exact hstar.not_finds_again (Set.mem_insert _ _)
  · exact (hdead pc hmem hflows).not_finds (hstar.not_finds_again (Set.mem_insert _ _))

variable (h : Part program text nullable last body again again ways)

include h

/-- A repetition is left by its exit only. -/
theorem StarAt.encloses : Encloses program base exit exit := by
  obtain ⟨hchoice, hback, hbody, hexit⟩ := hstar
  have hle := h.base_le
  refine encloses_choice hchoice hbody (.inl (by omega)) ?_
  intro pc instr hlow hhigh hinstr next hnext
  by_cases hlt : pc < again
  · rcases h.encloses pc instr hlow hlt hinstr next hnext with ⟨hlow', hhigh'⟩ | heq
    · exact .inl ⟨by omega, by omega⟩
    · exact .inl ⟨by omega, by omega⟩
  · have heq : pc = again := by omega
    subst heq
    rw [hback] at hinstr
    cases hinstr
    rw [List.mem_singleton.1 hnext]
    exact .inl ⟨Nat.le_refl _, by omega⟩

/-- When nothing is found behind the choice, it is spent. -/
theorem StarAt.spent (hbarred : ∀ pc ∈ barred, ¬ (base ≤ pc ∧ pc < exit))
    (hnone : tryAt program text position (insert base barred) body slots = none) :
    Spent program text exit position base := by
  have hbody := hstar.body
  have hexit := hstar.exit
  have hle := h.base_le
  exact spent_choice hstar.choice (hstar.encloses h) (by omega) (.inl (by omega)) hbarred
    (not_finds_of_none hnone)

/-- A thread that leaves the repetition after a round. -/
theorem StarAt.tryAt_exit {flag : Bool} (hflag : flag = true → last true = true)
    (hexit : LeavesTo program text flag base exit position K) (hmoved : position < stop)
    (hinside : stop ≤ text.size)
    (hpassed : ∀ pc ∈ after, Passed program text (last true) body again again stop pc)
    (hspent : flag = true → Spent program text exit stop base) :
    tryAt program text stop (insert base (insert again after)) exit noted =
      K ⟨stop, noted.toList⟩ := by
  have hbody := hstar.body
  have hbehind := hstar.exit
  have hle := h.base_le
  have hagain : flag = true → Spent program text exit stop again := by
    intro hlast
    refine spent_of_successors hstar.back rfl fun next hnext => ?_
    rw [List.mem_singleton.1 hnext]
    exact hspent hlast
  have hflows : Flows program again exit := hstar.flows_again.trans hstar.flows_base
  refine hexit stop noted _ hmoved hinside ?_
  rintro pc (rfl | rfl | hmem)
  · exact ⟨Nat.le_refl _, by omega, hstar.flows_base, hspent⟩
  · exact ⟨by omega, by omega, hflows, hagain⟩
  · have happend : Passed program text flag body exit exit stop pc :=
      (hpassed pc hmem).append (by omega) hflows fun hlast => ⟨hflag hlast, hagain hlast⟩
    exact happend.widen (by omega) (Nat.le_refl _) id

/-- **A round and all that follow.** A round has to move on; then the choice is the same again. -/
theorem StarAt.tryAt_body (hrejoins : nullable = false ∨ last true = true)
    (hposition : position ≤ text.size) (hbarred : ∀ pc ∈ barred, ¬ (base ≤ pc ∧ pc < exit))
    (hexit : LeavesTo program text (greedy && last true) base exit position K) :
    tryAt program text position (insert base barred) body slots =
      ((ways ⟨position, slots.toList⟩).flatMap fun next =>
        if position < next.position ∧ next.position ≤ text.size then
          next.rounds text.size greedy ways
        else []).findSome? K := by
  have hbody := hstar.body
  have hbehind := hstar.exit
  have hle := h.base_le
  induction hleft : text.size - position using Nat.strongRecOn
    generalizing position barred slots with
  | ind count ih =>
    rw [findSome?_flatMap]
    refine h.tries hposition (not_barred_behind hbarred (by omega) (by omega))
      fun stop noted after hleaving => ?_
    cases hleaving with
    | here kept flows entered added =>
      -- A round that takes no character comes back to the choice, which is marked.
      rw [if_neg (fun hmoved => Nat.lt_irrefl _ hmoved.1)]
      exact attempt_eq_none_iff.2 (hstar.not_finds_again (kept (Set.mem_insert _ _)))
    | ahead moved inside added =>
      have hdead : ∀ pc ∈ after, Flows program body pc → Spent program text again stop pc := by
        intro pc hpc hflows
        rcases hrejoins with hnot | hlast
        · -- The round could be passed without a character on this way.
          rw [h.flows (hflows.trans (added pc hpc).flows)] at hnot
          cases hnot
        · exact (added pc hpc).spent hlast
      have hnone : ∀ pc ∈ (∅ : Set Nat), ¬ (base ≤ pc ∧ pc < exit) :=
        fun pc hpc => absurd hpc (Set.notMem_empty _)
      rw [if_pos ⟨moved, inside⟩, Way.rounds, findSome?_order, hstar.tryAt_again hle added hdead]
      apply prefer_congr
      · exact ih _ (by omega) inside hnone (hexit.mono (Nat.le_of_lt moved)) rfl
      · intro hgreedy
        refine hstar.tryAt_exit h (fun hlast => (Bool.and_eq_true_iff.1 hlast).2) hexit moved
          inside added fun hlast => ?_
        exact hstar.spent h hnone (hgreedy (Bool.and_eq_true_iff.1 hlast).1)

end Star

/-- **Any number of rounds.** -/
theorem Part.star (h : Part program text nullable last body again again ways)
    (hstar : StarAt program greedy base body again exit)
    (hrejoins : nullable = false ∨ last true = true) :
    Part program text true (fun moved => greedy && (!moved || last true)) base exit exit
      fun way => way.rounds text.size greedy ways := by
  have hle := h.base_le
  have hbody := hstar.body
  have hbehind := hstar.exit
  refine ⟨Nat.le_refl _, .inl (by omega), hstar.encloses h, fun _ => rfl, ?_⟩
  intro position barred slots K hposition hbarred hexit
  have hfree : base ∉ barred := fun hmem => hbarred base hmem ⟨Nat.le_refl _, by omega⟩
  rw [tryAt_choice hstar.choice hfree, Way.rounds, findSome?_order]
  apply prefer_congr
  · exact hstar.tryAt_body h hrejoins hposition hbarred fun stop noted after moved inside added =>
      hexit stop noted after (.ahead moved inside added)
  · intro hnone
    exact hexit position slots _ (leaving_base (by omega) hstar.flows_base fun hlast =>
      hstar.spent h hbarred (hnone (Bool.and_eq_true_iff.1 hlast).1))

/-! ## At least one round -/

/-- How the code of a repetition of at least one round is laid out around that of one round. -/
structure PlusAt (program : Array Instr) (greedy : Bool) (base more exit : Nat) : Prop where
  /-- After a round there is a choice. -/
  choice : program[more]? = some (.choice greedy base exit)
  /-- The exit stands behind it. -/
  exit : exit = more + 1

section Plus

variable {more : Nat} (hplus : PlusAt program greedy base more exit)
  (h : Part program text false last base more more ways)

include hplus h

/-- A repetition with at least one round is left by its exit only. -/
theorem PlusAt.encloses : Encloses program base exit exit := by
  have hexit := hplus.exit
  have hle := h.base_le
  intro pc instr hlow hhigh hinstr next hnext
  by_cases hlt : pc < more
  · rcases h.encloses pc instr hlow hlt hinstr next hnext with ⟨hlow', hhigh'⟩ | heq
    · exact .inl ⟨hlow', by omega⟩
    · exact .inl ⟨by omega, by omega⟩
  · have heq : pc = more := by omega
    subst heq
    rw [hplus.choice] at hinstr
    cases hinstr
    rcases mem_successors_choice.1 hnext with rfl | rfl
    · exact .inl ⟨Nat.le_refl _, by omega⟩
    · exact .inr rfl

/-- A thread that has passed a round begins another or leaves. The marks of the round do not matter
to the next one, which does not come to them. -/
theorem PlusAt.tryAt_more
    (hpassed : ∀ pc ∈ after, Passed program text (last true) base more more stop pc) :
    tryAt program text stop after more noted =
      prefer greedy (tryAt program text stop ∅ base noted)
        (tryAt program text stop (insert more after) exit noted) := by
  have hmore : more ∉ after := fun hmem => Nat.lt_irrefl _ (hpassed more hmem).high
  refine (tryAt_choice hplus.choice hmore noted).trans ?_
  refine prefer_congr (attempt_congr (Set.empty_subset _) ?_) fun _ => rfl
  have hround : ¬ Flows program base more := fun hflows => Bool.false_ne_true (h.flows hflows)
  rintro pc (rfl | hmem) _ hflows
  · exact absurd hflows hround
  · exact absurd (hflows.trans (hpassed pc hmem).flows) hround

/-- A thread that leaves the repetition after a round. -/
theorem PlusAt.tryAt_exit {flag : Bool} (hflag : flag = true → last true = true)
    (hexit : LeavesTo program text flag base exit position K) (hmoved : position < stop)
    (hinside : stop ≤ text.size)
    (hpassed : ∀ pc ∈ after, Passed program text (last true) base more more stop pc)
    (hnone : flag = true → tryAt program text stop ∅ base noted = none) :
    tryAt program text stop (insert more after) exit noted = K ⟨stop, noted.toList⟩ := by
  have hbehind := hplus.exit
  have hle := h.base_le
  have hflows : Flows program more exit :=
    .step hplus.choice rfl (mem_successors_choice.2 (.inr rfl)) .refl
  have hspent : flag = true → Spent program text exit stop more := by
    intro hlast
    refine spent_of_successors hplus.choice rfl fun next hnext => ?_
    rcases mem_successors_choice.1 hnext with rfl | rfl
    · exact fun hfinds => not_finds_of_none (hnone hlast) (hfinds.mono (Set.empty_subset _))
    · exact spent_exit next
  refine hexit stop noted _ hmoved hinside ?_
  rintro pc (rfl | hmem)
  · exact ⟨hle, by omega, hflows, hspent⟩
  · exact (hpassed pc hmem).append (by omega) hflows fun hlast => ⟨hflag hlast, hspent hlast⟩

/-- **A round and all that follow.** -/
theorem PlusAt.tryAt_base (hposition : position ≤ text.size)
    (hbarred : ∀ pc ∈ barred, ¬ (base ≤ pc ∧ pc < exit))
    (hexit : LeavesTo program text (greedy && last true) base exit position K) :
    tryAt program text position barred base slots =
      (Way.roundsFromOne text.size greedy ways ⟨position, slots.toList⟩).findSome? K := by
  have hbehind := hplus.exit
  induction hleft : text.size - position using Nat.strongRecOn
    generalizing position barred slots with
  | ind count ih =>
    rw [Way.roundsFromOne, findSome?_flatMap]
    refine h.tries hposition (fun pc hpc ⟨hlow, hhigh⟩ => hbarred pc hpc ⟨hlow, by omega⟩) ?_
    intro stop noted after hleaving
    cases hleaving with
    | here kept flows entered added => exact absurd (h.flows flows) Bool.false_ne_true
    | ahead moved inside added =>
      have hnone : ∀ pc ∈ (∅ : Set Nat), ¬ (base ≤ pc ∧ pc < exit) :=
        fun pc hpc => absurd hpc (Set.notMem_empty _)
      rw [if_pos ⟨moved, inside⟩, findSome?_order, hplus.tryAt_more h added]
      apply prefer_congr
      · exact ih _ (by omega) inside hnone (hexit.mono (Nat.le_of_lt moved)) rfl
      · intro hgreedy
        exact hplus.tryAt_exit h (fun hlast => (Bool.and_eq_true_iff.1 hlast).2) hexit moved inside
          added fun hlast => hgreedy (Bool.and_eq_true_iff.1 hlast).1

end Plus

/-- **At least one round**, each of which takes a character. -/
theorem Part.plus {more : Nat} (h : Part program text false last base more more ways)
    (hplus : PlusAt program greedy base more exit) :
    Part program text false (fun moved => !moved || greedy && last true) base exit exit
      fun way => way.roundsFromOne text.size greedy ways := by
  have hle := h.base_le
  have hbehind := hplus.exit
  refine ⟨Nat.le_refl _, .inl (by omega), hplus.encloses h, fun hflows => ?_, ?_⟩
  · -- On the way to the exit a round is passed.
    rcases h.begins with hlt | ⟨heq, _⟩
    · exact h.flows (h.encloses.flows (Nat.le_refl _) hlt (by omega) hflows).1
    · exact h.flows (heq ▸ .refl)
  · intro position barred slots K hposition hbarred hexit
    exact hplus.tryAt_base h hposition hbarred fun stop noted after moved inside added =>
      hexit stop noted after (.ahead moved inside added)

end Machine

end Emend
