import Emend.Pattern.Preference
import Emend.Proofs.Pattern.Attempt
import Mathlib.Data.List.Forall2

/-!
# The order in which code is tried

A piece of code that begins at `base` and is left at `exit` is a part of a program for a list of
ways if a thread at its base tries these ways, in their order, as far as they go on behind the exit
(`Part`). Parts are put together as code is: in a row, as branches, and as repetitions.

What makes this hard is that a thread leaves marks behind in a part, which bar these addresses to it
when it comes back at the same place. A part therefore says which marks a thread may have left when
it leaves it (`Leaving`), and of some parts, that nothing more is found from the marked addresses in
the part (`Spent`). A round of a repetition comes upon the marks of the round before. They do not
matter if nothing is found from them, or if a round takes a character and does not come to them.
-/

namespace Emend

namespace Machine

variable {program : Array Instr} {text : Source}
  {base middle fin exit position stop pc : Nat} {instr : Instr} {slots : Slots}
  {barred barred' after : Set Nat} {greedy nullable : Bool} {last : Bool → Bool}
  {ways : Way → List Way} {K : Way → Option Slots}

/-! ## Trying on the way to the end of the text -/

/-- What a thread comes to at an address, on the way to the end of the text. -/
noncomputable def tryAt (program : Array Instr) (text : Source) (position : Nat)
    (barred : Set Nat) (pc : Nat) (slots : Slots) : Option Slots :=
  attempt program text .forward text.size position barred ⟨pc, slots⟩

/-- Something is found from the address. -/
abbrev Finds (program : Array Instr) (text : Source) (position : Nat) (barred : Set Nat)
    (pc : Nat) : Prop :=
  LiveWithout program text .forward text.size position barred pc

/-- Nothing is found from the address but by way of the exit. -/
def Spent (program : Array Instr) (text : Source) (exit position pc : Nat) : Prop :=
  ¬ Finds program text position {exit} pc

/-- What is tried in vain cannot be found. -/
theorem not_finds_of_none (h : tryAt program text position barred pc slots = none) :
    ¬ Finds program text position barred pc :=
  attempt_eq_none_iff.1 h

/-- A thread that can go on in one way only. -/
theorem tryAt_onward {next : Nat} {noted : Slots} (hinstr : program[pc]? = some instr)
    (hstays : instr.isStop = false) (hfree : pc ∉ barred)
    (honward : onward program text position ⟨pc, slots⟩ = [⟨next, noted⟩]) :
    tryAt program text position barred pc slots =
      tryAt program text position (insert pc barred) next noted := by
  rw [tryAt, attempt_onward hinstr hstays hfree, honward, List.findSome?_singleton]
  rfl

/-- Nothing is found from an address if nothing is found from those that follow. -/
theorem not_finds_of_stays (hinstr : program[pc]? = some instr) (hstays : instr.isStop = false)
    (h : ∀ next ∈ instr.successors pc, ¬ Finds program text position (insert pc barred) next) :
    ¬ Finds program text position barred pc := by
  intro hfinds
  rcases hfinds.leadsOn with ⟨hstop, _⟩ | ⟨thread, rfl, next, hnext, hafter⟩
  · rw [hinstr, Option.any_some, hstays] at hstop
    cases hstop
  · obtain ⟨other, hother, hsuccessor⟩ := pc_mem_successors hnext
    rw [hinstr] at hother
    cases hother
    exact h _ hsuccessor hafter

/-- If nothing is found but by way of an address, and nothing from there, nothing is found. -/
theorem Spent.not_finds (h : Spent program text middle position pc)
    (hmiddle : ¬ Finds program text position barred middle) :
    ¬ Finds program text position barred pc := by
  intro hfinds
  have hdead : ∀ other ∈ ({middle} : Set Nat), ¬ Finds program text position barred other := by
    rintro other rfl
    exact hmiddle
  exact h ((hfinds.bar hdead).mono Set.subset_union_right)

/-- What is spent but for an address that is itself spent is spent. -/
theorem Spent.trans (h : Spent program text middle position pc)
    (h' : Spent program text exit position middle) : Spent program text exit position pc :=
  h.not_finds h'

/-- From the exit nothing is found but by way of it. -/
theorem spent_exit (exit : Nat) : Spent program text exit position exit :=
  fun h => h.free rfl

/-- What comes only to the exit finds nothing but by way of it. -/
theorem spent_of_successors (hinstr : program[pc]? = some instr) (hstays : instr.isStop = false)
    (h : ∀ next ∈ instr.successors pc, Spent program text exit position next) :
    Spent program text exit position pc :=
  not_finds_of_stays hinstr hstays fun next hnext hfinds =>
    h next hnext (hfinds.mono (Set.subset_insert _ _))

/-! ## Pieces of code -/

/-- What lies between two addresses goes on between them or at the exit. -/
def Encloses (program : Array Instr) (base fin exit : Nat) : Prop :=
  ∀ (pc : Nat) (instr : Instr), base ≤ pc → pc < fin → program[pc]? = some instr →
    ∀ next ∈ instr.successors pc, base ≤ next ∧ next < fin ∨ next = exit

/-- What is found without leaving a piece of code does not depend on marks outside of it. -/
theorem Encloses.finds (h : Encloses program base fin exit) (hlow : base ≤ pc) (hhigh : pc < fin)
    (hexit : exit ∈ barred)
    (hsame : ∀ other ∈ barred', base ≤ other → other < fin → other ∈ barred)
    (hfinds : Finds program text position barred pc) :
    Finds program text position barred' pc := by
  induction hfinds with
  | wait free waits live => exact .wait (fun hmem => free (hsame _ hmem hlow hhigh)) waits live
  | stay free goes rest ih =>
    refine .stay (fun hmem => free (hsame _ hmem hlow hhigh)) goes ?_
    obtain ⟨instr, hinstr, hsuccessor⟩ := pc_mem_successors goes
    rcases h _ _ hlow hhigh hinstr _ hsuccessor with ⟨hlow', hhigh'⟩ | heq
    · exact ih hlow' hhigh'
    · -- The exit is barred.
      exact absurd (heq ▸ hexit) rest.free

/-- What comes out of a piece of code comes by its exit. -/
theorem Encloses.flows {other : Nat} (h : Encloses program base fin exit) (hlow : base ≤ pc)
    (hhigh : pc < fin) (hother : ¬ (base ≤ other ∧ other < fin)) (hflows : Flows program pc other) :
    Flows program pc exit ∧ Flows program exit other := by
  induction hflows with
  | refl => exact absurd ⟨hlow, hhigh⟩ hother
  | step here stays goes rest ih =>
    rcases h _ _ hlow hhigh here _ goes with ⟨hlow', hhigh'⟩ | heq
    · obtain ⟨hout, hfrom⟩ := ih hlow' hhigh' hother
      exact ⟨.step here stays goes hout, hfrom⟩
    · rw [← heq]
      exact ⟨.step here stays goes .refl, rest⟩

/-- An address in a piece of code through which a thread has come to its exit at this place. -/
structure Passed (program : Array Instr) (text : Source) (last : Bool) (base fin exit position : Nat)
    (pc : Nat) : Prop where
  /-- It lies in the piece. -/
  low : base ≤ pc
  /-- It lies in the piece. -/
  high : pc < fin
  /-- It leads to the exit. -/
  flows : Flows program pc exit
  /-- If the piece is left last, nothing else is found from the address. -/
  spent : last = true → Spent program text exit position pc

/-- The place where a thread leaves a piece of code and what is barred to it then, if it has come
from the base at `position` with other addresses barred. -/
inductive Leaving (program : Array Instr) (text : Source) (last : Bool → Bool)
    (base fin exit : Nat) (barred : Set Nat) (position : Nat) : Nat → Set Nat → Prop where
  /-- Without taking a character: what was barred before still is. -/
  | here {after : Set Nat} (kept : barred ⊆ after) (flows : Flows program base exit)
    (entered : last false = true → Spent program text exit position base)
    (added : ∀ pc ∈ after, pc ∈ barred ∨
      Passed program text (last false) base fin exit position pc) :
    Leaving program text last base fin exit barred position position after
  /-- At a later place. -/
  | ahead {stop : Nat} {after : Set Nat} (moved : position < stop) (inside : stop ≤ text.size)
    (added : ∀ pc ∈ after, Passed program text (last true) base fin exit stop pc) :
    Leaving program text last base fin exit barred position stop after

/-- An address of a piece of code is one of a larger piece with the same exit. -/
theorem Passed.widen {flag flag' : Bool} {base' fin' : Nat}
    (h : Passed program text flag base' fin' exit position pc) (hbase : base ≤ base')
    (hfin : fin' ≤ fin) (hflag : flag' = true → flag = true) :
    Passed program text flag' base fin exit position pc :=
  ⟨Nat.le_trans hbase h.low, Nat.lt_of_lt_of_le h.high hfin, h.flows,
    fun hlast => h.spent (hflag hlast)⟩

/-- Where a thread leaves a piece of code, at most the addresses barred before and those of the
piece are barred. -/
theorem Leaving.mem (h : Leaving program text last base fin exit barred position stop after)
    (hpc : pc ∈ after) : pc ∈ barred ∨ base ≤ pc ∧ pc < fin := by
  cases h with
  | here kept flows entered added =>
    exact (added pc hpc).imp id fun hpassed => ⟨hpassed.low, hpassed.high⟩
  | ahead moved inside added => exact .inr ⟨(added pc hpc).low, (added pc hpc).high⟩

/-- A piece of code is left within the text. -/
theorem Leaving.le_size (h : Leaving program text last base fin exit barred position stop after)
    (hposition : position ≤ text.size) : stop ≤ text.size := by
  cases h with
  | here => exact hposition
  | ahead _ inside _ => exact inside

/-- A thread that leaves a piece of code to which its base leads. -/
theorem Leaving.enter {last' : Bool → Bool} {start fin' : Nat}
    (h : Leaving program text last start fin' exit (insert base barred) position stop after)
    (hstart : base < start) (hbase : base < fin) (hfin : fin' ≤ fin)
    (hlast : ∀ moved, last' moved = true → last moved = true) (hflows : Flows program base start)
    (hspent : last' false = true → Flows program start exit →
      Spent program text exit position start → Spent program text exit position base) :
    Leaving program text last' base fin exit barred position stop after := by
  have hwiden : ∀ {moved place pc}, Passed program text (last moved) start fin' exit place pc →
      Passed program text (last' moved) base fin exit place pc :=
    fun hpassed => hpassed.widen (Nat.le_of_lt hstart) hfin (hlast _)
  cases h with
  | ahead moved inside added => exact .ahead moved inside fun pc hpc => hwiden (added pc hpc)
  | here kept flows entered added =>
    have hentered : last' false = true → Spent program text exit position base :=
      fun h => hspent h flows (entered (hlast _ h))
    have hexit := hflows.trans flows
    refine .here ((Set.subset_insert _ _).trans kept) hexit hentered fun pc hpc => ?_
    rcases added pc hpc with (rfl | hmem) | hpassed
    · exact .inr ⟨Nat.le_refl _, hbase, hexit, hentered⟩
    · exact .inl hmem
    · exact .inr (hwiden hpassed)

/-- A thread that leaves a piece of code from its base. -/
theorem leaving_base (hbase : base < fin) (hflows : Flows program base exit)
    (hspent : last false = true → Spent program text exit position base) :
    Leaving program text last base fin exit barred position position (insert base barred) := by
  refine .here (Set.subset_insert _ _) hflows hspent ?_
  rintro pc (rfl | hmem)
  · exact .inr ⟨Nat.le_refl _, hbase, hflows, hspent⟩
  · exact .inl hmem

/-- A piece of code that is entered at `base` and left at `exit`, and by which a thread tries some
ways one after the other. -/
structure Part (program : Array Instr) (text : Source) (nullable : Bool) (last : Bool → Bool)
    (base fin exit : Nat) (ways : Way → List Way) : Prop where
  /-- The exit lies behind the piece. -/
  le : fin ≤ exit
  /-- The base lies in it, unless there is nothing in it. -/
  begins : base < fin ∨ base = fin ∧ fin = exit
  /-- It is left by the exit only. -/
  encloses : Encloses program base fin exit
  /-- It can be passed without taking a character only if that is said of it. -/
  flows : Flows program base exit → nullable = true
  /-- What a thread comes to that tries the piece is what it comes to behind the exit, on the first
  way on which it comes to anything. -/
  tries : ∀ {position : Nat} {barred : Set Nat} {slots : Slots} {K : Way → Option Slots},
    position ≤ text.size → (∀ pc ∈ barred, ¬ (base ≤ pc ∧ pc < fin)) →
    (∀ stop noted after, Leaving program text last base fin exit barred position stop after →
      tryAt program text stop after exit noted = K ⟨stop, noted.toList⟩) →
    tryAt program text position barred base slots =
      (ways ⟨position, slots.toList⟩).findSome? K

/-- What is not barred in a piece is not barred behind its first instruction once this is. -/
theorem not_barred_behind {start fin' : Nat} (hbarred : ∀ pc ∈ barred, ¬ (base ≤ pc ∧ pc < fin))
    (hstart : base < start) (hfin : fin' ≤ fin) :
    ∀ pc ∈ insert base barred, ¬ (start ≤ pc ∧ pc < fin') := by
  rintro pc (rfl | hpc) ⟨hlow, hhigh⟩
  · exact Nat.not_lt.2 hlow hstart
  · exact hbarred pc hpc
      ⟨Nat.le_of_lt (Nat.lt_of_lt_of_le hstart hlow), Nat.lt_of_lt_of_le hhigh hfin⟩

/-- A part does not end before its base. -/
theorem Part.base_le (h : Part program text nullable last base fin exit ways) : base ≤ fin := by
  rcases h.begins with hlt | ⟨heq, _⟩
  · exact Nat.le_of_lt hlt
  · exact Nat.le_of_eq heq

/-- A part of which less is said. -/
theorem Part.mono {nullable' : Bool} {last' : Bool → Bool}
    (h : Part program text nullable last base fin exit ways)
    (hnullable : nullable = true → nullable' = true)
    (hlast : ∀ moved, last' moved = true → last moved = true) :
    Part program text nullable' last' base fin exit ways := by
  refine ⟨h.le, h.begins, h.encloses, fun hflows => hnullable (h.flows hflows), ?_⟩
  intro position barred slots K hposition hbarred hexit
  refine h.tries hposition hbarred fun stop noted after hleaving => hexit stop noted after ?_
  have hpassed : ∀ {moved place pc}, Passed program text (last moved) base fin exit place pc →
      Passed program text (last' moved) base fin exit place pc :=
    fun hpassed => ⟨hpassed.low, hpassed.high, hpassed.flows,
      fun hmoved => hpassed.spent (hlast _ hmoved)⟩
  cases hleaving with
  | here kept flows entered added =>
    exact .here kept flows (fun hmoved => entered (hlast _ hmoved))
      fun pc hpc => (added pc hpc).imp id hpassed
  | ahead moved inside added => exact .ahead moved inside fun pc hpc => hpassed (added pc hpc)

/-! ## Single instructions -/

/-- No code at all. -/
theorem part_empty (base : Nat) :
    Part program text true (fun _ => true) base base base fun way => [way] := by
  refine ⟨Nat.le_refl _, .inr ⟨rfl, rfl⟩, ?_, fun _ => rfl, ?_⟩
  · intro pc instr hlow hhigh
    exact absurd hhigh (Nat.not_lt.2 hlow)
  · intro position barred slots K hposition hbarred hexit
    rw [List.findSome?_singleton]
    exact hexit position slots barred
      (.here (Set.Subset.refl _) .refl (fun _ => spent_exit base) fun pc hpc => .inl hpc)

/-- A single instruction is left to its successor. -/
theorem encloses_single (hinstr : program[base]? = some instr)
    (hsuccessors : instr.successors base = [exit]) : Encloses program base (base + 1) exit := by
  intro pc other hlow hhigh hother next hnext
  have heq : pc = base := Nat.le_antisymm (Nat.le_of_lt_succ hhigh) hlow
  subst heq
  rw [hinstr] at hother
  cases hother
  rw [hsuccessors] at hnext
  exact .inr (List.mem_singleton.1 hnext)

/-- An instruction that takes a character. -/
theorem part_take (hinstr : program[base]? = some instr) (hstop : instr.isStop = true)
    (hne : instr ≠ .accept) :
    Part program text false (fun _ => true) base (base + 1) (base + 1) fun way =>
      if (text.charAt? way.position).any instr.takes then
        [{ way with position := way.position + 1 }]
      else [] := by
  have hsuccessors : instr.successors base = [base + 1] := by
    cases instr <;> first | exact absurd rfl hne | rfl | cases hstop
  refine ⟨Nat.le_refl _, .inl (Nat.lt_succ_self _), encloses_single hinstr hsuccessors, ?_, ?_⟩
  · -- The flow ends where a character is taken.
    intro hflows
    cases hflows with
    | step here stays _ _ =>
      rw [hinstr] at here
      cases here
      rw [hstop] at stays
      cases stays
  · intro position barred slots K hposition hbarred hexit
    have hfree : base ∉ barred := fun hmem =>
      hbarred base hmem ⟨Nat.le_refl _, Nat.lt_succ_self _⟩
    rw [tryAt, attempt_take hinstr hstop hne hfree]
    dsimp only
    by_cases hend : position = text.size
    · have hnone : text.charAt? position = none := if_neg (Nat.not_lt.2 (Nat.le_of_eq hend.symm))
      rw [if_pos hend, hnone]
      rfl
    · have hsome : text.charAt? position = some (text.get position) :=
        if_pos (Nat.lt_of_le_of_ne hposition hend)
      have hnext : text.next? .forward position = some (text.get position) := hsome
      rw [if_neg hend, hnext, hsome, Option.any_some]
      dsimp only
      split
      · rw [List.findSome?_singleton]
        exact hexit (position + 1) slots ∅ (.ahead (Nat.lt_succ_self _)
          (Nat.lt_of_le_of_ne hposition hend) fun pc hpc => absurd hpc (Set.notMem_empty _))
      · rfl

/-- An instruction that takes no character and has one successor. -/
theorem part_stay (hinstr : program[base]? = some instr) (hstays : instr.isStop = false)
    (hsuccessors : instr.successors base = [exit]) (hlt : base < exit)
    (hways : ∀ position slots, onward program text position ⟨base, slots⟩ = [] ∧
        ways ⟨position, slots.toList⟩ = [] ∨
      ∃ noted, onward program text position ⟨base, slots⟩ = [⟨exit, noted⟩] ∧
        ways ⟨position, slots.toList⟩ = [⟨position, noted.toList⟩]) :
    Part program text true (fun _ => true) base (base + 1) exit ways := by
  have hgoes : exit ∈ instr.successors base := by
    rw [hsuccessors]
    exact List.mem_singleton_self _
  refine ⟨hlt, .inl (Nat.lt_succ_self _), encloses_single hinstr hsuccessors, fun _ => rfl, ?_⟩
  intro position barred slots K hposition hbarred hexit
  have hfree : base ∉ barred := fun hmem =>
    hbarred base hmem ⟨Nat.le_refl _, Nat.lt_succ_self _⟩
  have hflows : Flows program base exit := .step hinstr hstays hgoes .refl
  have hspent : Spent program text exit position base := by
    refine spent_of_successors hinstr hstays fun next hnext => ?_
    rw [hsuccessors] at hnext
    rw [List.mem_singleton.1 hnext]
    exact spent_exit exit
  rcases hways position slots with ⟨honward, hnone⟩ | ⟨noted, honward, hone⟩
  · rw [tryAt, attempt_onward hinstr hstays hfree, honward, hnone]
    rfl
  · rw [tryAt_onward hinstr hstays hfree honward, hone, List.findSome?_singleton]
    exact hexit position noted (insert base barred)
      (leaving_base (Nat.lt_succ_self _) hflows fun _ => hspent)

/-- An instruction that takes no character, with a part behind it. -/
theorem Part.enter {start : Nat} {ways' : Way → List Way}
    (h : Part program text nullable last start fin exit ways)
    (hinstr : program[base]? = some instr) (hstays : instr.isStop = false)
    (hsuccessors : instr.successors base = [start]) (hstart : start = base + 1)
    (hways : ∀ position slots, ∃ noted,
      onward program text position ⟨base, slots⟩ = [⟨start, noted⟩] ∧
        ways' ⟨position, slots.toList⟩ = ways ⟨position, noted.toList⟩) :
    Part program text nullable last base fin exit ways' := by
  have hle : start ≤ fin := h.base_le
  have hgoes : start ∈ instr.successors base := by
    rw [hsuccessors]
    exact List.mem_singleton_self _
  refine ⟨h.le, .inl (by omega), ?_, fun hflows => ?_, ?_⟩
  · intro pc other hlow hhigh hother next hnext
    rcases Nat.eq_or_lt_of_le hlow with rfl | hlt
    · rw [hinstr] at hother
      cases hother
      rw [hsuccessors] at hnext
      rw [List.mem_singleton.1 hnext]
      rcases h.begins with hbegins | ⟨heq, hexit⟩
      · exact .inl ⟨by omega, hbegins⟩
      · exact .inr (heq.trans hexit)
    · exact (h.encloses pc other (by omega) hhigh hother next hnext).imp
        (fun ⟨hlow', hhigh'⟩ => ⟨by omega, hhigh'⟩) id
  · -- The flow is one from behind the instruction.
    cases hflows with
    | refl => exact absurd h.le (by omega)
    | step here stays goes rest =>
      rw [hinstr] at here
      cases here
      rw [hsuccessors] at goes
      rw [List.mem_singleton.1 goes] at rest
      exact h.flows rest
  · intro position barred slots K hposition hbarred hexit
    have hfree : base ∉ barred := fun hmem => hbarred base hmem ⟨Nat.le_refl _, by omega⟩
    obtain ⟨noted, honward, heq⟩ := hways position slots
    rw [tryAt_onward hinstr hstays hfree honward, heq]
    refine h.tries hposition (not_barred_behind hbarred (by omega) (Nat.le_refl _))
      fun stop noted after hleaving => hexit stop noted after ?_
    refine hleaving.enter (by omega) (by omega) (Nat.le_refl _) (fun _ => id)
      (.step hinstr hstays hgoes .refl) fun _ _ hspent => ?_
    refine spent_of_successors hinstr hstays fun next hnext => ?_
    rw [hsuccessors] at hnext
    rw [List.mem_singleton.1 hnext]
    exact hspent

/-! ## One after the other -/

/-- To look for something in lists one after the other is to look for it in each. -/
theorem findSome?_flatMap {α β γ : Type} (xs : List α) (f : α → List β) (g : β → Option γ) :
    (xs.flatMap f).findSome? g = xs.findSome? fun x => (f x).findSome? g := by
  induction xs with
  | nil => rfl
  | cons x rest ih =>
    rw [List.flatMap_cons, List.findSome?_append, ih, List.findSome?_cons]
    cases (f x).findSome? g <;> rfl

/-- When two parts in a row are left last. The first counts only if the second may be passed at one
place with its exit. -/
def lastOfBoth (nullable nullable' : Bool) (last last' : Bool → Bool) (moved : Bool) : Bool :=
  if moved then last' true && (!nullable' || last true && last' false)
  else !(nullable && nullable') || last false && last' false

/-- If both parts may be passed at one place, both have to be left last. -/
theorem lastOfBoth_here {nullable' : Bool} {last' : Bool → Bool}
    (h : lastOfBoth nullable nullable' last last' false = true) (hfirst : nullable = true)
    (hsecond : nullable' = true) : last false = true ∧ last' false = true := by
  unfold lastOfBoth at h
  simpa [hfirst, hsecond] using h

/-- At a later place the second part has to be left last, and the first too if the second may be
empty. -/
theorem lastOfBoth_ahead {nullable' : Bool} {last' : Bool → Bool}
    (h : lastOfBoth nullable nullable' last last' true = true) :
    last' true = true ∧ (nullable' = true → last true = true ∧ last' false = true) := by
  unfold lastOfBoth at h
  rw [if_pos rfl, Bool.and_eq_true] at h
  exact ⟨h.1, fun hsecond => by simpa [hsecond] using h.2⟩

/-- An address of the first of two parts in a row, when the second has been passed as well. -/
theorem Passed.append {flag flag' : Bool}
    (h : Passed program text flag base middle middle position pc) (hle : middle ≤ fin)
    (hflows : Flows program middle exit)
    (hflag : flag' = true → flag = true ∧ Spent program text exit position middle) :
    Passed program text flag' base fin exit position pc :=
  ⟨h.low, Nat.lt_of_lt_of_le h.high hle, h.flows.trans hflows,
    fun hlast => (h.spent (hflag hlast).1).trans (hflag hlast).2⟩

/-- A thread that leaves the second of two parts in a row, having left the first. -/
theorem Leaving.append {nullable' : Bool} {last' : Bool → Bool} {stop' : Nat} {after' : Set Nat}
    (h : Leaving program text last base middle middle barred position stop after)
    (h' : Leaving program text last' middle fin exit after stop stop' after')
    (hbase : base ≤ middle) (hfin : middle ≤ fin)
    (hfirst : Flows program base middle → nullable = true)
    (hsecond : Flows program middle exit → nullable' = true) :
    Leaving program text (lastOfBoth nullable nullable' last last') base fin exit barred position
      stop' after' := by
  cases h' with
  | ahead moved' inside' added' =>
    -- The marks of the first part are gone.
    have hposition : position ≤ stop := by
      cases h with
      | here => exact Nat.le_refl _
      | ahead moved _ _ => exact Nat.le_of_lt moved
    exact .ahead (Nat.lt_of_le_of_lt hposition moved') inside' fun pc hpc =>
      (added' pc hpc).widen hbase (Nat.le_refl _) fun hlast => (lastOfBoth_ahead hlast).1
  | here kept' flows' entered' added' =>
    cases h with
    | here kept flows entered added =>
      have hlast : lastOfBoth nullable nullable' last last' false = true →
          last false = true ∧ last' false = true := fun hlast =>
        lastOfBoth_here hlast (hfirst flows) (hsecond flows')
      refine .here (kept.trans kept') (flows.trans flows')
        (fun h => (entered (hlast h).1).trans (entered' (hlast h).2)) fun pc hpc => ?_
      rcases added' pc hpc with hafter | hpassed'
      · exact (added pc hafter).imp id fun hpassed =>
          hpassed.append hfin flows' fun h => ⟨(hlast h).1, entered' (hlast h).2⟩
      · exact .inr (hpassed'.widen hbase (Nat.le_refl _) fun h => (hlast h).2)
    | ahead moved inside added =>
      have hlast : lastOfBoth nullable nullable' last last' true = true →
          last true = true ∧ last' false = true := fun hlast =>
        (lastOfBoth_ahead hlast).2 (hsecond flows')
      refine .ahead moved inside fun pc hpc => ?_
      rcases added' pc hpc with hafter | hpassed'
      · exact (added pc hafter).append hfin flows' fun h => ⟨(hlast h).1, entered' (hlast h).2⟩
      · exact hpassed'.widen hbase (Nat.le_refl _) fun h => (hlast h).2

/-- **Two parts in a row.** -/
theorem Part.append {nullable' : Bool} {last' : Bool → Bool} {ways' : Way → List Way}
    (h : Part program text nullable last base middle middle ways)
    (h' : Part program text nullable' last' middle fin exit ways') :
    Part program text (nullable && nullable') (lastOfBoth nullable nullable' last last') base fin
      exit fun way => (ways way).flatMap ways' := by
  have hbase := h.base_le
  have hfin := h'.base_le
  refine ⟨h'.le, ?_, ?_, ?_, ?_⟩
  · rcases h.begins with hlt | ⟨heq, _⟩
    · exact .inl (Nat.lt_of_lt_of_le hlt hfin)
    · rw [heq]
      exact h'.begins
  · intro pc instr hlow hhigh hinstr next hnext
    by_cases hlt : pc < middle
    · -- What leaves the first part comes to the second or, if that is empty, to its exit.
      rcases h.encloses pc instr hlow hlt hinstr next hnext with ⟨hlow', hhigh'⟩ | rfl
      · exact .inl ⟨hlow', Nat.lt_of_lt_of_le hhigh' hfin⟩
      · rcases h'.begins with hlt' | ⟨heq, hexit⟩
        · exact .inl ⟨hbase, hlt'⟩
        · exact .inr (heq.trans hexit)
    · rcases h'.encloses pc instr (Nat.le_of_not_lt hlt) hhigh hinstr next hnext with
        ⟨hlow', hhigh'⟩ | heq
      · exact .inl ⟨Nat.le_trans hbase hlow', hhigh'⟩
      · exact .inr heq
  · intro hflows
    rw [Bool.and_eq_true]
    rcases h.begins with hlt | ⟨heq, _⟩
    · have hout : ¬ (base ≤ exit ∧ exit < middle) := fun ⟨_, hlt'⟩ =>
        Nat.not_lt.2 (Nat.le_trans hfin h'.le) hlt'
      obtain ⟨hfirst, hsecond⟩ := h.encloses.flows (Nat.le_refl _) hlt hout hflows
      exact ⟨h.flows hfirst, h'.flows hsecond⟩
    · subst heq
      exact ⟨h.flows .refl, h'.flows hflows⟩
  · intro position barred slots K hposition hbarred hexit
    rw [findSome?_flatMap]
    refine h.tries hposition (fun pc hpc ⟨hlow, hhigh⟩ =>
      hbarred pc hpc ⟨hlow, Nat.lt_of_lt_of_le hhigh hfin⟩) fun stop noted after hleaving => ?_
    -- Behind the first part the second is tried, with the marks of the first.
    refine h'.tries (hleaving.le_size hposition) (fun pc hpc ⟨hlow, hhigh⟩ => ?_) ?_
    · rcases hleaving.mem hpc with hmem | ⟨_, hlt⟩
      · exact hbarred pc hmem ⟨Nat.le_trans hbase hlow, hhigh⟩
      · exact Nat.not_lt.2 hlow hlt
    · exact fun stop' noted' after' hleaving' => hexit stop' noted' after'
        (hleaving.append hleaving' hbase hfin h.flows h'.flows)

/-- A part with one behind it that takes no character, such as a jump or a note. -/
theorem Part.behind {ways' : Way → List Way}
    (h : Part program text nullable last base middle middle ways)
    (h' : Part program text true (fun _ => true) middle fin exit ways') :
    Part program text nullable last base fin exit fun way => (ways way).flatMap ways' := by
  refine (h.append h').mono (fun hboth => (Bool.and_eq_true_iff.1 hboth).1) fun moved hlast => ?_
  cases moved with
  | false => simp [lastOfBoth, hlast]
  | true => simp [lastOfBoth, hlast]

/-- A part that has come to nothing is spent, whatever was barred outside it. -/
theorem Part.spent_of_none (h : Part program text nullable last base fin exit ways)
    (hbarred : ∀ pc ∈ barred, ¬ (base ≤ pc ∧ pc < fin))
    (hnone : tryAt program text position barred base slots = none) :
    Spent program text exit position base := by
  rcases h.begins with hlt | ⟨heq, hend⟩
  · intro hfinds
    refine not_finds_of_none hnone
      (h.encloses.finds (Nat.le_refl _) hlt (Set.mem_singleton exit) ?_ hfinds)
    exact fun other hmem hlow hhigh => absurd ⟨hlow, hhigh⟩ (hbarred other hmem)
  · rw [heq, hend]
    exact spent_exit exit

/-! ## A choice -/

/-- The first of two results if greed prefers it, or else the other, as long as it is one. -/
def prefer {α : Type} (greedy : Bool) (again leave : Option α) : Option α :=
  if greedy then again.or leave else leave.or again

/-- The result of leaving counts under greed only if there is none of going on. -/
theorem prefer_congr {α : Type} {again again' leave leave' : Option α} (hagain : again = again')
    (hleave : (greedy = true → again = none) → leave = leave') :
    prefer greedy again leave = prefer greedy again' leave' := by
  subst hagain
  cases greedy with
  | false => rw [hleave nofun]
  | true =>
    cases hsome : again with
    | some result => rfl
    | none => rw [hleave fun _ => hsome]

/-- A greedy repetition looks for another round first, and a lazy one for the way out. -/
theorem findSome?_order (again : List Way) (leave : Way) :
    (Way.order greedy again leave).findSome? K =
      prefer greedy (again.findSome? K) (K leave) := by
  cases greedy with
  | true =>
    rw [Way.order, if_pos rfl, List.findSome?_append, List.findSome?_singleton]
    rfl
  | false =>
    rw [Way.order, if_neg Bool.false_ne_true, List.findSome?_cons]
    unfold prefer
    cases K leave <;> rfl

/-- **A thread at a choice** tries both addresses in the order of preference. -/
theorem tryAt_choice {body : Nat} (hchoice : program[base]? = some (.choice greedy body exit))
    (hfree : base ∉ barred) (slots : Slots) :
    tryAt program text position barred base slots =
      prefer greedy (tryAt program text position (insert base barred) body slots)
        (tryAt program text position (insert base barred) exit slots) := by
  have honward : onward program text position ⟨base, slots⟩ =
      (if greedy then [body, exit] else [exit, body]).map fun target => ⟨target, slots⟩ :=
    onward_split hchoice
  rw [tryAt, attempt_onward hchoice rfl hfree, honward]
  cases greedy with
  | true =>
    rw [if_pos rfl, List.map_cons, List.map_cons, List.map_nil, List.findSome?_cons,
      List.findSome?_singleton]
    unfold prefer tryAt
    cases attempt program text .forward text.size position (insert base barred) ⟨body, slots⟩ <;>
      rfl
  | false =>
    rw [if_neg Bool.false_ne_true, List.map_cons, List.map_cons, List.map_nil, List.findSome?_cons,
      List.findSome?_singleton]
    unfold prefer tryAt
    cases attempt program text .forward text.size position (insert base barred) ⟨exit, slots⟩ <;>
      rfl

/-- The successors of a choice. -/
theorem mem_successors_choice {body next : Nat} :
    next ∈ (Instr.choice greedy body exit).successors base ↔ next = body ∨ next = exit := by
  cases greedy with
  | true => exact List.mem_pair
  | false => exact List.mem_pair.trans or_comm

/-- If nothing has been found behind the choice but by way of the exit, nothing is found from the
choice but by way of the exit. -/
theorem spent_choice {body : Nat} (hchoice : program[base]? = some (.choice greedy body exit))
    (hencloses : Encloses program base fin exit) (hbody : base < body)
    (hin : body < fin ∨ body = exit) (hbarred : ∀ pc ∈ barred, ¬ (base ≤ pc ∧ pc < fin))
    (hnone : ¬ Finds program text position (insert base barred) body) :
    Spent program text exit position base := by
  refine not_finds_of_stays hchoice rfl fun next hnext hfinds => ?_
  have hexit : exit ∈ insert base ({exit} : Set Nat) := .inr rfl
  rcases mem_successors_choice.1 hnext with rfl | rfl
  · rcases hin with hlt | rfl
    · -- The way from the body does not leave the code, where no other address is barred.
      refine hnone (hencloses.finds (Nat.le_of_lt hbody) hlt hexit ?_ hfinds)
      rintro other (rfl | hmem) hlow hhigh
      · exact .inl rfl
      · exact absurd ⟨hlow, hhigh⟩ (hbarred other hmem)
    · exact hfinds.free hexit
  · exact hfinds.free hexit

end Machine

end Emend
