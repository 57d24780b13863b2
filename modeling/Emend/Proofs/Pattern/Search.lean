import Emend.Proofs.Pattern.Lead
import Emend.Proofs.Pattern.Numbers
import Emend.Proofs.Pattern.Passage

/-!
# What a search finds

A run from the base of a node's code answers just if the node can be passed within the bound
(`CompiledAt.isSome_answer_iff`), and then with what a thread that passes it has noted
(`CompiledAt.exists_passes`). With the loop that searches in front, the run answers what the first
place at which the node matches would answer. So a search finds a match if there is one, the match
is one of the pattern's, and none begins before it (`search_forward`).
-/

namespace Emend

open Machine

variable {program : Array Instr} {text : Source} {direction : Direction} {bound position : Nat}
  {node : Node} {slots noted : Slots}

/-! ## A node at its base -/

/-- The code of a node stands in the program, with the end of the match after it. -/
structure CompiledAt (program : Array Instr) (direction : Direction) (node : Node) (base : Nat) :
    Prop where
  /-- The node's code. -/
  code : CodeAt program base (node.code direction.isBackward base)
  /-- The end of the match. -/
  accept : program[base + (node.code direction.isBackward base).length]? = some .accept

/-- **An answer is a way of passing the node.** -/
theorem CompiledAt.exists_passes {base : Nat} (h : CompiledAt program direction node base)
    (hproper : node.IsProper) (hbound : direction.Ahead position bound)
    (hanswer : answer program text bound direction position ⟨base, slots⟩ = some noted) :
    ∃ other, direction.Ahead other bound ∧
      node.Passes text direction position slots other noted := by
  -- The run has followed some thread to an acceptance, and there is only the one after the node.
  obtain ⟨count, stop, last, hpath, haccept, rfl⟩ := exists_path_of_answer hanswer
  obtain ⟨other, noted, hpasses, rest, _, hrest⟩ := hproper.traced h.code hpath haccept
  obtain ⟨rfl, rfl⟩ := hrest.of_accept h.accept
  exact ⟨stop, hpath.ahead_bound hbound, hpasses⟩

/-- **A node that can be passed is found.** -/
theorem CompiledAt.isSome_answer_iff {base : Nat} (h : CompiledAt program direction node base)
    (hproper : node.IsProper) (hbound : direction.Ahead position bound) (slots : Slots) :
    (answer program text bound direction position ⟨base, slots⟩).isSome = true ↔
      ∃ other, direction.Ahead other bound ∧ node.Covers text direction position other := by
  constructor
  · intro hsome
    obtain ⟨noted, hanswer⟩ := Option.isSome_iff_exists.1 hsome
    obtain ⟨other, hother, hpasses⟩ := h.exists_passes hproper hbound hanswer
    exact ⟨other, hother, hpasses.covers⟩
  · rintro ⟨other, hother, hcovers⟩
    obtain ⟨noted, hpasses⟩ := hcovers.exists_passes slots
    obtain ⟨count, hpath⟩ := hpasses.exists_path h.code hother
    exact Machine.isSome_answer_iff.2 (hpath.live h.accept)

/-! ## The whole program -/

/-- A search skips any characters before the code of its pattern. -/
theorem programOf_search (node : Node) (backward : Bool) :
    Regex.programOf node true backward =
      .split [3, 1] :: .oneOf .any :: .jump 0 :: (node.code backward 3 ++ [.accept]) :=
  rfl

/-- The node of a program for searching. -/
theorem compiledAt_search (node : Node) (direction : Direction) :
    CompiledAt (Regex.programOf node true direction.isBackward).toArray direction node 3 := by
  have hcode := codeAt_toArray (Regex.programOf node true direction.isBackward)
  rw [programOf_search] at hcode
  exact ⟨hcode.tail.tail.tail.left, hcode.tail.tail.tail.right.head⟩

/-- The node of a program that matches in place. -/
theorem compiledAt_anchored (node : Node) (direction : Direction) :
    CompiledAt (Regex.programOf node false direction.isBackward).toArray direction node 0 := by
  have hcode := codeAt_toArray (Regex.programOf node false direction.isBackward)
  exact ⟨hcode.left, hcode.right.head⟩

/-- The loop of a program for searching. -/
theorem lead_search (hproper : node.IsProper) (backward : Bool) :
    Lead (Regex.programOf node true backward).toArray := by
  refine ⟨rfl, rfl, rfl, ?_⟩
  intro text position thread hthread next hnext
  obtain ⟨instr, hinstr, hsuccessor⟩ := pc_mem_successors hnext
  -- Behind the loop stands the node, which stays within itself, and then the acceptance.
  have hbody : (node.code backward 3 ++ [.accept])[thread.pc - 3]? = some instr := by
    rw [List.getElem?_toArray, programOf_search] at hinstr
    obtain ⟨offset, hoffset⟩ := Nat.exists_eq_add_of_le hthread
    rw [hoffset] at hinstr ⊢
    rw [Nat.add_sub_cancel_left]
    rw [Nat.add_comm] at hinstr
    exact hinstr
  have hwithin : Node.Within 3 (3 + (node.code backward 3).length) 3
      (node.code backward 3 ++ [.accept]) :=
    Node.within_append (hproper.staysWithin backward 3) (Node.within_cons nofun Node.within_nil)
  rw [← Nat.add_sub_cancel' hthread] at hsuccessor
  exact (hwithin _ instr hbody next.pc hsuccessor).1

/-- A fold that never lowers the number ends no lower than it began. -/
theorem le_foldl {α : Type} {raise : Nat → α → Nat}
    (hraise : ∀ number item, number ≤ raise number item) (items : List α) (number : Nat) :
    number ≤ items.foldl raise number := by
  induction items generalizing number with
  | nil => exact Nat.le_refl _
  | cons item rest ih => exact Nat.le_trans (hraise number item) (ih _)

/-- There are slots for the whole match. -/
theorem two_le_slotsFor (program : List Instr) : 2 ≤ Regex.slotsFor program := by
  unfold Regex.slotsFor
  generalize hhighest : program.foldl _ 1 = highest
  have hle : 1 ≤ highest := by
    rw [← hhighest]
    refine le_foldl (fun number instr => ?_) program 1
    split
    · exact Nat.le_max_left _ _
    · exact Nat.le_refl _
  dsimp only
  omega

/-- The slots of the whole match hold where it was begun and where it was ended. -/
theorem Node.Passes.slots_whole {branches : List (List Node)} {other : Nat}
    (h : Node.Passes text direction (.group (some 0) branches) position slots other noted)
    (hsize : 2 ≤ slots.size) (hzero : 0 ∉ Node.branchNumbers branches) :
    noted[0]? = some (some position) ∧ noted[1]? = some (some other) := by
  cases h with
  | @remembered _ _ branch _ _ _ noted chosen row =>
    -- The branch leaves the slot alone that was set when the group was entered.
    have hkept := (Node.Passes.plain chosen row).kept
    have hrow : noted[0]? = (slots.setIfInBounds 0 (some position))[0]? := by
      apply hkept.others
      rw [Node.groupNumbers_group]
      exact hzero
    have hnoted : 1 < noted.size := by
      rw [hkept.size, Array.size_setIfInBounds]
      exact hsize
    constructor
    · rw [Array.getElem?_setIfInBounds_ne (by decide), hrow,
        Array.getElem?_setIfInBounds_self_of_lt (Nat.lt_of_lt_of_le Nat.two_pos hsize)]
    · exact Array.getElem?_setIfInBounds_self_of_lt hnoted

/-- **What a search answers**, in either direction: the first place from which the node matches. -/
theorem exists_of_search {pattern : String} (hparse : Pattern.parse pattern = .ok node)
    (hbound : direction.Ahead position bound) (hsize : 2 ≤ slots.size)
    (hanswer : answer (Regex.programOf node true direction.isBackward).toArray text bound direction
      position ⟨0, slots⟩ = some noted) :
    ∃ start stop, noted[0]? = some (some start) ∧ noted[1]? = some (some stop) ∧
      direction.Ahead position start ∧ direction.Ahead stop bound ∧
      node.Covers text direction start stop ∧
      ∀ start' stop', direction.Ahead position start' → direction.Ahead stop' bound →
        node.Covers text direction start' stop' → direction.Ahead start start' := by
  obtain ⟨hproper, ⟨branches, rfl⟩, _⟩ := Pattern.groupNumbers_parse hparse
  have hcompiled := compiledAt_search (.group (some 0) branches) direction
  obtain ⟨start, hstart, hstartBound, hfound, hfirst⟩ :=
    answer_lead_some (lead_search hproper direction.isBackward) hbound hanswer
  obtain ⟨stop, hstop, hpasses⟩ := hcompiled.exists_passes hproper hstartBound hfound
  obtain ⟨hzero, hone⟩ :=
    hpasses.slots_whole hsize (Pattern.zero_notMem_branchNumbers hparse)
  refine ⟨start, stop, hzero, hone, hstart, hstop, hpasses.covers, ?_⟩
  intro start' stop' hposition hstop' hcovers
  rcases direction.ahead_total start start' with hahead | hahead
  · exact hahead
  · by_cases hne : start' = start
    · rw [hne]
      exact .refl _ _
    · -- Before the start that is found the node does not match at all.
      have hnone := hfirst start' hposition hahead hne
      have hsome := (hcompiled.isSome_answer_iff hproper (hahead.trans hstartBound) slots).2
        ⟨stop', hstop', hcovers⟩
      rw [hnone] at hsome
      cases hsome

/-- **A search answers if the node matches anywhere**, in either direction. -/
theorem isSome_search_iff {pattern : String} (hparse : Pattern.parse pattern = .ok node)
    (hbound : direction.Ahead position bound) (hposition : position ≤ text.size)
    (hlast : bound ≤ text.size) (hsize : 2 ≤ slots.size) :
    (answer (Regex.programOf node true direction.isBackward).toArray text bound direction
      position ⟨0, slots⟩).isSome = true ↔
      ∃ start stop, direction.Ahead position start ∧ direction.Ahead stop bound ∧
        node.Covers text direction start stop := by
  constructor
  · intro hsome
    obtain ⟨noted, hanswer⟩ := Option.isSome_iff_exists.1 hsome
    obtain ⟨start, stop, _, _, hstart, hstop, hcovers, _⟩ :=
      exists_of_search hparse hbound hsize hanswer
    exact ⟨start, stop, hstart, hstop, hcovers⟩
  · rintro ⟨start, stop, hstart, hstop, hcovers⟩
    obtain ⟨hproper, _, _⟩ := Pattern.groupNumbers_parse hparse
    obtain ⟨noted, hpasses⟩ := hcovers.exists_passes slots
    have hstartBound := hpasses.ahead.trans hstop
    have hcompiled := compiledAt_search node direction
    have hsome := (hcompiled.isSome_answer_iff hproper hstartBound slots).2 ⟨stop, hstop, hcovers⟩
    -- Without an answer the body would answer nothing at this start.
    apply Classical.byContradiction
    intro hnot
    rw [answer_lead_none (lead_search hproper direction.isBackward) hbound hposition hlast
      (Option.not_isSome_iff_eq_none.1 hnot) hstart hstartBound] at hsome
    cases hsome

/-! ## The answer of a program -/

/-- What the slots of a run say about its groups: a run backward has noted the right end of a group
first. -/
def Direction.inOrder : Direction → Slots → Slots
  | .forward, noted => noted
  | .backward, noted => (orderPairs noted.toList).toArray

/-- A run from a place and to a bound in the text. -/
theorem matchAt_ofProgram (pattern : String) (code : List Instr) (backward : Bool)
    (direction : Direction) (hposition : position ≤ text.size) (hbound : bound ≤ text.size) :
    (Regex.ofProgram pattern code backward).matchAt text position bound direction =
      (answer code.toArray text bound direction position
        ⟨0, Array.replicate (Regex.slotsFor code) none⟩).map (⟨direction.inOrder ·⟩) := by
  unfold Regex.matchAt
  rw [Nat.min_eq_left hposition, Nat.min_eq_left hbound]
  cases direction with
  | forward => rfl
  | backward =>
    show ((answer _ _ _ _ _ _).map _).map _ = _
    rw [Option.map_map]
    rfl

/-- A pattern matches a range if its tree covers it. -/
theorem matchesRange_iff {pattern : String} (hparse : Pattern.parse pattern = .ok node)
    (start stop : Nat) :
    Pattern.MatchesRange pattern text start stop ↔ node.Covers text .forward start stop := by
  constructor
  · rintro ⟨other, hother, hmatches⟩
    rw [hparse] at hother
    cases hother
    exact hmatches
  · exact fun hmatches => ⟨node, hparse, hmatches⟩

/-- A group of captures whose two slots are known. -/
theorem captures_group {index start stop : Nat} (henter : noted[2 * index]? = some (some start))
    (hleave : noted[2 * index + 1]? = some (some stop)) :
    Captures.group? ⟨noted⟩ index = some (start, stop) := by
  have hstart : Captures.slot? ⟨noted⟩ (2 * index) = some start := by
    rw [Captures.slot?, henter]
    rfl
  have hstop : Captures.slot? ⟨noted⟩ (2 * index + 1) = some stop := by
    rw [Captures.slot?, hleave]
    rfl
  rw [Captures.group?, hstart, hstop]

/-- The whole match of captures whose first two slots are known. -/
theorem captures_whole {start stop : Nat} (hzero : noted[0]? = some (some start))
    (hone : noted[1]? = some (some stop)) :
    Captures.start ⟨noted⟩ = start ∧ Captures.stop ⟨noted⟩ = stop ∧
      Captures.group? ⟨noted⟩ 0 = some (start, stop) := by
  refine ⟨?_, ?_, captures_group hzero hone⟩
  · rw [Captures.start, Captures.slot?, hzero]
    rfl
  · rw [Captures.stop, Captures.slot?, hone]
    rfl

/-- A pattern that can be read compiles in every mode. -/
theorem compile_of_parse {pattern : String} (hparse : Pattern.parse pattern = .ok node)
    (search backward : Bool) : Regex.compile pattern search backward =
      .ok (.ofProgram pattern (Regex.programOf node search backward) backward) := by
  unfold Regex.compile
  rw [hparse]

/-- What compiles is the program of the pattern's tree. -/
theorem node_of_compile {pattern : String} {search backward : Bool} {regex : Regex}
    (h : Regex.compile pattern search backward = .ok regex) :
    ∃ node, Pattern.parse pattern = .ok node ∧
      regex = .ofProgram pattern (Regex.programOf node search backward) backward := by
  unfold Regex.compile at h
  split at h
  · next node hparse =>
    cases h
    exact ⟨node, hparse, rfl⟩
  · cases h

/-- There are slots for the match as a whole. -/
theorem two_le_size_slots (code : List Instr) :
    2 ≤ (Array.replicate (Regex.slotsFor code) (none : Option Nat)).size := by
  rw [Array.size_replicate]
  exact two_le_slotsFor code

/-! ## Searching forward -/

section Forward

/-- A run forward, from a place and to a bound in the text. -/
theorem matchAt_forward (pattern : String) (code : List Instr) (backward : Bool)
    (hposition : position ≤ text.size) (hbound : bound ≤ text.size) :
    (Regex.ofProgram pattern code backward).matchAt text position bound .forward =
      (answer code.toArray text bound .forward position
        ⟨0, Array.replicate (Regex.slotsFor code) none⟩).map (⟨·⟩) :=
  matchAt_ofProgram pattern code backward .forward hposition hbound

variable {pattern : String} {regex : Regex} {first : Nat}

/-- A search forward answers if the pattern matches anywhere. -/
theorem isSome_matchAt_iff (hcompile : Regex.compile pattern true false = .ok regex)
    (hfirst : first ≤ bound) (hbound : bound ≤ text.size) :
    (regex.matchAt text first bound .forward).isSome = true ↔ ∃ start stop, first ≤ start ∧
      start ≤ stop ∧ stop ≤ bound ∧ Pattern.MatchesRange pattern text start stop := by
  obtain ⟨node, hparse, rfl⟩ := node_of_compile hcompile
  have hposition : first ≤ text.size := Nat.le_trans hfirst hbound
  have hahead : Direction.forward.Ahead first bound := hfirst
  rw [matchAt_forward pattern _ false hposition hbound, Option.isSome_map]
  refine (isSome_search_iff hparse hahead hposition hbound (two_le_size_slots _)).trans ?_
  constructor
  · rintro ⟨start, stop, hstart, hstop, hcovers⟩
    have hle : start ≤ stop := Node.Matches.le hcovers
    exact ⟨start, stop, hstart, hle, hstop, (matchesRange_iff hparse _ _).2 hcovers⟩
  · rintro ⟨start, stop, hstart, _, hstop, hmatches⟩
    exact ⟨start, stop, hstart, hstop, (matchesRange_iff hparse _ _).1 hmatches⟩

/-- What a search forward answers is a match, and none begins before it. -/
theorem leftmost_of_matchAt (hcompile : Regex.compile pattern true false = .ok regex)
    (hfirst : first ≤ bound) (hbound : bound ≤ text.size) {captures : Captures}
    (hcaptures : regex.matchAt text first bound .forward = some captures) :
    captures.group? 0 = some (captures.start, captures.stop) ∧ first ≤ captures.start ∧
      captures.start ≤ captures.stop ∧ captures.stop ≤ bound ∧
      Pattern.MatchesRange pattern text captures.start captures.stop ∧
      ∀ start stop, first ≤ start → stop ≤ bound →
        Pattern.MatchesRange pattern text start stop → captures.start ≤ start := by
  obtain ⟨node, hparse, rfl⟩ := node_of_compile hcompile
  have hposition : first ≤ text.size := Nat.le_trans hfirst hbound
  have hahead : Direction.forward.Ahead first bound := hfirst
  rw [matchAt_forward pattern _ false hposition hbound] at hcaptures
  obtain ⟨noted, hanswer, rfl⟩ := Option.map_eq_some_iff.1 hcaptures
  obtain ⟨start, stop, hzero, hone, hstart, hstop, hcovers, hleast⟩ :=
    exists_of_search hparse hahead (two_le_size_slots _) hanswer
  obtain ⟨hcapturesStart, hcapturesStop, hwhole⟩ := captures_whole hzero hone
  have hle : start ≤ stop := Node.Matches.le hcovers
  -- Forward, being ahead of a place is being behind it in the text.
  rw [hcapturesStart, hcapturesStop]
  refine ⟨hwhole, hstart, hle, hstop, (matchesRange_iff hparse _ _).2 hcovers, ?_⟩
  intro start' stop' hstart' hstop' hmatches
  exact hleast start' stop' hstart' hstop' ((matchesRange_iff hparse _ _).1 hmatches)

end Forward

/-- **A search forward finds the leftmost match.** There is an answer just if the pattern matches
somewhere between the two places; then it is a match of the pattern there, and no match begins
before it. -/
theorem search_forward {pattern : String} {regex : Regex}
    (hcompile : Regex.compile pattern true false = .ok regex) (text : Source) {first bound : Nat}
    (hfirst : first ≤ bound) (hbound : bound ≤ text.size) :
    ((regex.matchAt text first bound .forward).isSome = true ↔ ∃ start stop, first ≤ start ∧
      start ≤ stop ∧ stop ≤ bound ∧ Pattern.MatchesRange pattern text start stop) ∧
    ∀ captures, regex.matchAt text first bound .forward = some captures →
      captures.group? 0 = some (captures.start, captures.stop) ∧ first ≤ captures.start ∧
        captures.start ≤ captures.stop ∧ captures.stop ≤ bound ∧
        Pattern.MatchesRange pattern text captures.start captures.stop ∧
        ∀ start stop, first ≤ start → stop ≤ bound →
          Pattern.MatchesRange pattern text start stop → captures.start ≤ start :=
  ⟨isSome_matchAt_iff hcompile hfirst hbound,
    fun _ hcaptures => leftmost_of_matchAt hcompile hfirst hbound hcaptures⟩

/-- A repetition behind a character that does not match. -/
theorem search_forward_repetition :
    ∃ regex captures, Regex.compile "ab+" true false = .ok regex ∧
      regex.matchAt (.ofList "xabb".toList) 0 4 .forward = some captures ∧
      captures.group? 0 = some (captures.start, captures.stop) ∧
      Pattern.MatchesRange "ab+" (.ofList "xabb".toList) captures.start captures.stop ∧
      ∀ start stop, stop ≤ 4 →
        Pattern.MatchesRange "ab+" (.ofList "xabb".toList) start stop → captures.start ≤ start := by
  have hcompile : Regex.compile "ab+" true false = .ok ⟨"ab+", #[.split [3, 1], .oneOf .any,
      .jump 0, .save 0, .char 'a', .char 'b', .split [5, 7], .save 1, .accept], 2, false⟩ := by
    cbv
  have hmatch : Regex.matchAt ⟨"ab+", #[.split [3, 1], .oneOf .any, .jump 0, .save 0, .char 'a',
      .char 'b', .split [5, 7], .save 1, .accept], 2, false⟩ (.ofList "xabb".toList) 0 4 .forward =
      some ⟨#[some 1, some 4]⟩ := by
    cbv
  obtain ⟨_, hcaptures⟩ := search_forward hcompile (.ofList "xabb".toList) (Nat.zero_le 4)
    (Nat.le_refl 4)
  obtain ⟨hwhole, _, _, _, hmatches, hleast⟩ := hcaptures _ hmatch
  exact ⟨_, _, hcompile, hmatch, hwhole, hmatches, fun start stop => hleast start stop
    (Nat.zero_le start)⟩

end Emend
