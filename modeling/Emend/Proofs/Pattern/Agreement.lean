import Emend.Proofs.Pattern.Search
import Emend.Proofs.Pattern.Slots
import Emend.Proofs.Pattern.Tried
import Emend.Proofs.Pattern.Ways

/-!
# A search and the preferred way

A search forward over the whole text finds a match just if there is a way to match, and the match
begins where the preferred way begins. For a steady pattern it is the preferred way, with the bounds
of all its groups (`search_forward_preferred`). Other patterns can answer a way that is not the
preferred one: in `(a*?)*` the inner repetition is left before another character is tried, and then
the next round of the outer one finds the choice of the inner one marked
(`not_search_forward_preferred`).
-/

namespace Emend

open Machine

variable {program : Array Instr} {text : Source} {base position : Nat} {node : Node}
  {branches : List (List Node)} {slots noted : Slots}

/-! ## At one place -/

/-- The answer of a run is what its thread comes to when no address is barred. -/
theorem answer_eq_tryAt {pc : Nat} :
    answer program text text.size .forward position ⟨pc, slots⟩ =
      tryAt program text position ∅ pc slots := by
  unfold answer tryAt attempt
  rw [barring_empty]

/-- **The code of a steady node answers with the preferred way.** -/
theorem CompiledAt.answer_of_steady (h : CompiledAt program .forward node base)
    (hproper : node.IsProper) (hsteady : node.steady = true) (hposition : position ≤ text.size)
    (slots : Slots) :
    (answer program text text.size .forward position ⟨base, slots⟩).map (·.toList) =
      ((node.ways text ⟨position, slots.toList⟩).head?).map (·.slots) := by
  have hnone : ∀ pc ∈ (∅ : Set Nat), ¬ (base ≤ pc ∧ pc < base + (node.code false base).length) :=
    fun pc hpc => absurd hpc (Set.notMem_empty _)
  have htries : tryAt program text position ∅ base slots =
      (node.ways text ⟨position, slots.toList⟩).findSome? fun way => some way.slots.toArray := by
    refine (hproper.part hsteady h.code).tries hposition hnone fun stop noted after hleaving => ?_
    have hfree : base + (node.code false base).length ∉ after := by
      intro hmem
      rcases hleaving.mem hmem with hmem | ⟨_, hlt⟩
      · exact Set.notMem_empty _ hmem
      · exact Nat.lt_irrefl _ hlt
    exact attempt_accept h.accept hfree
  rw [answer_eq_tryAt, htries]
  cases node.ways text ⟨position, slots.toList⟩ <;> rfl

/-- A node that matches from a place of the text has a way there, and it ends in the text. -/
theorem Node.Matches.exists_head {stop : Nat} (h : node.Matches text position stop)
    (hposition : position ≤ text.size) (slots : List (Option Nat)) :
    stop ≤ text.size ∧ ∃ way, (node.ways text ⟨position, slots⟩).head? = some way := by
  obtain ⟨hstop, hways⟩ := h.hasWay hposition
  obtain ⟨way, hway, _⟩ := hways slots
  refine ⟨hstop, ?_⟩
  cases hlist : node.ways text ⟨position, slots⟩ with
  | nil =>
    rw [hlist] at hway
    cases hway
  | cons first rest => exact ⟨first, rfl⟩

/-- **The code of a pattern answers where there is a way**, and both note where they have begun. -/
theorem CompiledAt.first_answer (h : CompiledAt program .forward (.group (some 0) branches) base)
    (hproper : Node.IsProper (.group (some 0) branches)) (hzero : 0 ∉ Node.branchNumbers branches)
    (hposition : position ≤ text.size) (hsize : 2 ≤ slots.size) :
    (answer program text text.size .forward position ⟨base, slots⟩).map (·[0]?.join) =
      ((Node.ways text (.group (some 0) branches) ⟨position, slots.toList⟩).head?).map
        (·.slots[0]?.join) := by
  have hahead : Direction.forward.Ahead position text.size := hposition
  cases hhead : (Node.ways text (.group (some 0) branches) ⟨position, slots.toList⟩).head? with
  | none =>
    -- Where there is no way, nothing is matched.
    have hnone : answer program text text.size .forward position ⟨base, slots⟩ = none := by
      apply Option.not_isSome_iff_eq_none.1
      rw [h.isSome_answer_iff hproper hahead]
      rintro ⟨stop, _, hcovers⟩
      obtain ⟨_, way, hway⟩ := Node.Matches.exists_head hcovers hposition slots.toList
      rw [hhead] at hway
      cases hway
    rw [hnone]
    rfl
  | some way =>
    have hpasses := hproper.hasPasses (List.mem_of_mem_head? hhead)
    have hstop : way.position ≤ text.size :=
      (Node.Matches.exists_head hpasses.covers hposition []).1
    obtain ⟨noted, hanswer⟩ := Option.isSome_iff_exists.1
      ((h.isSome_answer_iff hproper hahead slots).2 ⟨way.position, hstop, hpasses.covers⟩)
    obtain ⟨_, _, hnoted⟩ := h.exists_passes hproper hahead hanswer
    -- Both have passed the whole pattern from this place.
    have hfirst := (hnoted.slots_whole hsize hzero).1
    have hway := (hpasses.slots_whole hsize hzero).1
    rw [List.getElem?_toArray] at hway
    rw [hanswer, Option.map_some, Option.map_some, hfirst, hway]

/-! ## At the first place -/

/-- A search to the end of the text tries all places in order. -/
theorem answer_lead_eq (h : Lead program) (hposition : position ≤ text.size) :
    answer program text text.size .forward position ⟨0, slots⟩ =
      (List.range' position (text.size + 1 - position)).findSome? fun start =>
        answer program text text.size .forward start ⟨3, slots⟩ :=
  have hahead : Direction.forward.Ahead position text.size := hposition
  answer_lead_places h hahead hposition (Nat.le_refl _)

/-- **A search finds the preferred way.** On every text a search answers if there is a way to match,
and the match begins where the preferred way begins. If the pattern is steady, the match is the
preferred way, in all its slots. -/
theorem search_forward_preferred {pattern : String} {regex : Regex} {node : Node}
    (hcompile : Regex.compile pattern true false = .ok regex)
    (hparse : Pattern.parse pattern = .ok node) (text : Source) :
    (regex.matchAt text 0 text.size .forward).map (·.slot? 0) =
        (node.preferred? text (2 * node.groupNumbers.length)).map (·.slots[0]?.join) ∧
      (node.steady = true →
        (regex.matchAt text 0 text.size .forward).map (·.slots.toList) =
          (node.preferred? text (2 * node.groupNumbers.length)).map (·.slots)) := by
  obtain ⟨other, hother, rfl⟩ := node_of_compile hcompile
  rw [hparse] at hother
  cases hother
  obtain ⟨hproper, ⟨branches, rfl⟩, _⟩ := Pattern.groupNumbers_parse hparse
  have hcompiled : CompiledAt (Regex.programOf (.group (some 0) branches) true false).toArray
      .forward (.group (some 0) branches) 3 := compiledAt_search _ .forward
  rw [matchAt_forward pattern _ false (Nat.zero_le _) (Nat.le_refl _),
    answer_lead_eq (lead_search hproper false) (Nat.zero_le _), Nat.sub_zero,
    ← List.range_eq_range', Option.map_map, Option.map_map]
  have hslots := slotsFor_programOf hparse true false
  have hsize := two_le_size_slots (Regex.programOf (.group (some 0) branches) true false)
  unfold Node.preferred?
  rw [hslots] at hsize ⊢
  constructor
  · refine map_findSome?_congr fun start hstart => ?_
    have hle : start ≤ text.size := Nat.le_of_lt_succ (List.mem_range.1 hstart)
    have hfirst :=
      hcompiled.first_answer hproper (Pattern.zero_notMem_branchNumbers hparse) hle hsize
    rw [Array.toList_replicate] at hfirst
    exact hfirst
  · intro hsteady
    refine map_findSome?_congr fun start hstart => ?_
    have hle : start ≤ text.size := Nat.le_of_lt_succ (List.mem_range.1 hstart)
    have hanswer := hcompiled.answer_of_steady hproper hsteady hle (Array.replicate
      (2 * (Node.group (some 0) branches).groupNumbers.length) none)
    rw [Array.toList_replicate] at hanswer
    exact hanswer

/-- A repetition of a repetition that may match nothing. -/
theorem search_forward_preferred_nested :
    ∃ regex node, Regex.compile "(a*)*b" true false = .ok regex ∧
      Pattern.parse "(a*)*b" = .ok node ∧ node.steady = true ∧
      (regex.matchAt (.ofList "caab".toList) 0 4 .forward).map (·.slots.toList) =
        some [some 1, some 4, some 1, some 3] ∧
      (node.preferred? (.ofList "caab".toList) (2 * node.groupNumbers.length)).map (·.slots) =
        some [some 1, some 4, some 1, some 3] := by
  have hcompile : Regex.compile "(a*)*b" true false = .ok ⟨"(a*)*b", #[.split [3, 1], .oneOf .any,
      .jump 0, .save 0, .split [5, 11], .save 2, .split [7, 9], .char 'a', .jump 6, .save 3,
      .jump 4, .char 'b', .save 1, .accept], 4, false⟩ := by
    cbv
  have hparse : Pattern.parse "(a*)*b" = .ok (.group (some 0) [[.loop .zeroOrMore true
      (.group (some 1) [[.loop .zeroOrMore true (.char 'a')]]), .char 'b']]) := by
    cbv
  have hmatch : (Regex.matchAt ⟨"(a*)*b", #[.split [3, 1], .oneOf .any, .jump 0, .save 0,
      .split [5, 11], .save 2, .split [7, 9], .char 'a', .jump 6, .save 3, .jump 4, .char 'b',
      .save 1, .accept], 4, false⟩ (.ofList "caab".toList) 0 4 .forward).map (·.slots.toList) =
      some [some 1, some 4, some 1, some 3] := by
    cbv
  obtain ⟨_, hsteady⟩ := search_forward_preferred hcompile hparse (.ofList "caab".toList)
  have hpreferred := hsteady (by decide)
  exact ⟨_, _, hcompile, hparse, by decide, hmatch, hpreferred.symm.trans hmatch⟩

/-- **A search need not find the preferred way.** In the second round the lazy repetition inside may
not take nothing, so it takes the second character. The search has come through the choice of that
repetition at the end of the first round, at the same place, and leaves the repetition instead. -/
theorem not_search_forward_preferred :
    ¬ ∀ (pattern : String) (regex : Regex) (node : Node),
      Regex.compile pattern true false = .ok regex → Pattern.parse pattern = .ok node →
      ∀ text : Source, (regex.matchAt text 0 text.size .forward).map (·.slots.toList) =
        (node.preferred? text (2 * node.groupNumbers.length)).map (·.slots) := by
  have hcompile : Regex.compile "(a*?)*" true false = .ok ⟨"(a*?)*", #[.split [3, 1], .oneOf .any,
      .jump 0, .save 0, .split [5, 11], .save 2, .split [9, 7], .char 'a', .jump 6, .save 3,
      .jump 4, .save 1, .accept], 4, false⟩ := by
    cbv
  have hparse : Pattern.parse "(a*?)*" = .ok (.group (some 0) [[.loop .zeroOrMore true
      (.group (some 1) [[.loop .zeroOrMore false (.char 'a')]])]]) := by
    cbv
  have hmatch : (Regex.matchAt ⟨"(a*?)*", #[.split [3, 1], .oneOf .any, .jump 0, .save 0,
      .split [5, 11], .save 2, .split [9, 7], .char 'a', .jump 6, .save 3, .jump 4, .save 1,
      .accept], 4, false⟩ (.ofList "aa".toList) 0 2 .forward).map (·.slots.toList) =
      some [some 0, some 1, some 0, some 1] := by
    cbv
  have hpreferred : (Node.preferred? (.group (some 0) [[.loop .zeroOrMore true
      (.group (some 1) [[.loop .zeroOrMore false (.char 'a')]])]]) (.ofList "aa".toList) 4).map
      (·.slots) = some [some 0, some 2, some 1, some 2] := by
    cbv
  intro h
  have hsame := (hmatch.symm.trans (h _ _ _ hcompile hparse (.ofList "aa".toList))).trans hpreferred
  revert hsame
  decide

end Emend
