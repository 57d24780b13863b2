import Emend.Proofs.Pattern.Search

/-!
# Searching backward

A program for searching backward holds the nodes of each sequence in reverse and is run from the
right end of a window to its left end. What a search answers is known for either direction
(`exists_of_search`, `isSome_search_iff`); here it is said in terms of the pattern. The run notes
the right end of a group as the first of its two places, and puts them in order in the end
(`inOrder_backward`). So it finds a match that ends last (`search_backward`), and it finds one just
if a search forward does.
-/

namespace Emend

open Machine

variable {text : Source} {noted : Slots} {start stop first bound : Nat}

/-- The two places of the whole match that a run backward has noted, in order. -/
theorem inOrder_backward (hzero : noted[0]? = some (some stop))
    (hone : noted[1]? = some (some start)) (hle : start ≤ stop) :
    (Direction.backward.inOrder noted)[0]? = some (some start) ∧
      (Direction.backward.inOrder noted)[1]? = some (some stop) := by
  simp only [Direction.inOrder, List.getElem?_toArray]
  rw [← Array.getElem?_toList] at hzero hone
  obtain ⟨rest, hlist⟩ : ∃ rest, noted.toList = some stop :: some start :: rest := by
    match noted.toList, hzero, hone with
    | _ :: _ :: rest, hzero, hone =>
      cases hzero
      cases hone
      exact ⟨rest, rfl⟩
  rw [hlist]
  -- The places are exchanged unless they are the same.
  by_cases hlt : start < stop
  · simp only [orderPairs, orderPair, if_pos hlt]
    exact ⟨rfl, rfl⟩
  · obtain rfl : start = stop := Nat.le_antisymm hle (Nat.le_of_not_lt hlt)
    simp only [orderPairs, orderPair, if_neg hlt]
    exact ⟨rfl, rfl⟩

section Backward

variable {pattern : String} {regex : Regex}

/-- A search backward answers if the pattern matches anywhere. -/
theorem isSome_matchAt_backward_iff (hcompile : Regex.compile pattern true true = .ok regex)
    (hfirst : first ≤ bound) (hbound : bound ≤ text.size) :
    (regex.matchAt text bound first .backward).isSome = true ↔ ∃ start stop, first ≤ start ∧
      start ≤ stop ∧ stop ≤ bound ∧ Pattern.MatchesRange pattern text start stop := by
  obtain ⟨node, hparse, rfl⟩ := node_of_compile hcompile
  have hlast : first ≤ text.size := Nat.le_trans hfirst hbound
  have hahead : Direction.backward.Ahead bound first := hfirst
  rw [matchAt_ofProgram pattern _ true .backward hbound hlast, Option.isSome_map]
  refine (isSome_search_iff hparse hahead hbound hlast (two_le_size_slots _)).trans ?_
  -- The run begins a match at its right end and ends it at its left end.
  constructor
  · rintro ⟨stop, start, hstop, hstart, hcovers⟩
    have hle : start ≤ stop := Node.Matches.le hcovers
    exact ⟨start, stop, hstart, hle, hstop, (matchesRange_iff hparse _ _).2 hcovers⟩
  · rintro ⟨start, stop, hstart, _, hstop, hmatches⟩
    exact ⟨stop, start, hstop, hstart, (matchesRange_iff hparse _ _).1 hmatches⟩

/-- What a search backward answers is a match, and none ends behind it. -/
theorem rightmost_of_matchAt (hcompile : Regex.compile pattern true true = .ok regex)
    (hfirst : first ≤ bound) (hbound : bound ≤ text.size) {captures : Captures}
    (hcaptures : regex.matchAt text bound first .backward = some captures) :
    captures.group? 0 = some (captures.start, captures.stop) ∧ first ≤ captures.start ∧
      captures.start ≤ captures.stop ∧ captures.stop ≤ bound ∧
      Pattern.MatchesRange pattern text captures.start captures.stop ∧
      ∀ start stop, first ≤ start → stop ≤ bound →
        Pattern.MatchesRange pattern text start stop → stop ≤ captures.stop := by
  obtain ⟨node, hparse, rfl⟩ := node_of_compile hcompile
  have hlast : first ≤ text.size := Nat.le_trans hfirst hbound
  have hahead : Direction.backward.Ahead bound first := hfirst
  rw [matchAt_ofProgram pattern _ true .backward hbound hlast] at hcaptures
  obtain ⟨noted, hanswer, rfl⟩ := Option.map_eq_some_iff.1 hcaptures
  obtain ⟨stop, start, hzero, hone, hstop, hstart, hcovers, hgreatest⟩ :=
    exists_of_search hparse hahead (two_le_size_slots _) hanswer
  have hle : start ≤ stop := Node.Matches.le hcovers
  obtain ⟨hzero', hone'⟩ := inOrder_backward hzero hone hle
  obtain ⟨hcapturesStart, hcapturesStop, hwhole⟩ := captures_whole hzero' hone'
  rw [hcapturesStart, hcapturesStop]
  refine ⟨hwhole, hstart, hle, hstop, (matchesRange_iff hparse _ _).2 hcovers, ?_⟩
  intro start' stop' hstart' hstop' hmatches
  exact hgreatest stop' start' hstop' hstart' ((matchesRange_iff hparse _ _).1 hmatches)

/-- Searches forward and backward find a match in the same windows. -/
theorem isSome_matchAt_both (hcompile : Regex.compile pattern true true = .ok regex)
    (hfirst : first ≤ bound) (hbound : bound ≤ text.size) {forward : Regex}
    (hforward : Regex.compile pattern true false = .ok forward) :
    (forward.matchAt text first bound .forward).isSome =
      (regex.matchAt text bound first .backward).isSome := by
  rw [Bool.eq_iff_iff, isSome_matchAt_iff hforward hfirst hbound,
    isSome_matchAt_backward_iff hcompile hfirst hbound]

end Backward

/-- **A search backward is the mirror of a search forward.** There is an answer just if the pattern
matches somewhere between the two places; then it is a match of the pattern there, and no match ends
behind it. The pattern compiles for searching forward as well, and that search answers in the same
windows. -/
theorem search_backward {pattern : String} {regex : Regex}
    (hcompile : Regex.compile pattern true true = .ok regex) (text : Source) {first bound : Nat}
    (hfirst : first ≤ bound) (hbound : bound ≤ text.size) :
    ((regex.matchAt text bound first .backward).isSome = true ↔ ∃ start stop, first ≤ start ∧
      start ≤ stop ∧ stop ≤ bound ∧ Pattern.MatchesRange pattern text start stop) ∧
    (∀ captures, regex.matchAt text bound first .backward = some captures →
      captures.group? 0 = some (captures.start, captures.stop) ∧ first ≤ captures.start ∧
        captures.start ≤ captures.stop ∧ captures.stop ≤ bound ∧
        Pattern.MatchesRange pattern text captures.start captures.stop ∧
        ∀ start stop, first ≤ start → stop ≤ bound →
          Pattern.MatchesRange pattern text start stop → stop ≤ captures.stop) ∧
    ∃ forward, Regex.compile pattern true false = .ok forward ∧
      (forward.matchAt text first bound .forward).isSome =
        (regex.matchAt text bound first .backward).isSome := by
  obtain ⟨node, hparse, _⟩ := node_of_compile hcompile
  have hforward := compile_of_parse hparse true false
  exact ⟨isSome_matchAt_backward_iff hcompile hfirst hbound,
    fun _ hcaptures => rightmost_of_matchAt hcompile hfirst hbound hcaptures,
    _, hforward, isSome_matchAt_both hcompile hfirst hbound hforward⟩

/-- A repetition in front of a character that does not match. -/
theorem search_backward_repetition :
    ∃ regex captures, Regex.compile "ab+" true true = .ok regex ∧
      regex.matchAt (.ofList "abxabbx".toList) 7 0 .backward = some captures ∧
      captures.group? 0 = some (captures.start, captures.stop) ∧
      Pattern.MatchesRange "ab+" (.ofList "abxabbx".toList) captures.start captures.stop ∧
      ∀ start stop, stop ≤ 7 →
        Pattern.MatchesRange "ab+" (.ofList "abxabbx".toList) start stop →
          stop ≤ captures.stop := by
  have hcompile : Regex.compile "ab+" true true = .ok ⟨"ab+", #[.split [3, 1], .oneOf .any,
      .jump 0, .save 0, .char 'b', .split [4, 6], .char 'a', .save 1, .accept], 2, true⟩ := by
    cbv
  have hmatch : Regex.matchAt ⟨"ab+", #[.split [3, 1], .oneOf .any, .jump 0, .save 0, .char 'b',
      .split [4, 6], .char 'a', .save 1, .accept], 2, true⟩ (.ofList "abxabbx".toList) 7 0
      .backward = some ⟨#[some 3, some 6]⟩ := by
    cbv
  obtain ⟨_, hcaptures, _⟩ := search_backward hcompile (.ofList "abxabbx".toList)
    (Nat.zero_le 7) (Nat.le_refl 7)
  obtain ⟨hwhole, _, _, _, hmatches, hgreatest⟩ := hcaptures _ hmatch
  exact ⟨_, _, hcompile, hmatch, hwhole, hmatches, fun start stop => hgreatest start stop
    (Nat.zero_le start)⟩

end Emend
