import Emend.Proofs.Pattern.Relocation
import Emend.Proofs.Pattern.Search
import Emend.Proofs.Pattern.Slots

/-!
# Searching and matching in place

A program for searching is one for matching in place, three addresses further on, with the loop that
searches in front of it (`relocated_search`). The loop tries the places of the window in order, and
what it tries at each of them is what the program without it would answer there
(`matchAt_search`). So a search answers what matching in place answers first, with the same slots,
in either direction (`search_eq_anchored`).
-/

namespace Emend

open Machine

variable {text : Source} {direction : Direction} {bound position : Nat} {node : Node}

/-- An anchored program is the code of its pattern and an acceptance. -/
theorem programOf_anchored (node : Node) (backward : Bool) :
    Regex.programOf node false backward = node.code backward 0 ++ [.accept] :=
  rfl

/-- Behind the loop stands the program that matches in place. -/
theorem relocated_search (hproper : node.IsProper) (backward : Bool) :
    Relocated 3 (Regex.programOf node false backward).toArray
      (Regex.programOf node true backward).toArray := by
  have hcode : node.code backward 3 = (node.code backward 0).map (Instr.relocate 3) :=
    hproper.code_relocated backward 3 0
  have hmoved : node.code backward 3 ++ [.accept] =
      (Regex.programOf node false backward).map (Instr.relocate 3) := by
    rw [programOf_anchored, List.map_append, hcode]
    rfl
  intro pc
  rw [List.getElem?_toArray, List.getElem?_toArray, programOf_search, hmoved, ← List.getElem?_map]
  rfl

/-- **A search tries to match in place**, at one place of the window after the other. -/
theorem matchAt_search {pattern : String} (hparse : Pattern.parse pattern = .ok node)
    (hbound : direction.Ahead position bound) (hposition : position ≤ text.size)
    (hsize : bound ≤ text.size) :
    (Regex.ofProgram pattern (Regex.programOf node true direction.isBackward)
        direction.isBackward).matchAt text position bound direction =
      (direction.places position bound).findSome? fun start =>
        (Regex.ofProgram pattern (Regex.programOf node false direction.isBackward)
          direction.isBackward).matchAt text start bound direction := by
  obtain ⟨hproper, _, _⟩ := Pattern.groupNumbers_parse hparse
  have hlead := lead_search hproper direction.isBackward
  have hrelocated := relocated_search hproper direction.isBackward
  -- Both programs have as many slots, since the loop notes nothing.
  have hslots : Regex.slotsFor (Regex.programOf node true direction.isBackward) =
      Regex.slotsFor (Regex.programOf node false direction.isBackward) := by
    rw [slotsFor_programOf hparse, slotsFor_programOf hparse]
  rw [matchAt_ofProgram _ _ _ _ hposition hsize, answer_lead_places hlead hbound hposition hsize,
    hslots]
  refine (map_findSome?_congr (G := id) fun start hstart => ?_).trans (congrFun Option.map_id _)
  obtain ⟨hahead, hstop⟩ := Direction.mem_places.1 hstart
  have hle : start ≤ text.size := by
    cases direction with
    | forward => exact Nat.le_trans hstop hsize
    | backward => exact Nat.le_trans hahead hposition
  rw [matchAt_ofProgram _ _ _ _ hle hsize, Option.map_id, ← hrelocated.answer]
  rfl

/-- **A search answers what matching in place answers first.** A pattern that compiles at all
compiles in every mode. In a window of a text, a search forward answers what the program without the
loop answers at the first place from the left at which it answers, with the same slots, and nothing
if it answers nowhere; and a search backward answers the same from the right. -/
theorem search_eq_anchored {pattern : String} {search backward : Bool} {regex : Regex}
    (hcompile : Regex.compile pattern search backward = .ok regex) :
    ∃ compiled : Bool → Bool → Regex,
      (∀ search backward, Regex.compile pattern search backward = .ok (compiled search backward)) ∧
      ∀ (text : Source) (first bound : Nat), first ≤ bound → bound ≤ text.size →
        (compiled true false).matchAt text first bound .forward =
          (List.range' first (bound + 1 - first)).findSome? (fun start =>
            (compiled false false).matchAt text start bound .forward) ∧
        (compiled true true).matchAt text bound first .backward =
          (List.range' first (bound + 1 - first)).reverse.findSome? (fun start =>
            (compiled false true).matchAt text start first .backward) := by
  obtain ⟨node, hparse, _⟩ := node_of_compile hcompile
  refine ⟨_, compile_of_parse hparse, ?_⟩
  intro text first bound hfirst hbound
  have hlast : first ≤ text.size := Nat.le_trans hfirst hbound
  have hforward : Direction.forward.Ahead first bound := hfirst
  have hbackward : Direction.backward.Ahead bound first := hfirst
  exact ⟨matchAt_search hparse hforward hlast hbound,
    matchAt_search hparse hbackward hbound hlast⟩

/-- A choice whose second branch also matches inside the first. -/
theorem search_eq_anchored_choice :
    ∃ searching anchored, Regex.compile "ab|b" true false = .ok searching ∧
      Regex.compile "ab|b" false false = .ok anchored ∧
      searching.matchAt (.ofList "xab".toList) 0 3 .forward =
        anchored.matchAt (.ofList "xab".toList) 1 3 .forward ∧
      anchored.matchAt (.ofList "xab".toList) 1 3 .forward = some ⟨#[some 1, some 3]⟩ := by
  have hcompile : Regex.compile "ab|b" false false = .ok ⟨"ab|b", #[.save 0, .split [2, 5],
      .char 'a', .char 'b', .jump 6, .char 'b', .save 1, .accept], 2, false⟩ := by
    cbv
  obtain ⟨compiled, hcompiled, hsearch⟩ := search_eq_anchored hcompile
  obtain ⟨hforward, _⟩ := hsearch (.ofList "xab".toList) 0 3 (Nat.zero_le 3) (Nat.le_refl 3)
  have hanchored : compiled false false = ⟨"ab|b", #[.save 0, .split [2, 5], .char 'a', .char 'b',
      .jump 6, .char 'b', .save 1, .accept], 2, false⟩ :=
    Except.ok.inj ((hcompiled false false).symm.trans hcompile)
  have hzero : (compiled false false).matchAt (.ofList "xab".toList) 0 3 .forward = none := by
    rw [hanchored]
    cbv
  have hone : (compiled false false).matchAt (.ofList "xab".toList) 1 3 .forward =
      some ⟨#[some 1, some 3]⟩ := by
    rw [hanchored]
    cbv
  refine ⟨_, _, hcompiled true false, hcompiled false false, ?_, hone⟩
  rw [hforward, hone, List.range'_succ, List.findSome?_cons, hzero, List.range'_succ,
    List.findSome?_cons, hone]

end Emend
