import Emend.Proofs.Pattern.Agreement

/-!
# Searches in a part of the text

A run reads the text in two ways: it passes characters up to its bound, and it asks whether
assertions hold. So without assertions it does not notice what lies behind the bound, and answers
what it would answer if the text ended there (`answer_upTo`). In this way a search up to a bound
finds the preferred way to match in the text up to the bound (`matchAt_eq_preferred_upTo`), although
another way may be preferred in the whole text. The same holds of matching in place
(`matchAt_anchored_eq_preferredAt_upTo`).
-/

namespace Emend

/-- The text up to a position. -/
def Source.upTo (text : Source) (bound : Nat) : Source :=
  { text with size := min bound text.size }

namespace Source

variable {text : Source} {bound position : Nat}

/-- A text up to a bound ends there. -/
@[simp]
theorem size_upTo (h : bound ≤ text.size) : (text.upTo bound).size = bound :=
  Nat.min_eq_left h

/-- Before the bound the text is the same, and there it ends. -/
theorem charAt?_upTo (text : Source) (bound position : Nat) :
    (text.upTo bound).charAt? position =
      if position < bound then text.charAt? position else none := by
  unfold charAt? upTo
  dsimp only
  by_cases hbound : position < bound
  · rw [if_pos hbound]
    exact if_congr ⟨fun h => Nat.lt_of_lt_of_le h (Nat.min_le_right _ _),
      fun h => Nat.lt_min.2 ⟨hbound, h⟩⟩ rfl rfl
  · rw [if_neg hbound, if_neg fun h => hbound (Nat.lt_of_lt_of_le h (Nat.min_le_left _ _))]

/-- Up to the bound it is the same text. -/
theorem agreesBelow_upTo (text : Source) (bound : Nat) :
    text.AgreesBelow bound (text.upTo bound) := by
  intro position hlt
  rw [charAt?_upTo, if_pos hlt]

end Source

namespace Machine

variable {program : Array Instr} {text other : Source} {bound position : Nat}

/-- Whether the program asks for nothing but characters. -/
def assertsNothing (program : Array Instr) : Bool :=
  program.all fun instr =>
    match instr with
    | .assert _ => false
    | _ => true

/-- At one place nothing is read of the text. -/
theorem onward_of_assertsNothing (h : assertsNothing program = true) (thread : Thread) :
    onward program text position thread = onward program other position thread := by
  unfold onward
  split
  · next assertion hinstr =>
    have hnone := Array.all_eq_true_iff_forall_mem.1 h _ (Array.mem_of_getElem? hinstr)
    cases hnone
  all_goals rfl

/-- Without assertions, following threads does not depend on the text. -/
theorem follow_of_assertsNothing (h : assertsNothing program = true) (list : ThreadList)
    (threads : List Thread) :
    follow program text position list threads = follow program other position list threads := by
  induction list, threads using follow_induction program text position with
  | nil list => rw [follow_nil, follow_nil]
  | skip list thread rest hseen ih => rw [follow_skip hseen, follow_skip hseen, ih]
  | visit list thread rest hseen ih =>
    rw [follow_visit hseen, follow_visit hseen, ih, onward_of_assertsNothing h]

/-- A run reads no more than the characters before its bound. -/
theorem loop_of_assertsNothing (h : assertsNothing program = true)
    (hagree : text.AgreesBelow bound other) (hposition : position ≤ bound)
    (threads : List Thread) (best : Option Slots) :
    loop program text bound .forward position threads best =
      loop program other bound .forward position threads best := by
  induction hleft : bound - position generalizing position threads best with
  | zero =>
    obtain rfl : position = bound := by omega
    rw [loop_eq, loop_eq, if_pos rfl, if_pos rfl]
  | succ count ih =>
    have hlt : position < bound := by omega
    have hnext : text.next? .forward position = other.next? .forward position :=
      hagree position hlt
    rw [loop_eq, loop_eq, if_neg (Nat.ne_of_lt hlt), if_neg (Nat.ne_of_lt hlt), hnext]
    cases other.next? .forward position with
    | none => rfl
    | some c =>
      have hstep : Direction.forward.step position ≤ bound := hlt
      have hcount : bound - Direction.forward.step position = count := by
        simp only [Direction.step]
        omega
      dsimp only
      rw [ih hstep _ _ hcount, ahead, ahead, follow_of_assertsNothing h]

/-- **What lies behind the bound does not count.** -/
theorem answer_upTo (h : assertsNothing program = true) (hposition : position ≤ bound)
    (thread : Thread) :
    answer program text bound .forward position thread =
      answer program (text.upTo bound) bound .forward position thread := by
  unfold answer
  rw [loop_of_assertsNothing h (text.agreesBelow_upTo bound) hposition, follow_of_assertsNothing h]

end Machine

open Machine

variable {text : Source} {bound position : Nat} {pattern : String} {regex : Regex} {node : Node}

/-- A search up to a bound is one of the text up to there. -/
theorem matchAt_upTo (hasserts : assertsNothing regex.program = true) (hposition : position ≤ bound)
    (hbound : bound ≤ text.size) :
    regex.matchAt text position bound .forward =
      regex.matchAt (text.upTo bound) position (text.upTo bound).size .forward := by
  unfold Regex.matchAt
  rw [Source.size_upTo hbound, Nat.min_self, Nat.min_eq_left hbound, Nat.min_eq_left hposition,
    Nat.min_eq_left (Nat.le_trans hposition hbound)]
  exact congrArg (Option.map _) (answer_upTo hasserts hposition _)

/-- **Matching in place up to a bound finds the preferred way in the text up to there**, if the
pattern is steady and asks for nothing but characters. -/
theorem matchAt_anchored_eq_preferredAt_upTo (pattern : String) (hproper : node.IsProper)
    (hsteady : node.steady = true)
    (hasserts : assertsNothing (Regex.programOf node false false).toArray = true)
    (hposition : position ≤ bound) (hbound : bound ≤ text.size) :
    ((Regex.ofProgram pattern (Regex.programOf node false false) false).matchAt text position bound
        .forward).map (·.slots.toList) =
      (node.preferredAt? (text.upTo bound) (Regex.slotsFor (Regex.programOf node false false))
        position).map (·.slots) := by
  have hle : position ≤ (text.upTo bound).size := (Source.size_upTo hbound).symm ▸ hposition
  have hanswer := (compiledAt_anchored node .forward).answer_of_steady hproper hsteady hle
    (Array.replicate (Regex.slotsFor (Regex.programOf node false false)) none)
  rw [Array.toList_replicate] at hanswer
  rw [matchAt_upTo hasserts hposition hbound, matchAt_forward pattern _ false hle (Nat.le_refl _),
    Option.map_map]
  exact hanswer

/-- A search finds the preferred way from the first place from which there is one. -/
theorem matchAt_eq_preferred (hcompile : Regex.compile pattern true false = .ok regex)
    (hparse : Pattern.parse pattern = .ok node) (hsteady : node.steady = true)
    (hposition : position ≤ text.size) :
    (regex.matchAt text position text.size .forward).map (·.slots.toList) =
      ((List.range' position (text.size + 1 - position)).findSome?
        (node.preferredAt? text (2 * node.groupNumbers.length))).map (·.slots) := by
  obtain ⟨other, hother, rfl⟩ := node_of_compile hcompile
  rw [hparse] at hother
  cases hother
  obtain ⟨hproper, _, _⟩ := Pattern.groupNumbers_parse hparse
  have hcompiled : CompiledAt (Regex.programOf node true false).toArray .forward node 3 :=
    compiledAt_search _ .forward
  rw [matchAt_forward pattern _ false hposition (Nat.le_refl _),
    answer_lead_eq (lead_search hproper false) hposition, Option.map_map,
    slotsFor_programOf hparse true false]
  refine map_findSome?_congr fun start hstart => ?_
  have hle : start ≤ text.size := by
    obtain ⟨_, hlt⟩ := List.mem_range'_1.1 hstart
    omega
  have hanswer := hcompiled.answer_of_steady hproper hsteady hle
    (Array.replicate (2 * node.groupNumbers.length) none)
  rw [Array.toList_replicate] at hanswer
  exact hanswer

/-- **A search up to a bound finds the preferred way in the text up to there**, if its pattern is
steady and asks for nothing but characters. -/
theorem matchAt_eq_preferred_upTo (hcompile : Regex.compile pattern true false = .ok regex)
    (hparse : Pattern.parse pattern = .ok node) (hsteady : node.steady = true)
    (hasserts : assertsNothing regex.program = true) (hposition : position ≤ bound)
    (hbound : bound ≤ text.size) :
    (regex.matchAt text position bound .forward).map (·.slots.toList) =
      ((List.range' position (bound + 1 - position)).findSome?
        (node.preferredAt? (text.upTo bound) (2 * node.groupNumbers.length))).map (·.slots) := by
  have hsize := Source.size_upTo hbound
  rw [matchAt_upTo hasserts hposition hbound,
    matchAt_eq_preferred hcompile hparse hsteady (hsize.symm ▸ hposition), hsize]

end Emend
