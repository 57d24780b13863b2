import Emend.Pattern.Regex
import Emend.Proofs.Pattern.Lockstep

/-!
# The loop that searches

A program for searching begins with a lazy loop over any characters. Its threads for all possible
starts of a match share one list and drop each other there, and yet the run answers what the first
start that comes to anything would answer alone (`answer_lead_some`), and nothing if none does
(`answer_lead_none`); so it tries all places of the walk in order (`answer_lead_places`).

At each place the loop adds two threads to what is there, one at the beginning of the body and,
behind all that comes from it, one that passes a character (`follow_lead`).
-/

namespace Emend

/-! ## The places of a walk -/

namespace Direction

variable {direction : Direction} {position bound start : Nat}

/-- The places of a walk from one place to another, in the order in which it comes to them. -/
def places : Direction → Nat → Nat → List Nat
  | .forward, position, bound => List.range' position (bound + 1 - position)
  | .backward, position, bound => (List.range' bound (position + 1 - bound)).reverse

/-- The places up to a bound lie ahead of the position, and the bound ahead of them. -/
theorem mem_places : start ∈ direction.places position bound ↔
    direction.Ahead position start ∧ direction.Ahead start bound := by
  cases direction with
  | forward =>
    rw [places, List.mem_range'_1]
    simp only [Ahead]
    omega
  | backward =>
    rw [places, List.mem_reverse, List.mem_range'_1]
    simp only [Ahead]
    omega

/-- A walk comes to its first place and, if that is not its last, goes on from the next. -/
theorem places_eq (h : direction.Ahead position bound) :
    direction.places position bound = position ::
      if position = bound then [] else direction.places (direction.step position) bound := by
  by_cases hend : position = bound
  · subst hend
    rw [if_pos rfl]
    cases direction with
    | forward => rw [places, Nat.add_sub_cancel_left]; rfl
    | backward => rw [places, Nat.add_sub_cancel_left]; rfl
  · rw [if_neg hend]
    cases direction with
    | forward =>
      have hlt : position < bound := Nat.lt_of_le_of_ne h hend
      rw [places, show bound + 1 - position = bound + 1 - (position + 1) + 1 by omega,
        List.range'_succ]
      rfl
    | backward =>
      have hlt : bound < position := Nat.lt_of_le_of_ne h (Ne.symm hend)
      rw [places, show position + 1 - bound = position - 1 + 1 - bound + 1 by omega,
        List.range'_1_concat, List.reverse_concat,
        show bound + (position - 1 + 1 - bound) = position by omega]
      rfl

end Direction

/-- If two partial functions agree in what is seen of them, the first results in a list do. -/
theorem map_findSome?_congr {α β γ δ : Type} {f : α → Option β} {g : α → Option γ} {F : β → δ}
    {G : γ → δ} {xs : List α} (h : ∀ x ∈ xs, (f x).map F = (g x).map G) :
    (xs.findSome? f).map F = (xs.findSome? g).map G := by
  induction xs with
  | nil => rfl
  | cons x rest ih =>
    have hx := h x List.mem_cons_self
    have hrest := ih fun other hmem => h other (List.mem_cons_of_mem _ hmem)
    rw [List.findSome?_cons, List.findSome?_cons]
    cases hf : f x with
    | none =>
      rw [hf] at hx
      rw [Option.map_eq_none_iff.1 hx.symm]
      exact hrest
    | some result =>
      rw [hf] at hx
      obtain ⟨other, hother, heq⟩ := Option.map_eq_some_iff.1 hx.symm
      rw [hother]
      exact congrArg some heq.symm

namespace Machine

variable {program : Array Instr} {text : Source} {direction : Direction} {bound position : Nat}
  {slots : Slots}

/-- The program begins with the loop that searches, and what follows it never goes back there. -/
structure Lead (program : Array Instr) : Prop where
  /-- The body is preferred to a later start. -/
  choice : program[0]? = some (.split [3, 1])
  /-- A later start passes a character. -/
  pass : program[1]? = some (.oneOf .any)
  /-- After it the loop begins again. -/
  again : program[2]? = some (.jump 0)
  /-- The body goes on within itself. -/
  body : ∀ (text : Source) (position : Nat) (thread : Thread), 3 ≤ thread.pc →
    ∀ next ∈ onward program text position thread, 3 ≤ next.pc

/-- What a thread at the beginning of the loop adds to a list without marks but that of the jump:
all that comes from the body, and then the thread that passes a character. -/
theorem follow_lead (h : Lead program) {list : ThreadList} (hwaiting : list.waiting.toList = [])
    (hseen : ∀ pc : Nat, pc ≠ 2 →
      list.seen[pc]? = (ThreadList.empty program.size).seen[pc]?) :
    (follow program text position list [⟨0, slots⟩]).waiting.toList =
      (follow program text position (.empty program.size) [⟨3, slots⟩]).waiting.toList ++
        [⟨1, slots⟩] := by
  have hempty : ∀ pc : Nat, pc < program.size →
      (ThreadList.empty program.size).seen[pc]? = some false := by
    intro pc hlt
    simp only [ThreadList.empty, Array.getElem?_replicate, if_pos hlt]
  have hlt : 1 < program.size := (Array.getElem?_eq_some_iff.1 h.pass).1
  have hzero : list.seen[(⟨0, slots⟩ : Thread).pc]? = some false := by
    rw [hseen _ (Nat.zero_ne_add_one 1), hempty _ (Nat.lt_trans Nat.zero_lt_one hlt)]
  have honward : onward program text position ⟨0, slots⟩ = [⟨3, slots⟩, ⟨1, slots⟩] := by
    unfold onward
    rw [h.choice]
    rfl
  -- The body does not see the marks of the loop, and leaves the loop's second address alone.
  obtain ⟨added, hlist, hother, houtside⟩ := follow_region (R := fun pc => 3 ≤ pc)
    (h.body text position) (visit program list ⟨0, slots⟩) (.empty program.size)
    [⟨3, slots⟩] (by simp) (by
      intro pc hpc
      rw [getElem?_seen_visit hzero,
        if_neg (Nat.ne_of_gt (Nat.lt_of_lt_of_le (Nat.zero_lt_succ 2) hpc))]
      exact hseen pc (Nat.ne_of_gt (Nat.lt_of_lt_of_le (by decide) hpc)))
  have hvisit : (visit program list ⟨0, slots⟩).waiting.toList = [] := by
    rw [waiting_visit, hwaiting, h.choice]
    rfl
  have hone : (follow program text position (visit program list ⟨0, slots⟩)
      [⟨3, slots⟩]).seen[(⟨1, slots⟩ : Thread).pc]? = some false := by
    rw [houtside 1 (by decide), getElem?_seen_visit hzero, if_neg Nat.one_ne_zero,
      hseen 1 (by decide), hempty 1 hlt]
  have hstop : onward program text position ⟨1, slots⟩ = [] := onward_of_stop h.pass rfl
  rw [follow_visit hzero, honward, List.append_nil, ← List.singleton_append, follow_append,
    follow_visit hone, hstop, List.append_nil, follow_nil, waiting_visit, hlist, hother, hvisit,
    h.pass]
  rfl

/-- The thread that passes a character comes back to the beginning of the loop. -/
theorem ahead_lead (h : Lead program) (c : Char) :
    ahead program text position c [⟨1, slots⟩] =
      (follow program text position (.empty program.size) [⟨0, slots⟩]).waiting.toList := by
  have hlt : 2 < program.size := (Array.getElem?_eq_some_iff.1 h.again).1
  have htwo : (ThreadList.empty program.size).seen[(⟨2, slots⟩ : Thread).pc]? = some false := by
    simp only [ThreadList.empty, Array.getElem?_replicate, if_pos hlt]
  have htaken : taken program c [⟨1, slots⟩] = [⟨2, slots⟩] := by
    unfold taken takes
    rw [List.filter_cons_of_pos (by rw [h.pass]; rfl)]
    rfl
  have honward : onward program text position ⟨2, slots⟩ = [⟨0, slots⟩] := by
    unfold onward
    rw [h.again]
  have hvisit : (visit program (.empty program.size) ⟨2, slots⟩).waiting.toList = [] := by
    rw [waiting_visit, h.again]
    rfl
  -- The jump leaves a mark, but no thread of the loop comes to it again.
  rw [ahead, htaken, follow_visit htwo, honward, List.append_nil,
    follow_lead h hvisit fun pc hpc => by rw [getElem?_seen_visit htwo, if_neg hpc]]
  exact (follow_lead h rfl fun _ _ => rfl).symm

/-- A run of the loop tries the body here and then, if a character is left, begins again after
it. -/
theorem answer_lead (h : Lead program) :
    answer program text bound direction position ⟨0, slots⟩ =
      (answer program text bound direction position ⟨3, slots⟩).or
        (if position = bound then none
        else match text.next? direction position with
          | none => none
          | some _ =>
            answer program text bound direction (direction.step position) ⟨0, slots⟩) := by
  have hlist : (follow program text position (.empty program.size)
      [⟨0, slots⟩]).waiting.toList =
      (follow program text position (.empty program.size) [⟨3, slots⟩]).waiting.toList ++
        [⟨1, slots⟩] := follow_lead h rfl fun _ _ => rfl
  have hnone : ∀ thread ∈ [(⟨1, slots⟩ : Thread)], accepts program thread = false := by
    intro thread hmem
    rw [List.mem_singleton.1 hmem, accepts, h.pass]
    rfl
  unfold answer
  rw [hlist, loop_append (waiting_follow_empty _), loop_eq [⟨1, slots⟩], accepted_eq_none hnone,
    going_eq_self hnone]
  congr 1
  split
  · rfl
  · cases text.next? direction position with
    | none => rfl
    | some c =>
      dsimp only
      rw [ahead_lead h]
      rfl

/-- **A search tries all places in order**, and answers what the body answers first. -/
theorem answer_lead_places (h : Lead program) (hbound : direction.Ahead position bound)
    (hposition : position ≤ text.size) (hsize : bound ≤ text.size) :
    answer program text bound direction position ⟨0, slots⟩ =
      (direction.places position bound).findSome? fun start =>
        answer program text bound direction start ⟨3, slots⟩ := by
  induction position using loop_induction text direction with
  | step position ih =>
    rw [answer_lead h, Direction.places_eq hbound, List.findSome?_cons]
    cases answer program text bound direction position ⟨3, slots⟩ with
    | some found => rfl
    | none =>
      rw [Option.none_or]
      dsimp only
      by_cases hend : position = bound
      · rw [if_pos hend, if_pos hend]
        rfl
      · obtain ⟨c, hnext⟩ := hbound.exists_next hend hposition hsize
        rw [if_neg hend, if_neg hend, hnext]
        exact ih c hnext (hbound.eq_or_step.resolve_left hend)
          (Direction.step_le_size hnext hposition)

/-- **A search answers what the first start answers.** The answer of the loop is that of the body at
the first place at which the body answers at all. -/
theorem answer_lead_some (h : Lead program) (hbound : direction.Ahead position bound)
    {noted : Slots}
    (hanswer : answer program text bound direction position ⟨0, slots⟩ = some noted) :
    ∃ start, direction.Ahead position start ∧ direction.Ahead start bound ∧
      answer program text bound direction start ⟨3, slots⟩ = some noted ∧
      ∀ earlier, direction.Ahead position earlier → direction.Ahead earlier start →
        earlier ≠ start → answer program text bound direction earlier ⟨3, slots⟩ = none := by
  induction position using loop_induction text direction with
  | step position ih =>
    rw [answer_lead h] at hanswer
    cases hhere : answer program text bound direction position ⟨3, slots⟩ with
    | some found =>
      -- The body answers here, and no place lies before this one.
      rw [hhere, Option.some_or] at hanswer
      refine ⟨position, .refl _ _, hbound, hhere.trans hanswer, ?_⟩
      intro earlier hposition hearlier hne
      exact absurd (hearlier.antisymm hposition) hne
    | none =>
      rw [hhere, Option.none_or] at hanswer
      split at hanswer
      · cases hanswer
      · next hinside =>
        split at hanswer
        · cases hanswer
        · next c hnext =>
          -- The body answers nothing here, so the first place is the first one from the next on.
          have hstep := hbound.eq_or_step.resolve_left hinside
          obtain ⟨start, hstart, hstop, hfound, hfirst⟩ := ih c hnext hstep hanswer
          refine ⟨start, (direction.ahead_step position).trans hstart, hstop, hfound, ?_⟩
          intro earlier hposition hearlier hne
          rcases hposition.eq_or_step with rfl | hafter
          · exact hhere
          · exact hfirst earlier hafter hearlier hne

/-- **A search without an answer has tried every start.** -/
theorem answer_lead_none (h : Lead program) (hbound : direction.Ahead position bound)
    (hposition : position ≤ text.size) (hsize : bound ≤ text.size)
    (hanswer : answer program text bound direction position ⟨0, slots⟩ = none) {start : Nat}
    (hstart : direction.Ahead position start) (hstop : direction.Ahead start bound) :
    answer program text bound direction start ⟨3, slots⟩ = none := by
  rw [answer_lead_places h hbound hposition hsize, List.findSome?_eq_none_iff] at hanswer
  exact hanswer start (Direction.mem_places.2 ⟨hstart, hstop⟩)

end Machine

end Emend
