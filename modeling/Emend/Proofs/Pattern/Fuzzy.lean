import Emend.Proofs.Pattern.Anchored
import Emend.Proofs.Pattern.Greedy
import Emend.Proofs.Pattern.Window
import Emend.Text.Embedding

/-!
# Characters in order

The tree that `Regex.fuzzy` looks for is a row of lazy gaps and characters. A gap matches every
stretch up to the end of the line, a shorter one before a longer one, so the ways to match the row
are the embeddings of the characters, and the first of them is the one that takes the first
occurrence of each character in turn (`Node.head?_waysOfRow_fuzzyRow`, by induction on the
characters). Committing to an occurrence never loses a match (`Source.Embeds.commit`), so there is
no way at all if the first occurrences do not embed the characters.

The tree is steady and asks for nothing but characters, so a run answers the preferred way in the
text up to its bound (`matchAt_fuzzy`).
-/

namespace Emend

open Machine

variable {text : Source} {start bound position index count : Nat} {c : Char} {needle : List Char}
  {positions : List Nat}

/-! ## The tree -/

namespace Regex

/-- A gap in a line, and the character behind it. -/
def fuzzyPair (c : Char) (index : Nat) : List Node :=
  [.group (some (2 * index + 1)) [[.loop .zeroOrMore false (.oneOf .dot)]],
    .group (some (2 * index + 2)) [[.char c]]]

/-- The gaps and the characters, numbered from `index` on. -/
def fuzzyRow (needle : List Char) (index : Nat) : List Node :=
  (needle.zipIdx index).flatMap fun (c, i) => fuzzyPair c i

/-- The tree of a needle is one group around its gaps and characters. -/
theorem fuzzyNode_eq (needle : List Char) :
    fuzzyNode needle = .group (some 0) [fuzzyRow needle 0] :=
  rfl

/-- An empty needle has no gaps. -/
@[simp]
theorem fuzzyRow_nil (index : Nat) : fuzzyRow [] index = [] :=
  rfl

/-- The first character comes with the gap before it. -/
theorem fuzzyRow_cons (c : Char) (needle : List Char) (index : Nat) :
    fuzzyRow (c :: needle) index = fuzzyPair c index ++ fuzzyRow needle (index + 1) := by
  rw [fuzzyRow, List.zipIdx_cons, List.flatMap_cons]
  rfl

/-- A group of a single branch is proper if its nodes are. -/
theorem isProper_group_singleton {row : List Node} (index : Nat)
    (h : ∀ node ∈ row, node.IsProper) : Node.IsProper (.group (some index) [row]) :=
  .group (some index) (List.cons_ne_nil _ _) (List.forall_mem_singleton.2 h)

/-- No group of a needle is empty. -/
theorem isProper_fuzzyNode (needle : List Char) : (fuzzyNode needle).IsProper := by
  refine isProper_group_singleton 0 fun node hmem => ?_
  obtain ⟨⟨c, i⟩, _, hpair⟩ := List.mem_flatMap.1 hmem
  rcases List.mem_cons.1 hpair with rfl | hletter
  · exact isProper_group_singleton _
      (List.forall_mem_singleton.2 (.loop .zeroOrMore false (.oneOf .dot)))
  · rw [List.mem_singleton.1 hletter]
    exact isProper_group_singleton _ (List.forall_mem_singleton.2 (.char c))

/-- Gaps repeat single characters, which are never empty. -/
theorem steady_fuzzyRow (needle : List Char) (index : Nat) :
    Node.steadyRow (fuzzyRow needle index) = true := by
  induction needle generalizing index with
  | nil => rw [fuzzyRow_nil, Node.steadyRow]
  | cons c needle ih =>
    rw [fuzzyRow_cons, fuzzyPair, List.cons_append, List.singleton_append, Node.steadyRow,
      Node.steadyRow, ih]
    simp [Node.steady, Node.steadyBranches, Node.steadyRow, Node.nullable]

/-- The tree of a needle is steady, since its gaps repeat single characters. -/
theorem steady_fuzzyNode (needle : List Char) : (fuzzyNode needle).steady = true := by
  rw [fuzzyNode_eq, Node.steady, Node.steadyBranches, Node.steadyBranches, steady_fuzzyRow]
  rfl

/-- Each character adds two groups. -/
@[simp]
theorem rowNumbers_fuzzyRow (needle : List Char) (index : Nat) :
    Node.rowNumbers (fuzzyRow needle index) = List.range' (2 * index + 1) (2 * needle.length) := by
  induction needle generalizing index with
  | nil => rfl
  | cons c needle ih =>
    show _ = List.range' (2 * index + 1) (2 * needle.length + 1 + 1)
    rw [fuzzyRow_cons, Node.rowNumbers_append, ih, List.range'_succ, List.range'_succ]
    rfl

/-- The groups of a needle are numbered without a gap. -/
@[simp]
theorem groupNumbers_fuzzyNode (needle : List Char) :
    (fuzzyNode needle).groupNumbers = List.range (2 * needle.length + 1) := by
  rw [fuzzyNode_eq, Node.groupNumbers_group, Node.branchNumbers_singleton, rowNumbers_fuzzyRow,
    List.range_eq_range', List.range'_succ]
  rfl

/-- There are two slots for the whole match, and four for each character. -/
theorem slotsFor_fuzzy (needle : List Char) :
    slotsFor (programOf (fuzzyNode needle) false false) = 2 * (2 * needle.length + 1) := by
  refine slotsFor_eq (Nat.succ_pos _) fun slot => ?_
  rw [(isProper_fuzzyNode needle).savesOf_programOf false false slot, groupNumbers_fuzzyNode,
    List.mem_range]

/-- The code of a needle has no assertion. -/
theorem assert_notMem_fuzzyRow (needle : List Char) (index base : Nat) (assertion : Assertion) :
    Instr.assert assertion ∉ Node.sequenceCode false base (fuzzyRow needle index) := by
  induction needle generalizing index base with
  | nil =>
    rw [fuzzyRow_nil, Node.sequenceCode]
    exact List.not_mem_nil
  | cons c needle ih =>
    rw [fuzzyRow_cons, fuzzyPair, List.cons_append, List.singleton_append]
    simp [Node.sequenceCode, Node.code, Node.choiceCode, Instr.choice, ih]

/-- The program of a needle has no assertion. -/
theorem assertsNothing_fuzzy (needle : List Char) :
    assertsNothing (programOf (fuzzyNode needle) false false).toArray = true := by
  refine Array.all_eq_true_iff_forall_mem.2 fun instr hmem => ?_
  have hrow := assert_notMem_fuzzyRow needle 0 1
  rw [programOf_anchored, fuzzyNode_eq, Node.code, Node.choiceCode] at hmem
  cases instr with
  | assert assertion => simp [hrow assertion] at hmem
  | _ => rfl

end Regex

/-! ## The ways -/

/-- What is noted of a gap and of the character behind it. -/
def fuzzyNote (start position : Nat) : List (Option Nat) :=
  [some start, some position, some position, some (position + 1)]

/-- What is noted of the gaps and the characters, for the places of the characters. -/
def fuzzyNotes : Nat → List Nat → List (Option Nat)
  | _, [] => []
  | start, position :: positions =>
    fuzzyNote start position ++ fuzzyNotes (position + 1) positions

/-- Where the last of the characters ends. -/
def fuzzyStop (start : Nat) (positions : List Nat) : Nat :=
  (positions.getLast?.map (· + 1)).getD start

/-- With more characters the match ends where it ends behind the first one. -/
theorem fuzzyStop_cons (start position : Nat) (positions : List Nat) :
    fuzzyStop start (position :: positions) = fuzzyStop (position + 1) positions := by
  unfold fuzzyStop
  rw [List.getLast?_cons, Option.map_some, Option.getD_some]
  cases positions.getLast? <;> rfl

namespace Node

variable {done rest : List (Option Nat)} {slot : Nat}

/-- The slots of the next gap come behind what is noted of this one. -/
theorem length_append_fuzzyNote (hdone : done.length = 4 * index + 2) (start position : Nat) :
    (done ++ fuzzyNote start position).length = 4 * (index + 1) + 2 := by
  rw [List.length_append, hdone]
  rfl

/-- A note behind those that are done. -/
theorem note_append (offset : Nat) (hslot : slot = done.length + offset) (position : Nat) :
    Way.note ⟨position, done ++ rest⟩ slot = ⟨position, done ++ rest.set offset (some position)⟩ := by
  rw [Way.note, hslot, List.set_append_right _ _ (Nat.le_add_right _ _), Nat.add_sub_cancel_left]

/-- The ways of a group that holds a single node. -/
theorem ways_group_singleton (text : Source) (index : Nat) (node : Node) (way : Way) :
    ways text (.group (some index) [[node]]) way =
      (node.ways text (way.note (2 * index))).map (·.note (2 * index + 1)) := by
  rw [ways, waysOfBranches, waysOfBranches, List.append_nil, waysOfRow_singleton]

/-- No line end lies before a place to which the gap reaches. -/
theorem plain_of_covers (h : CharClass.dot.Covers text start count)
    (hposition : position ≤ start + count) {between : Nat} (hstart : start ≤ between)
    (hlt : between < position) : text.charAt? between ≠ some '\n' := by
  intro hhere
  have hinside := h.inside between hstart (Nat.lt_of_lt_of_le hlt hposition)
  rw [hhere, Option.any_some, CharClass.contains_dot] at hinside
  cases hinside

/-- The gap reaches to every character that no line end comes before. -/
theorem le_of_plain (h : CharClass.dot.Covers text start count)
    (hhere : text.charAt? position = some c)
    (hplain : ∀ between, start ≤ between → between < position →
      text.charAt? between ≠ some '\n') : position ≤ start + count := by
  refine Nat.le_of_not_lt fun hlt => hplain _ (Nat.le_add_right _ _) hlt ?_
  have hends := h.ends
  rw [Source.charAt?, if_pos (Nat.lt_trans hlt (Source.lt_size_of_charAt? hhere))] at hends ⊢
  rw [Option.any_some, CharClass.contains_dot, bne_eq_false_iff_eq] at hends
  rw [hends]

/-- The ways of a gap and a character lead to each occurrence of the character in the line, the
first occurrence first. -/
theorem waysOfRow_fuzzyRow_cons (h : CharClass.dot.Covers text start count)
    (hdone : done.length = 4 * index + 2) (c : Char) (needle : List Char) :
    waysOfRow text (Regex.fuzzyRow (c :: needle) index)
        ⟨start, done ++ List.replicate (4 * (c :: needle).length) none⟩ =
      (List.range' start (count + 1)).flatMap fun position =>
        if text.charAt? position = some c then
          waysOfRow text (Regex.fuzzyRow needle (index + 1))
            ⟨position + 1, done ++ fuzzyNote start position ++
              List.replicate (4 * needle.length) none⟩
        else [] := by
  have hroom : List.replicate (4 * (c :: needle).length) (none : Option Nat) =
      none :: none :: none :: none :: List.replicate (4 * needle.length) none := rfl
  rw [Regex.fuzzyRow_cons, Regex.fuzzyPair, List.cons_append, List.singleton_append, hroom,
    waysOfRow, ways_group_singleton, note_append 0 (by omega), ways_zeroOrMore_lazy h,
    List.map_map, List.flatMap_map]
  refine List.flatMap_congr fun position _ => ?_
  rw [Function.comp_apply, note_append 1 (by omega), waysOfRow, ways_group_singleton,
    note_append 2 (by omega), ways]
  dsimp only
  split
  · rw [List.map_singleton, note_append 3 (by omega), List.flatMap_singleton, List.append_assoc]
    rfl
  · rfl

/-- The places up to which a gap may reach, cut at one of them. -/
theorem range'_split (hstart : start ≤ position) (hposition : position ≤ start + count) :
    List.range' start (count + 1) = List.range' start (position - start) ++
      position :: List.range' (position + 1) (start + count - position) := by
  have happend := List.range'_append_1 (s := start) (m := position - start)
    (n := start + count - position + 1)
  have hcount : position - start + (start + count - position + 1) = count + 1 := by omega
  rw [Nat.add_sub_cancel' hstart, hcount] at happend
  rw [← happend, List.range'_succ]

/-- **Without an embedding of the characters there is no way to match them.** -/
theorem waysOfRow_fuzzyRow_eq_nil (hnone : ∀ positions, ¬ text.Embeds start needle positions)
    (hdone : done.length = 4 * index + 2) :
    waysOfRow text (Regex.fuzzyRow needle index)
      ⟨start, done ++ List.replicate (4 * needle.length) none⟩ = [] := by
  induction needle generalizing start index done with
  | nil => exact absurd .nil (hnone [])
  | cons c needle ih =>
    obtain ⟨count, hcount⟩ := CharClass.dot.exists_covers text start
    rw [waysOfRow_fuzzyRow_cons hcount hdone]
    refine List.flatMap_eq_nil_iff.2 fun position hposition => ?_
    obtain ⟨hstart, hlt⟩ := List.mem_range'_1.1 hposition
    split
    · next hhere =>
      refine ih (fun positions hrest => hnone (position :: positions) ?_)
        (length_append_fuzzyNote hdone start position)
      exact .cons hstart hhere (fun between => plain_of_covers hcount (Nat.le_of_lt_succ hlt)) hrest
    · rfl

/-- **The preferred way takes the first occurrences**, if they embed the characters. The ways
through a later occurrence of the first character come behind those through its first. -/
theorem head?_waysOfRow_fuzzyRow (hplaces : text.firstOccurrences? start needle = some positions)
    (hembeds : text.Embeds start needle positions) (hdone : done.length = 4 * index + 2) :
    (waysOfRow text (Regex.fuzzyRow needle index)
        ⟨start, done ++ List.replicate (4 * needle.length) none⟩).head? =
      some ⟨fuzzyStop start positions, done ++ fuzzyNotes start positions⟩ := by
  induction hembeds generalizing index done with
  | nil =>
    rw [Regex.fuzzyRow_nil, waysOfRow]
    rfl
  | @cons start position c needle positions after here gap rest ih =>
    obtain ⟨count, hcount⟩ := CharClass.dot.exists_covers text start
    rw [Source.firstOccurrences?] at hplaces
    obtain ⟨found, hfound, hplaces⟩ := Option.bind_eq_some_iff.1 hplaces
    obtain ⟨later, hlater, heq⟩ := Option.bind_eq_some_iff.1 hplaces
    cases heq
    obtain ⟨_, _, hbefore⟩ := Source.findFrom?_char_eq_some_iff.1 hfound
    have hreach : position ≤ start + count := le_of_plain hcount here gap
    rw [waysOfRow_fuzzyRow_cons hcount hdone, List.head?_flatMap]
    refine List.findSome?_eq_some_iff.2
      ⟨_, _, _, range'_split after hreach, ?_, fun other hother => ?_⟩
    · rw [if_pos here, ih hlater (length_append_fuzzyNote hdone start position), fuzzyStop_cons,
        fuzzyNotes, List.append_assoc]
    · obtain ⟨hstart, hlt⟩ := List.mem_range'_1.1 hother
      rw [if_neg (hbefore other hstart (by omega))]
      rfl

end Node

/-! ## The captures -/

/-- The captures of a match from `start` on that takes characters at these positions: each of them
is a group, and so is the gap before it, which begins where the character before it ends. -/
structure Captures.Takes (captures : Captures) (start : Nat) (positions : List Nat) : Prop where
  /-- The match begins where it was looked for. -/
  start_eq : captures.start = start
  /-- It ends behind the last of the characters, or where it begins if there are none. -/
  stop_eq : captures.stop = fuzzyStop start positions
  /-- The whole match is group 0. -/
  whole : captures.group? 0 = some (captures.start, captures.stop)
  /-- There are two more groups for each character. -/
  groupCount : captures.groupCount = 2 * positions.length + 1
  /-- The gaps. -/
  gap : ∀ i before position, (start :: positions.map (· + 1))[i]? = some before →
    positions[i]? = some position → captures.group? (2 * i + 1) = some (before, position)
  /-- The characters. -/
  letter : ∀ i position, positions[i]? = some position →
    captures.group? (2 * i + 2) = some (position, position + 1)

/-- Four places are noted of each character. -/
@[simp]
theorem length_fuzzyNotes (start : Nat) (positions : List Nat) :
    (fuzzyNotes start positions).length = 4 * positions.length := by
  induction positions generalizing start with
  | nil => rfl
  | cons position positions ih =>
    rw [fuzzyNotes, List.length_append, ih, List.length_cons, Nat.mul_succ, Nat.add_comm]
    rfl

/-- What is noted of one gap and the character behind it. -/
theorem getElem?_fuzzyNotes {i before offset : Nat}
    (hbefore : (start :: positions.map (· + 1))[i]? = some before)
    (hposition : positions[i]? = some position) (hoffset : offset < 4) :
    (fuzzyNotes start positions)[4 * i + offset]? = (fuzzyNote before position)[offset]? := by
  induction i generalizing start positions with
  | zero =>
    obtain ⟨rest, rfl⟩ : ∃ rest, positions = position :: rest := by
      cases positions with
      | nil => cases hposition
      | cons first rest => exact ⟨rest, by rw [Option.some.inj hposition]⟩
    cases hbefore
    rw [fuzzyNotes, Nat.mul_zero, Nat.zero_add, List.getElem?_append_left hoffset]
  | succ i ih =>
    cases positions with
    | nil => cases hposition
    | cons first rest =>
      have hbehind : (fuzzyNote start first).length ≤ 4 * (i + 1) + offset := by
        show 4 ≤ _
        omega
      have hindex : 4 * (i + 1) + offset - (fuzzyNote start first).length = 4 * i + offset := by
        show _ - 4 = _
        omega
      rw [fuzzyNotes, List.getElem?_append_right hbehind, hindex]
      exact ih hbefore hposition

/-- The captures that take the characters at these positions. -/
def fuzzyCaptures (start : Nat) (positions : List Nat) : Captures :=
  ⟨(some start :: some (fuzzyStop start positions) :: fuzzyNotes start positions).toArray⟩

/-- The slots of a character and its gap hold what is noted of them. -/
theorem slots_fuzzyCaptures {i before slot offset : Nat}
    (hbefore : (start :: positions.map (· + 1))[i]? = some before)
    (hposition : positions[i]? = some position) (hslot : slot = 4 * i + offset + 2)
    (hoffset : offset < 4) :
    (fuzzyCaptures start positions).slots[slot]? = (fuzzyNote before position)[offset]? := by
  rw [fuzzyCaptures, List.getElem?_toArray, hslot, List.getElem?_cons_succ,
    List.getElem?_cons_succ, getElem?_fuzzyNotes hbefore hposition hoffset]

/-- These captures take the characters at their positions. -/
theorem takes_fuzzyCaptures (start : Nat) (positions : List Nat) :
    (fuzzyCaptures start positions).Takes start positions := by
  have hzero : (fuzzyCaptures start positions).slots[0]? = some (some start) := rfl
  have hone : (fuzzyCaptures start positions).slots[1]? = some (some (fuzzyStop start positions)) :=
    rfl
  obtain ⟨hstart, hstop, hwhole⟩ := captures_whole hzero hone
  refine ⟨hstart, hstop, ?_, ?_, fun i before position hbefore hposition => ?_,
    fun i position hposition => ?_⟩
  · exact hwhole.trans (by rw [hstart, hstop])
  · rw [Captures.groupCount, fuzzyCaptures, List.size_toArray, List.length_cons, List.length_cons,
      length_fuzzyNotes]
    omega
  · exact captures_group (slots_fuzzyCaptures hbefore hposition (by omega) (by decide : 0 < 4))
      (slots_fuzzyCaptures hbefore hposition (by omega) (by decide : 1 < 4))
  · have hlt : i < (start :: positions.map (· + 1)).length := by
      rw [List.length_cons, List.length_map]
      exact Nat.lt_succ_of_lt (List.getElem?_eq_some_iff.1 hposition).1
    have hbefore := List.getElem?_eq_getElem hlt
    exact captures_group (slots_fuzzyCaptures hbefore hposition (by omega) (by decide : 2 < 4))
      (slots_fuzzyCaptures hbefore hposition (by omega) (by decide : 3 < 4))

/-- The ways of the whole tree are those of the row, with the two ends noted. -/
theorem ways_fuzzyNode (text : Source) (start : Nat) (needle : List Char) :
    (Regex.fuzzyNode needle).ways text
        ⟨start, List.replicate (2 * (2 * needle.length + 1)) none⟩ =
      (Node.waysOfRow text (Regex.fuzzyRow needle 0)
        ⟨start, [some start, none] ++ List.replicate (4 * needle.length) none⟩).map (·.note 1) := by
  have hcount : 2 * (2 * needle.length + 1) = 4 * needle.length + 2 := by omega
  rw [Regex.fuzzyNode_eq, Node.ways, Node.waysOfBranches, Node.waysOfBranches, List.append_nil,
    hcount]
  rfl

/-- The preferred way takes each character at its first occurrence. -/
theorem preferredAt?_fuzzyNode (hplaces : text.firstOccurrences? start needle = some positions)
    (hembeds : text.Embeds start needle positions) :
    (Regex.fuzzyNode needle).preferredAt? text (2 * (2 * needle.length + 1)) start =
      some ⟨fuzzyStop start positions, (fuzzyCaptures start positions).slots.toList⟩ := by
  rw [Node.preferredAt?, ways_fuzzyNode, List.head?_map,
    Node.head?_waysOfRow_fuzzyRow hplaces hembeds rfl]
  rfl

/-- The tree of a needle that does not occur has no way. -/
theorem preferredAt?_fuzzyNode_eq_none
    (hnone : ∀ positions, ¬ text.Embeds start needle positions) :
    (Regex.fuzzyNode needle).preferredAt? text (2 * (2 * needle.length + 1)) start = none := by
  rw [Node.preferredAt?, ways_fuzzyNode, Node.waysOfRow_fuzzyRow_eq_nil hnone rfl]
  rfl

/-! ## The run -/

namespace Source

/-- An embedding in the text up to a bound is one whose positions lie before the bound. -/
theorem embeds_upTo_iff : (text.upTo bound).Embeds start needle positions ↔
    text.Embeds start needle positions ∧ ∀ position ∈ positions, position < bound := by
  constructor
  · intro h
    induction h with
    | nil => exact ⟨.nil, nofun⟩
    | @cons start position c needle positions after here gap rest ih =>
      rw [charAt?_upTo] at here
      obtain ⟨hlt, hhere⟩ := Option.ite_none_right_eq_some.1 here
      refine ⟨.cons after hhere (fun between hbetween hbefore => ?_) ih.1,
        List.forall_mem_cons.2 ⟨hlt, ih.2⟩⟩
      have hgap := gap between hbetween hbefore
      rwa [charAt?_upTo, if_pos (Nat.lt_trans hbefore hlt)] at hgap
  · rintro ⟨h, hwithin⟩
    induction h with
    | nil => exact .nil
    | cons after here gap rest ih =>
      obtain ⟨hlt, hrest⟩ := List.forall_mem_cons.1 hwithin
      refine .cons after ?_ (fun between hbetween hbefore => ?_) (ih hrest)
      · rw [charAt?_upTo, if_pos hlt, here]
      · rw [charAt?_upTo, if_pos (Nat.lt_trans hbefore hlt)]
        exact gap between hbetween hbefore

/-- What occurs first up to a bound occurs first. -/
theorem firstOccurrences?_of_upTo
    (h : (text.upTo bound).firstOccurrences? start needle = some positions) :
    text.firstOccurrences? start needle = some positions := by
  induction needle generalizing start positions with
  | nil => exact h
  | cons c needle ih =>
    rw [firstOccurrences?] at h
    obtain ⟨position, hposition, hrest⟩ := Option.bind_eq_some_iff.1 h
    obtain ⟨later, hlater, heq⟩ := Option.bind_eq_some_iff.1 hrest
    cases heq
    obtain ⟨hstart, hhere, hbefore⟩ := findFrom?_char_eq_some_iff.1 hposition
    rw [charAt?_upTo] at hhere
    obtain ⟨hlt, hhere⟩ := Option.ite_none_right_eq_some.1 hhere
    have hfound : text.findFrom? (· == c) start = some position := by
      refine findFrom?_char_eq_some_iff.2 ⟨hstart, hhere, fun other hother hless => ?_⟩
      have hnone := hbefore other hother hless
      rwa [charAt?_upTo, if_pos (Nat.lt_trans hless hlt)] at hnone
    rw [firstOccurrences?, hfound, Option.bind_eq_bind, Option.bind_some, ih hlater]
    rfl

end Source

section Run

variable {word : String}

/-- A run answers the preferred way in the text up to its bound. -/
theorem matchAt_fuzzy_eq_preferredAt (word : String) (hstart : start ≤ bound)
    (hbound : bound ≤ text.size) :
    ((Regex.fuzzy word).matchAt text start bound .forward).map (·.slots.toList) =
      ((Regex.fuzzyNode word.toList).preferredAt? (text.upTo bound)
        (2 * (2 * word.toList.length + 1)) start).map (·.slots) := by
  rw [← Regex.slotsFor_fuzzy]
  exact matchAt_anchored_eq_preferredAt_upTo word (Regex.isProper_fuzzyNode _)
    (Regex.steady_fuzzyNode _) (Regex.assertsNothing_fuzzy _) hstart hbound

/-- Where the characters are embedded, a run answers their first occurrences. -/
theorem matchAt_fuzzy_of_embeds (hstart : start ≤ bound) (hbound : bound ≤ text.size)
    (h : (text.upTo bound).Embeds start word.toList positions) :
    ∃ places, text.firstOccurrences? start word.toList = some places ∧
      (text.upTo bound).Embeds start word.toList places ∧
      (Regex.fuzzy word).matchAt text start bound .forward = some (fuzzyCaptures start places) := by
  obtain ⟨places, hplaces, hembeds⟩ := h.exists_firstOccurrences
  have hmatch := matchAt_fuzzy_eq_preferredAt word hstart hbound
  rw [preferredAt?_fuzzyNode hplaces hembeds] at hmatch
  obtain ⟨captures, hcaptures, hslots⟩ := Option.map_eq_some_iff.1 hmatch
  have hnoted : captures.slots = (fuzzyCaptures start places).slots := Array.toList_inj.1 hslots
  exact ⟨places, Source.firstOccurrences?_of_upTo hplaces, hembeds,
    hcaptures.trans (congrArg (fun slots => some (Captures.mk slots)) hnoted)⟩

/-- **Characters in order are found where they first occur.** A run from `start` to a bound matches
just if the characters are embedded between the two with no line end in a gap. Then their first
occurrences, each behind the one before, are such an embedding, and the match takes the characters
there. -/
theorem matchAt_fuzzy (word : String) (text : Source) {start bound : Nat} (hstart : start ≤ bound)
    (hbound : bound ≤ text.size) :
    (((Regex.fuzzy word).matchAt text start bound .forward).isSome = true ↔
        ∃ positions, text.Embeds start word.toList positions ∧
          ∀ position ∈ positions, position < bound) ∧
      ∀ captures, (Regex.fuzzy word).matchAt text start bound .forward = some captures →
        ∃ positions, text.firstOccurrences? start word.toList = some positions ∧
          text.Embeds start word.toList positions ∧ (∀ position ∈ positions, position < bound) ∧
          captures.Takes start positions := by
  by_cases hembeds : ∃ positions, (text.upTo bound).Embeds start word.toList positions
  · obtain ⟨positions, hpositions⟩ := hembeds
    obtain ⟨places, hplaces, hfirst, hmatch⟩ := matchAt_fuzzy_of_embeds hstart hbound hpositions
    obtain ⟨hembeds, hwithin⟩ := Source.embeds_upTo_iff.1 hfirst
    rw [hmatch]
    refine ⟨iff_of_true rfl ⟨places, hembeds, hwithin⟩, fun captures hcaptures => ?_⟩
    cases hcaptures
    exact ⟨places, hplaces, hembeds, hwithin, takes_fuzzyCaptures start places⟩
  · have hmatch := matchAt_fuzzy_eq_preferredAt word hstart hbound
    rw [preferredAt?_fuzzyNode_eq_none (not_exists.1 hembeds), Option.map_none] at hmatch
    rw [Option.map_eq_none_iff.1 hmatch]
    refine ⟨iff_of_false nofun ?_, nofun⟩
    rintro ⟨positions, hpositions⟩
    exact hembeds ⟨positions, Source.embeds_upTo_iff.2 hpositions⟩

/-- A line end that is looked for itself, with one character in the gap before it and none in the
gap behind it. -/
theorem matchAt_fuzzy_newline :
    ∃ captures, (Regex.fuzzy "a\nb").matchAt (.ofList "xa.\nb".toList) 0 5 .forward =
        some captures ∧ captures.Takes 0 [1, 3, 4] ∧ captures.group? 3 = some (2, 3) ∧
      captures.group? 4 = some (3, 4) ∧ captures.group? 5 = some (4, 4) := by
  have hmatch : (Regex.fuzzy "a\nb").matchAt (.ofList "xa.\nb".toList) 0 5 .forward =
      some (fuzzyCaptures 0 [1, 3, 4]) := by
    cbv
  have hplaces : Source.firstOccurrences? (.ofList "xa.\nb".toList) 0 "a\nb".toList =
      some [1, 3, 4] := by
    cbv
  obtain ⟨_, htakes⟩ := matchAt_fuzzy "a\nb" (.ofList "xa.\nb".toList) (Nat.zero_le 5)
    (Nat.le_refl 5)
  obtain ⟨positions, hpositions, _, _, hcaptures⟩ := htakes _ hmatch
  cases hplaces.symm.trans hpositions
  exact ⟨_, hmatch, hcaptures, hcaptures.gap 1 2 3 rfl rfl, hcaptures.letter 1 3 rfl,
    hcaptures.gap 2 4 4 rfl rfl⟩

end Run

end Emend
