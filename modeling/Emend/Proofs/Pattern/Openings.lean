import Emend.Pattern.Openings
import Emend.Proofs.Pattern.Derivation
import Emend.Proofs.Pattern.Numbers

/-!
# Groups and their parentheses

What `skipEscape` and `skipClass` leave of a text is what the readers of escapes and classes leave
of it, so `openings` goes on behind an escape or a class just where the reader of the pattern does.
With that, an induction on the rules of the grammar pairs each remembered group of what is written
with one opening (`opens_choice`), in the order of the numbers of the groups.
-/

namespace Emend.Pattern

open Grammar Node

variable {chars rest : List Char}

/-! ## What is skipped is what is read -/

/-- An escape of another letter than `x` ends behind the letter. -/
theorem skipEscape_of_ne {letter : Char} (h : letter ≠ 'x') (rest : List Char) :
    skipEscape (letter :: rest) = rest := by
  unfold skipEscape
  split
  · next heq =>
    cases heq
    exact absurd rfl h
  · rfl

/-- A letter that names nothing else is the one of a code point, or stands for a character. -/
theorem skipEscape_of_readHex {α : Type} {letter : Char} {ofCode : Char → α} {plain value : α}
    (h : (if letter = 'x' then (readHex chars).map fun (c, rest) => (ofCode c, rest)
      else .ok (plain, chars)) = .ok (value, rest)) : skipEscape (letter :: chars) = rest := by
  split at h
  · next hx =>
    obtain ⟨⟨c, after⟩, hread, heq⟩ := exists_of_map_eq_ok h
    cases heq
    obtain ⟨places, rfl, hplaces⟩ := readHex_eq_ok_iff.1 hread
    rw [hx]
    exact List.drop_left' (length_of_placesText hplaces)
  · next hx =>
    cases h
    exact skipEscape_of_ne hx _

/-- Outside brackets the reader of escapes leaves what is skipped to. -/
theorem skipEscape_of_readEscape {token : PatternToken}
    (h : readEscape chars = .ok (token, rest)) : skipEscape chars = rest := by
  unfold readEscape at h
  split at h
  · cases h
  · next letter left =>
    split at h
    · next assertion hnamed =>
      cases h
      refine skipEscape_of_ne ?_ _
      rintro rfl
      cases hnamed
    · next set _ hnamed =>
      cases h
      refine skipEscape_of_ne ?_ _
      rintro rfl
      cases hnamed
    · exact skipEscape_of_readHex h

/-- So does the one inside brackets. -/
theorem skipEscape_of_readClassEscape {item : ClassItem}
    (h : readClassEscape chars = .ok (item, rest)) : skipEscape chars = rest := by
  unfold readClassEscape at h
  split at h
  · cases h
  · next letter left =>
    split at h
    · next hnamed =>
      cases h
      refine skipEscape_of_ne ?_ _
      rintro rfl
      cases hnamed
    · exact skipEscape_of_readHex h

/-- The name of a property is skipped with its bracket. -/
theorem skipProperty_of_readNamedClass {item : ClassItem}
    (h : readNamedClass chars = .ok (item, rest)) : skipProperty chars = rest := by
  unfold readNamedClass at h
  split at h
  · cases h
  · next hdrop =>
    split at h
    · cases h
      rw [skipProperty, hdrop, List.tail_cons]
    · cases h

/-- A member of a class is skipped, and the others behind it. -/
theorem skipMembers_of_readClassItem {c : Char} {item : ClassItem} (hc : c ≠ ']')
    (h : readClassItem c chars = .ok (item, rest)) :
    skipMembers (c :: chars) = skipMembers rest := by
  rw [skipMembers, if_neg hc]
  unfold readClassItem at h
  split at h
  · rw [if_neg (by decide), if_pos rfl, skipProperty_of_readNamedClass h]
  · rw [if_pos rfl, skipEscape_of_readClassEscape h]
  · next hproperty hescape =>
    rw [if_neg hescape, if_neg hproperty, skipRange]
    split at h
    · next hlast =>
      cases h
      rw [if_pos hlast]
    · next hlast =>
      cases h
      rw [if_neg hlast]
  · next hproperty hescape hdash =>
    cases h
    rw [if_neg hescape, if_neg hproperty]
    unfold skipRange
    split
    · next last after => exact absurd rfl (hdash last after)
    · rfl

/-- The members of a class are skipped up to the bracket that closes it. -/
theorem skipMembers_of_readClassItems {items : List ClassItem}
    (h : readClassItems chars = .ok (items, rest)) : skipMembers chars = rest := by
  fun_induction readClassItems chars generalizing items rest with
  | case1 => cases h
  | case2 =>
    cases h
    rw [skipMembers, if_pos rfl]
  | case3 => cases h
  | case4 c tail hc item after hitem hle ih =>
    obtain ⟨⟨others, left⟩, hothers, heq⟩ := exists_of_map_eq_ok h
    cases heq
    rw [skipMembers_of_readClassItem hc hitem]
    exact ih hothers

/-- **The reader of classes leaves what is skipped to.** -/
theorem skipClass_of_readClass {token : PatternToken}
    (h : readClass chars = .ok (token, rest)) : skipClass chars = rest := by
  unfold readClass at h
  split at h
  · obtain ⟨⟨items, left⟩, hitems, heq⟩ := exists_of_map_eq_ok h
    cases heq
    exact skipMembers_of_readClassItems hitems
  · next hplain =>
    obtain ⟨⟨items, left⟩, hitems, heq⟩ := exists_of_map_eq_ok h
    cases heq
    unfold skipClass
    split
    · next inverted => exact absurd rfl (hplain inverted)
    · exact skipMembers_of_readClassItems hitems

/-! ## What a text opens -/

/-- A character that neither escapes, nor opens a class or a group, is passed over. -/
theorem openings_plain {c : Char} (h : c ∉ ['\\', '[', '(']) (rest : List Char) :
    openings (c :: rest) = openings rest := by
  simp only [List.mem_cons, List.not_mem_nil, or_false, not_or] at h
  obtain ⟨hescape, hclass, hopen⟩ := h
  rw [openings, if_neg hescape, if_neg hclass, if_neg fun hboth => hopen hboth.1]

/-- A parenthesis that is not followed by `?:` opens a remembered group. -/
theorem openings_open (h : ¬['?', ':'] <+: rest) :
    openings ('(' :: rest) = rest :: openings rest := by
  rw [openings, if_neg (by decide), if_neg (by decide), if_pos ⟨rfl, h⟩]

/-- A parenthesis that is followed by `?:` opens a group that is not remembered. -/
@[simp]
theorem openings_unnamed (rest : List Char) :
    openings ('(' :: '?' :: ':' :: rest) = openings rest := by
  rw [openings, if_neg (by decide), if_neg (by decide),
    if_neg (fun hboth => hboth.2 (List.prefix_append ['?', ':'] rest)),
    openings_plain (by decide), openings_plain (by decide)]

/-- A node without other nodes in it opens no group. -/
theorem openings_simple {written : List Char} {node : Node}
    (h : SimpleText PlacesText written node) (rest : List Char) :
    openings (written ++ rest) = openings rest := by
  cases h with
  | @char c plain =>
    refine openings_plain (fun hmem => ?_) rest
    simp only [List.mem_cons, List.not_mem_nil, or_false] at hmem
    obtain rfl | rfl | rfl := hmem <;> cases plain
  | dot => exact openings_plain (by decide) rest
  | beginLine => exact openings_plain (by decide) rest
  | endLine => exact openings_plain (by decide) rest
  | @escape written _ escaped =>
    obtain ⟨token, stands⟩ := (SimpleText.escape escaped).exists_node?
    have hread := readEscape_eq_ok_iff.2 ⟨written, node, (rfl : _ ++ rest = _), stands, escaped⟩
    rw [List.cons_append, openings, if_pos rfl, skipEscape_of_readEscape hread]
  | @oneOf written set members =>
    have hread := readClass_eq_ok_iff.2 ⟨written, set, (rfl : _ ++ rest = _), rfl, members⟩
    rw [List.cons_append, openings, if_neg (by decide), if_pos rfl, skipClass_of_readClass hread]

/-- Neither do repetitions. -/
theorem openings_loops {written : List Char} {node result : Node}
    (h : LoopsText written node result) (rest : List Char) :
    openings (written ++ rest) = openings rest := by
  have hloop : ∀ kind, loopChar kind ∉ ['\\', '[', '('] := by
    intro kind
    cases kind <;> decide
  induction h with
  | nil => rfl
  | greedy _ _ ih => rw [List.cons_append, openings_plain (hloop _), ih]
  | lazy _ ih =>
    rw [List.cons_append, List.cons_append, openings_plain (hloop _), openings_plain (by decide),
      ih]

/-- Repetitions have the groups of what they repeat. -/
theorem groups_loops {written : List Char} {node result : Node}
    (h : LoopsText written node result) : result.groups = node.groups := by
  induction h with
  | nil => rfl
  | greedy _ _ ih => rw [ih, Node.groups]
  | lazy _ ih => rw [ih, Node.groups]

/-- A text opens these groups before the openings of the rest. -/
def Opens (groups : List (Nat × List (List Node))) (text rest : List Char) : Prop :=
  ∃ opened, openings text = opened ++ openings rest ∧ List.Forall₂ IsBehindOpening groups opened

section Opens

variable {groups others : List (Nat × List (List Node))} {text middle : List Char}

/-- A text without openings opens no group. -/
theorem Opens.of_eq (h : openings text = openings rest) : Opens [] text rest :=
  ⟨[], h, .nil⟩

/-- What two parts open follows each other. -/
theorem Opens.append (h : Opens groups text middle) (h' : Opens others middle rest) :
    Opens (groups ++ others) text rest := by
  obtain ⟨opened, htext, hopened⟩ := h
  obtain ⟨opened', hmiddle, hopened'⟩ := h'
  refine ⟨opened ++ opened', ?_, List.rel_append hopened hopened'⟩
  rw [htext, hmiddle, List.append_assoc]

end Opens

mutual

/-- A node without repetitions opens its groups. -/
theorem opens_atom : ∀ {next after : Nat} {written : List Char} {node : Node},
    AtomText PlacesText next written node after → ∀ rest : List Char,
      Opens node.groups (written ++ rest) rest
  | _, _, _, node, .simple text, rest => by
    have hnone : node.groups = [] := by
      obtain ⟨token, stands⟩ := text.exists_node?
      cases token <;> cases stands <;> rw [Node.groups]
    rw [hnone]
    exact .of_eq (openings_simple text rest)
  | next, _, _, _, @AtomText.group _ _ _ written branches inside, rest => by
    obtain ⟨opened, htext, hopened⟩ := opens_choice inside (')' :: rest)
    have hnamed : ¬['?', ':'] <+: written ++ ')' :: rest := by
      rintro ⟨tail, htail⟩
      have hend : (')' :: rest).head? ≠ some '?' := by simp
      exact inside.head?_append hend (by rw [← htail]; rfl)
    refine ⟨(written ++ ')' :: rest) :: opened, ?_, ?_⟩
    · rw [List.cons_append, List.append_assoc, List.singleton_append, openings_open hnamed, htext,
        openings_plain (by decide), List.cons_append]
    · rw [Node.groups]
      exact .cons ⟨written, rest, _, rfl, inside⟩ hopened
  | _, _, _, _, @AtomText.unnamed _ _ _ written branches inside, rest => by
    obtain ⟨opened, htext, hopened⟩ := opens_choice inside (')' :: rest)
    refine ⟨opened, ?_, ?_⟩
    · rw [List.cons_append, List.cons_append, List.cons_append, List.append_assoc,
        List.singleton_append, openings_unnamed, htext, openings_plain (by decide)]
    · rw [Node.groups]
      exact hopened

/-- Nodes in a row open their groups, one node after the other. -/
theorem opens_row : ∀ {next after : Nat} {written : List Char} {nodes : List Node},
    RowText PlacesText next written nodes after → ∀ rest : List Char,
      Opens (groupsOfRow nodes) (written ++ rest) rest
  | _, _, _, _, .nil, _ => .of_eq rfl
  | _, _, _, _, .cons first repeated others, rest => by
    rw [groupsOfRow, groups_loops repeated, List.append_assoc, List.append_assoc]
    refine (opens_atom first _).append ?_
    obtain ⟨opened, htext, hopened⟩ := opens_row others rest
    exact ⟨opened, (openings_loops repeated _).trans htext, hopened⟩

/-- Branches open their groups, one branch after the other. -/
theorem opens_choice : ∀ {next after : Nat} {written : List Char} {branches : List (List Node)},
    ChoiceText PlacesText next written branches after → ∀ rest : List Char,
      Opens (groupsOfBranches branches) (written ++ rest) rest
  | _, _, _, _, .last row, rest => by
    rw [groupsOfBranches, groupsOfBranches, List.append_nil]
    exact opens_row row rest
  | _, _, _, _, .bar first others, rest => by
    rw [groupsOfBranches, List.append_assoc, List.cons_append]
    refine (opens_row first _).append ?_
    obtain ⟨opened, htext, hopened⟩ := opens_choice others rest
    exact ⟨opened, (openings_plain (by decide) _).trans htext, hopened⟩

end

/-- **The groups of a pattern** besides the whole are those that its parentheses open, in their
order, numbered from 1 on. -/
theorem exists_groups {pattern : String} {node : Node} (h : parse pattern = .ok node) :
    ∃ branches, node = .group (some 0) branches ∧
      List.Forall₂ IsBehindOpening (groupsOfBranches branches) (openings pattern.toList) ∧
      node.groupNumbers = List.range ((openings pattern.toList).length + 1) := by
  obtain ⟨branches, after, hchoice, rfl⟩ := (parse_eq_ok_iff_places pattern node).1 h
  obtain ⟨opened, htext, hopened⟩ := opens_choice hchoice []
  rw [List.append_nil, openings, List.append_nil] at htext
  subst htext
  refine ⟨branches, rfl, hopened, ?_⟩
  obtain ⟨_, _, count, hcount⟩ := groupNumbers_parse h
  have hlength := congrArg List.length hcount
  rw [List.length_range, groupNumbers_group, Option.toList_some, List.length_append,
    List.length_singleton, branchNumbers, List.length_map, hopened.length_eq] at hlength
  rw [hcount, ← hlength, Nat.add_comm]

/-- A parenthesis in brackets opens nothing. -/
example : openings "[(\\]](a)".toList = ["a)".toList] := by
  cbv

end Emend.Pattern
