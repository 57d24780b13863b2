import Emend.Pattern.Grammar
import Mathlib

/-!
# The text of a token

Each reader of `Pattern/Token` takes as much from the beginning of a text as one rule of the grammar
allows, and leaves the rest: it succeeds with a result and a rest exactly if the text is one that
the rule gives for the result, followed by the rest. Where two readings are possible, the condition
on the rest says that the longer one is meant. `TokenText` puts them together, with one rule for
each kind of token.
-/

namespace Emend

open Grammar

variable {chars rest : List Char}

/-- What a reader makes of what another has read. -/
theorem exists_of_map_eq_ok {α β : Type} {f : α → β} {read : Except PatternError α} {result : β}
    (h : read.map f = .ok result) : ∃ value, read = .ok value ∧ f value = result := by
  cases read with
  | error error => cases h
  | ok value => exact ⟨value, rfl, Except.ok.inj h⟩

/-! ## Code points -/

/-- A code that is one of a character is the code of that character. -/
theorem toNat_ofNat_of_isValidChar {code : Nat} (h : code.isValidChar) :
    (Char.ofNat code).toNat = code := by
  simp only [Char.ofNat, h, dif_pos]
  rfl

/-- A plus sign is no digit. -/
@[simp]
theorem hexDigits?_plus (digits : List Char) : hexDigits? ('+' :: digits) = none :=
  rfl

/-- What six places are read as. -/
theorem hexNumber?_eq_some_iff {places : List Char} (hsix : places.length = 6) (c : Char) :
    hexNumber? places = some c.toNat ↔ PlacesText places c := by
  constructor
  · -- A plus sign is taken in place of the first digit.
    intro h
    unfold hexNumber? at h
    split at h
    · cases hsix
    · cases hsix
    · next digits _ =>
      rw [List.length_cons] at hsix
      exact .plus (by omega) h
    · exact .digits ⟨hsix, h⟩
  · -- The two ways of writing exclude each other, since a plus sign is no digit.
    intro h
    cases h with
    | digits written =>
      unfold hexNumber?
      split
      · cases hsix
      · cases hsix
      · have hcode := written.code
        rw [hexDigits?_plus] at hcode
        cases hcode
      · exact written.code
    | plus five code =>
      unfold hexNumber?
      split
      · next heq => cases heq
      · next heq =>
        cases heq
        cases five
      · next heq =>
        cases heq
        exact code
      · next hnot => exact absurd rfl (hnot _)

/-- A code is written in six places. -/
theorem length_of_placesText {places : List Char} {c : Char} (h : PlacesText places c) :
    places.length = 6 := by
  cases h with
  | digits written => exact written.six
  | plus five code => rw [List.length_cons, five]

/-- A code point is read from six places. -/
theorem readHex_eq_ok_iff {c : Char} :
    readHex chars = .ok (c, rest) ↔ ∃ places, chars = places ++ rest ∧ PlacesText places c := by
  unfold readHex
  constructor
  · -- What is read are the first six characters, and they write the code of a character.
    intro h
    split at h
    · next hsix =>
      have hlength : (chars.take 6).length = 6 := by
        rw [List.length_take]
        omega
      split at h
      · cases h
      · next code hcode =>
        split at h
        · next hvalid =>
          cases h
          refine ⟨chars.take 6, (List.take_append_drop 6 chars).symm, ?_⟩
          rw [← hexNumber?_eq_some_iff hlength, toNat_ofNat_of_isValidChar hvalid]
          exact hcode
        · cases h
    · cases h
  · -- Written places are six, and are read as the code that they write.
    rintro ⟨places, rfl, hplaces⟩
    have hlength := length_of_placesText hplaces
    have hcode := (hexNumber?_eq_some_iff hlength c).2 hplaces
    have hsix : 6 ≤ (places ++ rest).length := by
      rw [List.length_append]
      omega
    rw [if_pos hsix, List.take_left' hlength, List.drop_left' hlength, hcode]
    dsimp only
    rw [if_pos (show c.toNat.isValidChar from c.valid), Char.ofNat_toNat]

/-! ## Escapes -/

/-- The node that a token stands for by itself. -/
def PatternToken.node? : PatternToken → Option Node
  | .char c => some (.char c)
  | .oneOf set => some (.oneOf set)
  | .assert assertion => some (.assert assertion)
  | _ => none

/-- No two tokens stand for one node. -/
theorem PatternToken.eq_of_node? {token : PatternToken} {node : Node}
    (h : token.node? = some node) (other : PatternToken) (hother : other.node? = some node) :
    token = other := by
  cases token <;> cases other <;> cases h <;> cases hother <;> rfl

/-- A letter that names a class names no assertion. -/
theorem ofEscape?_of_ofShorthand? {letter : Char} {set : CharClass}
    (h : CharClass.ofShorthand? letter = some set) : Assertion.ofEscape? letter = none := by
  unfold CharClass.ofShorthand? CharClass.shorthand? at h
  split at h
  case h_7 => cases h
  all_goals rfl

/-- What an escape is read as outside brackets. -/
theorem readEscape_eq_ok_iff {token : PatternToken} :
    readEscape chars = .ok (token, rest) ↔ ∃ written node, chars = written ++ rest ∧
      token.node? = some node ∧ EscapeText PlacesText written node := by
  constructor
  · -- A letter is looked up among the assertions, then among the classes, and then read as a code
    -- or as itself.
    intro h
    unfold readEscape at h
    split at h
    · cases h
    · next letter after =>
      split at h
      · next assertion _ hnamed =>
        cases h
        exact ⟨[letter], _, rfl, rfl, .assertion hnamed⟩
      · next set _ hnamed =>
        cases h
        exact ⟨[letter], _, rfl, rfl, .shorthand hnamed⟩
      · next hassertion hclass =>
        split at h
        · next heq =>
          subst heq
          obtain ⟨⟨c, last⟩, hhex, heq⟩ := exists_of_map_eq_ok h
          cases heq
          obtain ⟨places, rfl, hplaces⟩ := readHex_eq_ok_iff.1 hhex
          exact ⟨'x' :: places, _, rfl, rfl, .code hplaces⟩
        · next hcode =>
          cases h
          exact ⟨[letter], _, rfl, rfl, .letter hcode hassertion hclass⟩
  · -- Each form is found where it is looked up, because the lookups before it fail.
    rintro ⟨written, node, rfl, hnode, hwritten⟩
    cases hwritten with
    | assertion named =>
      rw [PatternToken.eq_of_node? hnode (.assert _) rfl]
      simp only [List.singleton_append, readEscape, named]
    | shorthand named =>
      rw [PatternToken.eq_of_node? hnode (.oneOf _) rfl]
      simp only [List.singleton_append, readEscape, ofEscape?_of_ofShorthand? named, named]
    | code written =>
      have hhex := readHex_eq_ok_iff.2 ⟨_, (rfl : _ ++ rest = _), written⟩
      rw [PatternToken.eq_of_node? hnode (.char _) rfl]
      have hassertion : Assertion.ofEscape? 'x' = none := rfl
      have hclass : CharClass.ofShorthand? 'x' = none := rfl
      simp only [List.cons_append, readEscape, hassertion, hclass, if_true, hhex, Except.map]
    | letter notCode notAssertion notClass =>
      rw [PatternToken.eq_of_node? hnode (.char _) rfl]
      simp only [List.singleton_append, readEscape, notAssertion, notClass, if_neg notCode]

/-- What an escape is read as inside brackets. -/
theorem readClassEscape_eq_ok_iff {item : ClassItem} :
    readClassEscape chars = .ok (item, rest) ↔
      ∃ written, chars = written ++ rest ∧ ClassEscapeText PlacesText written item := by
  constructor
  · -- Inside brackets there are no assertions.
    intro h
    unfold readClassEscape at h
    split at h
    · cases h
    · next letter after =>
      split at h
      · next predicate negated hnamed =>
        cases h
        exact ⟨[letter], rfl, .shorthand hnamed⟩
      · next hclass =>
        split at h
        · next heq =>
          subst heq
          obtain ⟨⟨c, last⟩, hhex, heq⟩ := exists_of_map_eq_ok h
          cases heq
          obtain ⟨places, rfl, hplaces⟩ := readHex_eq_ok_iff.1 hhex
          exact ⟨'x' :: places, rfl, .code hplaces⟩
        · next hcode =>
          cases h
          exact ⟨[letter], rfl, .letter hcode hclass⟩
  · -- Each form is found where it is looked up.
    rintro ⟨written, rfl, hwritten⟩
    cases hwritten with
    | shorthand named => simp only [List.singleton_append, readClassEscape, named]
    | code written =>
      have hhex := readHex_eq_ok_iff.2 ⟨_, (rfl : _ ++ rest = _), written⟩
      have hclass : CharClass.shorthand? 'x' = none := rfl
      simp only [List.cons_append, readClassEscape, hclass, if_true, hhex, Except.map]
    | letter notCode notClass =>
      simp only [List.singleton_append, readClassEscape, notClass, if_neg notCode]

/-! ## Classes in brackets -/

/-- A name of a property closes no bracket, is not empty, and does not begin like a negation. -/
theorem named?_eq_some {name : String} {predicate : CharPredicate}
    (h : CharClass.named? name = some predicate) :
    ']' ∉ name.toList ∧ name.toList ≠ [] ∧ name.toList.head? ≠ some '^' := by
  unfold CharClass.named? at h
  split at h
  case h_15 => cases h
  all_goals decide

/-- What may stand between an inner `[` and the next `]`. -/
inductive PropertyText : List Char → ClassItem → Prop where
  /-- A property. -/
  | having {name : List Char} {predicate : CharPredicate}
    (named : CharClass.named? (String.ofList name) = some predicate) :
    PropertyText (':' :: (name ++ [':'])) (.having predicate false)
  /-- The lack of a property. -/
  | lacking {name : List Char} {predicate : CharPredicate}
    (named : CharClass.named? (String.ofList name) = some predicate) :
    PropertyText (':' :: '^' :: (name ++ [':'])) (.having predicate true)

/-- A named class reads as an item if and only if the grammar has it. -/
theorem classNamed?_eq_some_iff {inner : List Char} {item : ClassItem} :
    classNamed? inner = some item ↔ PropertyText inner item := by
  constructor
  · -- Between two colons stands a name, or a sign of negation and a name.
    intro h
    unfold classNamed? at h
    split at h
    · next rest =>
      split at h
      · next hlast =>
        have hne : rest ≠ [] := by
          rintro rfl
          cases hlast
        have hsplit : rest = rest.dropLast ++ [':'] := by
          have happend := List.dropLast_concat_getLast hne
          rw [List.getLast?_eq_some_getLast hne] at hlast
          rw [Option.some.inj hlast] at happend
          exact happend.symm
        split at h
        · cases h
        · next name hname =>
          obtain ⟨predicate, hnamed, rfl⟩ := Option.map_eq_some_iff.1 h
          rw [hsplit, hname]
          exact .lacking hnamed
        · obtain ⟨predicate, hnamed, rfl⟩ := Option.map_eq_some_iff.1 h
          rw [hsplit]
          exact .having hnamed
      · cases h
    · cases h
  · -- No name of a property begins like a negation, so the two forms are told apart.
    intro h
    cases h with
    | @having name predicate named =>
      obtain ⟨_, hne, hhead⟩ := named?_eq_some named
      rw [String.toList_ofList] at hne hhead
      rw [classNamed?, List.getLast?_concat, if_pos rfl, List.dropLast_concat]
      split
      · exact absurd rfl hne
      · exact absurd rfl hhead
      · rw [named]
        rfl
    | @lacking name predicate named =>
      rw [classNamed?, ← List.cons_append, List.getLast?_concat, if_pos rfl,
        List.dropLast_concat]
      simp only [named, Option.map_some]

/-- A property has no bracket in it that would end the class. -/
theorem PropertyText.notMem {inner : List Char} {item : ClassItem} (h : PropertyText inner item) :
    ']' ∉ inner := by
  cases h with
  | having named =>
    have hname := (named?_eq_some named).1
    rw [String.toList_ofList] at hname
    simp [hname]
  | lacking named =>
    have hname := (named?_eq_some named).1
    rw [String.toList_ofList] at hname
    simp [hname]

/-- The name of a property is read up to the bracket that closes it. -/
theorem readNamedClass_eq_ok_iff {item : ClassItem} :
    readNamedClass chars = .ok (item, rest) ↔
      ∃ inner, chars = inner ++ ']' :: rest ∧ PropertyText inner item := by
  constructor
  · -- The text is cut at the first bracket.
    intro h
    unfold readNamedClass at h
    have hparts : chars.takeWhile (· != ']') ++ chars.dropWhile (· != ']') = chars :=
      List.takeWhile_append_dropWhile
    split at h
    · cases h
    · next first tail hdrop =>
      have hfirst : first = ']' := by
        have hhead := List.head?_dropWhile_not (· != ']') chars
        rw [hdrop] at hhead
        simpa using hhead
      split at h
      · next found hfound =>
        cases h
        refine ⟨_, ?_, classNamed?_eq_some_iff.1 hfound⟩
        rw [hdrop, hfirst] at hparts
        exact hparts.symm
      · cases h
  · -- No property has a bracket in it, so it is cut behind the property.
    rintro ⟨inner, rfl, hinner⟩
    have hall : ∀ c ∈ inner, (c != ']') = true := by
      intro c hmem
      rw [bne_iff_ne]
      rintro rfl
      exact hinner.notMem hmem
    unfold readNamedClass
    rw [List.takeWhile_append_of_pos hall, List.dropWhile_append_of_pos hall,
      List.takeWhile_cons_of_neg (by decide), List.dropWhile_cons_of_neg (by decide),
      List.append_nil, classNamed?_eq_some_iff.2 hinner]

/-- A property in brackets is an item of a class. -/
theorem PropertyText.itemText {code : CodeRule} {inner : List Char} {item : ClassItem}
    (h : PropertyText inner item) : ItemText code ('[' :: (inner ++ [']'])) item := by
  cases h with
  | @having name predicate named =>
    have htext : ':' :: (name ++ [':']) ++ [']'] = ':' :: (name ++ [':', ']']) := by simp
    rw [htext]
    exact .having named
  | @lacking name predicate named =>
    have htext : ':' :: '^' :: (name ++ [':']) ++ [']'] = ':' :: '^' :: (name ++ [':', ']']) := by
      simp
    rw [htext]
    exact .lacking named

/-- A member of a class is read by its first character, and a dash after a single one makes a range
of it if a character follows that can end the range. -/
theorem readClassItem_eq_ok_iff {c : Char} {item : ClassItem} (hc : c ≠ ']') :
    readClassItem c chars = .ok (item, rest) ↔
      ∃ written, c :: chars = written ++ rest ∧ ItemText PlacesText written item ∧
        (written.length = 1 → ¬GoesOnAsRange rest) := by
  constructor
  · -- A bracket begins a named class and a backslash an escape; the range is tried before the single
    -- character.
    intro h
    unfold readClassItem at h
    split at h
    · obtain ⟨inner, rfl, hinner⟩ := readNamedClass_eq_ok_iff.1 h
      exact ⟨'[' :: (inner ++ [']']), by simp, hinner.itemText, by simp⟩
    · obtain ⟨written, rfl, hwritten⟩ := readClassEscape_eq_ok_iff.1 h
      refine ⟨'\\' :: written, rfl, .escape hwritten, fun hone => ?_⟩
      cases hwritten <;> simp at hone
    · next last after hbracket hbackslash =>
      split at h
      · next heq =>
        cases h
        refine ⟨[c], rfl, .one ⟨hc, hbracket, hbackslash⟩, ?_⟩
        rintro _ ⟨last', rest', hrange, hlast⟩
        cases hrange
        exact hlast heq
      · next hne =>
        cases h
        exact ⟨[c, '-', last], rfl, .range ⟨hc, hbracket, hbackslash⟩ hne, by simp⟩
    · next hbracket hbackslash hdash =>
      cases h
      refine ⟨[c], rfl, .one ⟨hc, hbracket, hbackslash⟩, ?_⟩
      rintro _ ⟨last, rest', hrange, _⟩
      exact hdash last rest' hrange
  · -- The first character tells which form it is, but for a range, which the dash tells.
    rintro ⟨written, htext, hwritten, hwhole⟩
    cases hwritten with
    | @having name predicate named =>
      cases htext
      exact readNamedClass_eq_ok_iff.2 ⟨_, by simp, PropertyText.having named⟩
    | @lacking name predicate named =>
      cases htext
      exact readNamedClass_eq_ok_iff.2 ⟨_, by simp, PropertyText.lacking named⟩
    | escape escaped =>
      cases htext
      exact readClassEscape_eq_ok_iff.2 ⟨_, rfl, escaped⟩
    | range plain notEnd =>
      cases htext
      unfold readClassItem
      split
      · exact absurd rfl plain.2.1
      · exact absurd rfl plain.2.2
      · next last after _ _ heq =>
        cases heq
        rw [if_neg notEnd]
        rfl
      · next hnot => exact absurd rfl (hnot _ _)
    | one plain =>
      cases htext
      unfold readClassItem
      split
      · exact absurd rfl plain.2.1
      · exact absurd rfl plain.2.2
      · -- What follows would have to go on as a range.
        next last after _ _ heq =>
        split
        · rfl
        · next hne => exact absurd ⟨last, after, heq, hne⟩ (hwhole rfl)
      · rfl

/-- The members of a class end with a bracket. -/
theorem Grammar.ItemsText.exists_eq_concat {code : CodeRule} {written : List Char}
    {items : List ClassItem} (h : ItemsText code written items) : ∃ inner, written = inner ++ [']'] := by
  induction h with
  | close => exact ⟨[], rfl⟩
  | @item written others item items first rest whole ih =>
    obtain ⟨inner, rfl⟩ := ih
    exact ⟨written ++ inner, (List.append_assoc _ _ _).symm⟩

/-- So what follows a class does not matter to the reading of its members. -/
theorem Grammar.ItemsText.goesOnAsRange_append {code : CodeRule} {written : List Char}
    {items : List ClassItem} (h : ItemsText code written items) (rest : List Char) :
    GoesOnAsRange (written ++ rest) ↔ GoesOnAsRange written := by
  obtain ⟨inner, rfl⟩ := h.exists_eq_concat
  match inner with
  | [] => simp [GoesOnAsRange]
  | [c] => simp [GoesOnAsRange]
  | c :: last :: more => simp [GoesOnAsRange]

/-- A member of a class does not begin with the bracket that closes the class. -/
theorem Grammar.ItemText.exists_eq_cons {code : CodeRule} {written : List Char} {item : ClassItem}
    (h : ItemText code written item) : ∃ c tail, written = c :: tail ∧ c ≠ ']' := by
  cases h with
  | having => exact ⟨'[', _, rfl, by decide⟩
  | lacking => exact ⟨'[', _, rfl, by decide⟩
  | escape => exact ⟨'\\', _, rfl, by decide⟩
  | @range first last plain => exact ⟨first, _, rfl, plain.1⟩
  | @one c plain => exact ⟨c, _, rfl, plain.1⟩

/-- The members of a class are read up to the bracket that closes it. -/
theorem readClassItems_eq_ok_iff {items : List ClassItem} :
    readClassItems chars = .ok (items, rest) ↔
      ∃ written, chars = written ++ rest ∧ ItemsText PlacesText written items := by
  constructor
  · -- By the recursion of the reader; what follows the class does not decide about ranges in it.
    intro h
    fun_induction readClassItems chars generalizing items rest with
    | case1 => cases h
    | case2 =>
      cases h
      exact ⟨[']'], rfl, .close⟩
    | case3 => cases h
    | case4 c tail hc item after hitem hle ih =>
      obtain ⟨⟨more, last⟩, hmore, heq⟩ := exists_of_map_eq_ok h
      cases heq
      obtain ⟨others, rfl, hothers⟩ := ih hmore
      obtain ⟨written, htext, hwritten, hwhole⟩ := (readClassItem_eq_ok_iff hc).1 hitem
      refine ⟨written ++ others, ?_, .item hwritten hothers fun hone => ?_⟩
      · rw [htext, List.append_assoc]
      · rw [← hothers.goesOnAsRange_append rest]
        exact hwhole hone
  · -- By the grammar, whose members begin with no closing bracket.
    rintro ⟨written, rfl, hwritten⟩
    induction hwritten with
    | close =>
      rw [List.singleton_append, readClassItems, if_pos rfl]
    | @item written others item items first others' whole ih =>
      obtain ⟨c, tail, rfl, hc⟩ := first.exists_eq_cons
      have hitem := (readClassItem_eq_ok_iff hc).2
        ⟨c :: tail, (rfl : c :: (tail ++ (others ++ rest)) = _), first, fun hone => by
          rw [others'.goesOnAsRange_append]
          exact whole hone⟩
      rw [List.append_assoc, List.cons_append, readClassItems, if_neg hc]
      split
      · next herror => rw [hitem] at herror; cases herror
      · next item' after hread =>
        rw [hitem] at hread
        cases hread
        rw [ih]
        rfl

/-- A class is read up to the bracket that closes it. -/
theorem readClass_eq_ok_iff {token : PatternToken} :
    readClass chars = .ok (token, rest) ↔ ∃ written set, chars = written ++ rest ∧
      token = .oneOf set ∧ ClassText PlacesText written set := by
  constructor
  · -- A sign of negation in front belongs to the class, and not to its members.
    intro h
    unfold readClass at h
    split at h
    · next tail =>
      obtain ⟨⟨items, last⟩, hitems, heq⟩ := exists_of_map_eq_ok h
      cases heq
      obtain ⟨written, rfl, hwritten⟩ := readClassItems_eq_ok_iff.1 hitems
      exact ⟨'^' :: written, _, rfl, rfl, .inverted hwritten⟩
    · next hplain =>
      obtain ⟨⟨items, last⟩, hitems, heq⟩ := exists_of_map_eq_ok h
      cases heq
      obtain ⟨written, rfl, hwritten⟩ := readClassItems_eq_ok_iff.1 hitems
      refine ⟨written, _, rfl, rfl, .plain hwritten fun hhead => ?_⟩
      obtain ⟨tail, rfl⟩ := List.head?_eq_some_iff.1 hhead
      exact hplain _ rfl
  · rintro ⟨written, set, rfl, rfl, hwritten⟩
    cases hwritten with
    | plain members notInverted =>
      -- Members that do not begin with the sign are not read as a negated class.
      obtain ⟨inner, rfl⟩ := members.exists_eq_concat
      have hitems := readClassItems_eq_ok_iff.2 ⟨_, (rfl : _ ++ rest = _), members⟩
      unfold readClass
      split
      · next heq =>
        refine absurd ?_ notInverted
        cases inner <;> cases heq
        rfl
      · rw [hitems]
        rfl
    | inverted members =>
      have hitems := readClassItems_eq_ok_iff.2 ⟨_, (rfl : _ ++ rest = _), members⟩
      simp only [List.cons_append, readClass, hitems, Except.map]

/-! ## Tokens -/

/-- The text of a token at this position, with what must follow it for it not to go on. -/
inductive TokenText (position : Nat) : List Char → PatternToken → List Char → Prop where
  /-- A node without other nodes in it. -/
  | simple {written rest : List Char} {token : PatternToken} {node : Node}
    (stands : token.node? = some node) (text : SimpleText PlacesText written node) :
    TokenText position written token rest
  /-- A repetition that prefers more rounds. -/
  | greedy {kind : Repetition} {rest : List Char} (notLazy : rest.head? ≠ some '?') :
    TokenText position [loopChar kind] (.loop kind true) rest
  /-- A repetition that prefers fewer rounds. -/
  | lazy {kind : Repetition} {rest : List Char} :
    TokenText position [loopChar kind, '?'] (.loop kind false) rest
  /-- The beginning of a group that is remembered. -/
  | remembered {rest : List Char} (named : ¬['?', ':'] <+: rest) :
    TokenText position ['('] (.openGroup true) rest
  /-- The beginning of a group that is not. -/
  | unnamed {rest : List Char} : TokenText position ['(', '?', ':'] (.openGroup false) rest
  /-- The end of a group. -/
  | closeGroup {rest : List Char} : TokenText position [')'] (.closeGroup position) rest
  /-- The bar between two branches. -/
  | bar {rest : List Char} : TokenText position ['|'] .bar rest

variable {position : Nat} {token : PatternToken}

/-- What is read as a repetition is written as one. -/
theorem tokenText_of_readLoop (kind : Repetition) (h : readLoop kind chars = (token, rest)) :
    ∃ written, loopChar kind :: chars = written ++ rest ∧
      TokenText position written token rest := by
  unfold readLoop at h
  split at h
  · cases h
    exact ⟨[loopChar kind, '?'], rfl, .lazy⟩
  · next hgreedy =>
    cases h
    refine ⟨[loopChar kind], rfl, .greedy fun hhead => ?_⟩
    obtain ⟨tail, rfl⟩ := List.head?_eq_some_iff.1 hhead
    exact hgreedy _ rfl

/-- What is read as the beginning of a group is written as one. -/
theorem tokenText_of_readOpen (h : readOpen chars = (token, rest)) :
    ∃ written, '(' :: chars = written ++ rest ∧ TokenText position written token rest := by
  unfold readOpen at h
  split at h
  · cases h
    exact ⟨['(', '?', ':'], rfl, .unnamed⟩
  · next hnamed =>
    cases h
    refine ⟨['('], rfl, .remembered ?_⟩
    rintro ⟨tail, rfl⟩
    exact hnamed _ rfl

/-- What is read as a token is the text of one. -/
theorem tokenText_of_read {c : Char} (h : PatternToken.read position c chars = .ok (token, rest)) :
    ∃ written, c :: chars = written ++ rest ∧ TokenText position written token rest := by
  unfold PatternToken.read at h
  split at h
  · obtain ⟨written, node, rfl, hnode, hwritten⟩ := readEscape_eq_ok_iff.1 h
    exact ⟨'\\' :: written, rfl, .simple hnode (.escape hwritten)⟩
  · obtain ⟨written, set, rfl, rfl, hwritten⟩ := readClass_eq_ok_iff.1 h
    exact ⟨'[' :: written, rfl, .simple rfl (.oneOf hwritten)⟩
  · cases h
    exact ⟨['.'], rfl, .simple rfl .dot⟩
  · cases h
    exact ⟨['^'], rfl, .simple rfl .beginLine⟩
  · cases h
    exact ⟨['$'], rfl, .simple rfl .endLine⟩
  · exact tokenText_of_readLoop .zeroOrMore (Except.ok.inj h)
  · exact tokenText_of_readLoop .oneOrMore (Except.ok.inj h)
  · exact tokenText_of_readLoop .zeroOrOne (Except.ok.inj h)
  · exact tokenText_of_readOpen (Except.ok.inj h)
  · cases h
    exact ⟨[')'], rfl, .closeGroup⟩
  · cases h
    exact ⟨['|'], rfl, .bar⟩
  · cases h
    refine ⟨[c], rfl, .simple rfl (.char ?_)⟩
    simp_all [isMark]

/-- The text of a token is read as that token. -/
theorem TokenText.read {written : List Char} (h : TokenText position written token rest) :
    ∃ c chars, written ++ rest = c :: chars ∧
      PatternToken.read position c chars = .ok (token, rest) := by
  cases h with
  | simple stands text =>
    cases text with
    | @char c plain =>
      -- A plain character is none of those that the reader tells apart before it.
      refine ⟨c, rest, rfl, ?_⟩
      rw [PatternToken.eq_of_node? stands (.char c) rfl]
      unfold PatternToken.read
      split
      case h_12 => rfl
      all_goals cases plain
    | dot => exact ⟨_, _, rfl, by rw [PatternToken.eq_of_node? stands (.oneOf _) rfl]; rfl⟩
    | beginLine =>
      exact ⟨_, _, rfl, by rw [PatternToken.eq_of_node? stands (.assert _) rfl]; rfl⟩
    | endLine =>
      exact ⟨_, _, rfl, by rw [PatternToken.eq_of_node? stands (.assert _) rfl]; rfl⟩
    | escape escaped => exact ⟨_, _, rfl, readEscape_eq_ok_iff.2 ⟨_, _, rfl, stands, escaped⟩⟩
    | oneOf members =>
      rw [PatternToken.eq_of_node? stands (.oneOf _) rfl]
      exact ⟨_, _, rfl, readClass_eq_ok_iff.2 ⟨_, _, rfl, rfl, members⟩⟩
  | @greedy kind _ notLazy =>
    -- A question mark behind the sign would make it lazy.
    have hgreedy : readLoop kind rest = (.loop kind true, rest) := by
      unfold readLoop
      split
      · exact absurd rfl notLazy
      · rfl
    refine ⟨loopChar kind, rest, rfl, ?_⟩
    cases kind <;> exact congrArg Except.ok hgreedy
  | @lazy kind =>
    refine ⟨loopChar kind, '?' :: rest, rfl, ?_⟩
    cases kind <;> rfl
  | remembered named =>
    -- `?:` behind the parenthesis would leave the group without a number.
    have hopen : readOpen rest = (.openGroup true, rest) := by
      unfold readOpen
      split
      · exact absurd ⟨_, rfl⟩ named
      · rfl
    exact ⟨'(', rest, rfl, congrArg Except.ok hopen⟩
  | unnamed => exact ⟨'(', '?' :: ':' :: rest, rfl, rfl⟩
  | closeGroup => exact ⟨')', rest, rfl, rfl⟩
  | bar => exact ⟨'|', rest, rfl, rfl⟩

/-- The tokens of a text that begins with the text of a token. -/
theorem TokenText.tokens {written : List Char} (h : TokenText position written token rest) :
    PatternToken.tokens position (written ++ rest) =
      token :: PatternToken.tokens (position + written.length) rest := by
  obtain ⟨c, chars, htext, hread⟩ := h.read
  have hlength := congrArg List.length htext
  simp only [List.length_append, List.length_cons] at hlength
  rw [htext, PatternToken.tokens]
  split
  · next herror => rw [hread] at herror; cases herror
  · next token' after hok =>
    rw [hread] at hok
    cases hok
    rw [show chars.length + 1 - rest.length = written.length by omega]

/-- The tokens of a text that is not empty: those of a text that begins with the text of a token,
or the mark of an error. -/
theorem tokens_cases (position : Nat) (c : Char) (chars : List Char) :
    (∃ error, PatternToken.tokens position (c :: chars) = [.invalid error]) ∨
    ∃ written token rest, c :: chars = written ++ rest ∧ rest.length ≤ chars.length ∧
      TokenText position written token rest := by
  cases hread : PatternToken.read position c chars with
  | error error =>
    left
    rw [PatternToken.tokens]
    split
    · exact ⟨_, rfl⟩
    · next hok => rw [hread] at hok; cases hok
  | ok result =>
    obtain ⟨token, rest⟩ := result
    right
    obtain ⟨written, htext, hwritten⟩ := tokenText_of_read hread
    exact ⟨written, token, rest, htext, PatternToken.length_of_read hread, hwritten⟩

end Emend
