import Emend.Proofs.Pattern.Parsing

/-!
# Which code points a pattern may name

The parser accepts exactly the patterns of the grammar whose rule for `\x` is `PlacesText`
(`parse_eq_ok_iff_places`). How this differs from six hexadecimal digits is a matter of that one
rule: a derivation keeps its shape when the rule is replaced by another that gives the same codes
in the text at hand, so the two grammars agree on every text in which no plus sign follows `\x`.
-/

namespace Emend

open Grammar PatternToken Pattern

/-- The parser accepts exactly what the grammar with six places writes, with its tree. -/
theorem parse_eq_ok_iff_places (pattern : String) (tree : Node) :
    parse pattern = .ok tree ↔ Writes PlacesText pattern tree := by
  unfold parse Writes
  constructor
  · intro h
    obtain ⟨written, rest, branches, after, htext, htail, hend⟩ := completes_of_build h
    cases hend with
    | pattern =>
      rw [htext, List.append_nil]
      exact ⟨branches, after, htail.choiceText, rfl⟩
  · rintro ⟨branches, after, hchoice, rfl⟩
    obtain ⟨finished, hfinished, hbuild⟩ :=
      build_choice hchoice 0 (.opened (some 0)) [] [] nofun rfl
    rw [List.append_nil] at hbuild
    rw [hbuild, tokens, build.eq_def]
    exact congrArg Except.ok hfinished

/-! ## Another rule for codes -/

/-- Every code of this text that one rule gives is given by the other as well. -/
def Carries (code code' : CodeRule) (text : List Char) : Prop :=
  ∀ places c, '\\' :: 'x' :: places <:+: text → code places c → code' places c

variable {code code' : CodeRule} {next after : Nat} {written text : List Char}

/-- What carries over for a text carries over for its parts. -/
theorem Carries.part (h : Carries code code' text) (hpart : written <:+: text) :
    Carries code code' written :=
  fun places c hplaces => h places c (hplaces.trans hpart)

/-- An escape reads the same under the other rule. -/
theorem Grammar.EscapeText.change {node : Node} (h : EscapeText code written node)
    (hcarries : Carries code code' ('\\' :: written)) : EscapeText code' written node := by
  cases h with
  | assertion named => exact .assertion named
  | shorthand named => exact .shorthand named
  | code written => exact .code (hcarries _ _ (List.infix_refl _) written)
  | letter notCode notAssertion notClass => exact .letter notCode notAssertion notClass

/-- An escape in a class reads the same under the other rule. -/
theorem Grammar.ClassEscapeText.change {item : ClassItem} (h : ClassEscapeText code written item)
    (hcarries : Carries code code' ('\\' :: written)) : ClassEscapeText code' written item := by
  cases h with
  | shorthand named => exact .shorthand named
  | code written => exact .code (hcarries _ _ (List.infix_refl _) written)
  | letter notCode notClass => exact .letter notCode notClass

/-- An item of a class reads the same under the other rule. -/
theorem Grammar.ItemText.change {item : ClassItem} (h : ItemText code written item)
    (hcarries : Carries code code' written) : ItemText code' written item := by
  cases h with
  | having named => exact .having named
  | lacking named => exact .lacking named
  | escape escaped => exact .escape (escaped.change hcarries)
  | range plain notEnd => exact .range plain notEnd
  | one plain => exact .one plain

/-- The items of a class read the same under the other rule. -/
theorem Grammar.ItemsText.change {items : List ClassItem} (h : ItemsText code written items)
    (hcarries : Carries code code' written) : ItemsText code' written items := by
  induction h with
  | close => exact .close
  | item first rest whole ih =>
    exact .item (first.change (hcarries.part (List.infix_append' [] _ _)))
      (ih (hcarries.part (List.suffix_append _ _).isInfix)) whole

/-- A class reads the same under the other rule. -/
theorem Grammar.ClassText.change {set : CharClass} (h : ClassText code written set)
    (hcarries : Carries code code' written) : ClassText code' written set := by
  cases h with
  | plain members notInverted => exact .plain (members.change hcarries) notInverted
  | inverted members =>
    exact .inverted (members.change (hcarries.part (List.suffix_cons _ _).isInfix))

/-- A node that is neither a group nor a repetition reads the same under the other rule. -/
theorem Grammar.SimpleText.change {node : Node} (h : SimpleText code written node)
    (hcarries : Carries code code' written) : SimpleText code' written node := by
  cases h with
  | char plain => exact .char plain
  | dot => exact .dot
  | beginLine => exact .beginLine
  | endLine => exact .endLine
  | escape escaped => exact .escape (escaped.change hcarries)
  | oneOf members =>
    exact .oneOf (members.change (hcarries.part (List.suffix_cons _ _).isInfix))

mutual

/-- An atom reads the same under the other rule, with the groups in it. -/
theorem Grammar.AtomText.change : ∀ {next after : Nat} {written : List Char} {node : Node},
    AtomText code next written node after → Carries code code' written →
    AtomText code' next written node after
  | _, _, _, _, .simple text, hcarries => .simple (text.change hcarries)
  | _, _, _, _, .group inside, hcarries =>
    .group (inside.change (hcarries.part (List.infix_append ['('] _ _)))
  | _, _, _, _, .unnamed inside, hcarries =>
    .unnamed (inside.change (hcarries.part (List.infix_append ['(', '?', ':'] _ _)))

/-- A row of atoms reads the same under the other rule. -/
theorem Grammar.RowText.change : ∀ {next after : Nat} {written : List Char} {nodes : List Node},
    RowText code next written nodes after → Carries code code' written →
    RowText code' next written nodes after
  | _, _, _, _, .nil, _ => .nil
  | _, _, _, _, @RowText.cons _ _ _ _ written loops _ _ _ _ first repeated others, hcarries =>
    .cons (first.change (hcarries.part (by
        rw [List.append_assoc]
        exact (List.prefix_append _ _).isInfix)))
      repeated (others.change (hcarries.part (List.suffix_append _ _).isInfix))

/-- A whole pattern reads the same under the other rule. -/
theorem Grammar.ChoiceText.change : ∀ {next after : Nat} {written : List Char}
    {branches : List (List Node)}, ChoiceText code next written branches after →
    Carries code code' written → ChoiceText code' next written branches after
  | _, _, _, _, .last row, hcarries => .last (row.change hcarries)
  | _, _, _, _, .bar first others, hcarries =>
    .bar (first.change (hcarries.part (List.prefix_append _ _).isInfix))
      (others.change (hcarries.part
        ((List.suffix_cons _ _).trans (List.suffix_append _ _)).isInfix))

end

/-- A pattern has the same trees by all rules that give the same codes in it. -/
theorem Grammar.Writes.change {pattern : String} {tree : Node} (h : Writes code pattern tree)
    (hcarries : Carries code code' pattern.toList) : Writes code' pattern tree := by
  obtain ⟨branches, after, hchoice, rfl⟩ := h
  exact ⟨branches, after, hchoice.change hcarries, rfl⟩

/-- Six digits are six places. -/
theorem carries_hexText (text : List Char) : Carries HexText PlacesText text :=
  fun _ _ _ => .digits

/-- Six places are six digits where no plus sign follows `\x`. -/
theorem carries_placesText (hplus : ¬['\\', 'x', '+'] <:+: text) :
    Carries PlacesText HexText text := by
  intro places c hpart hplaces
  cases hplaces with
  | digits written => exact written
  | @plus digits =>
    exact absurd ((List.prefix_append ['\\', 'x', '+'] digits).isInfix.trans hpart) hplus

/-! ## The documented grammar -/

/-- The parser accepts every pattern of the documented grammar, with its tree, and no other pattern
unless a plus sign stands after `\x`. In all cases it accepts exactly the patterns in which six
digits, or a plus sign and five, follow `\x`. -/
theorem parse_eq_ok_iff (pattern : String) (tree : Node) :
    (parse pattern = .ok tree ↔ Writes PlacesText pattern tree) ∧
    (Writes HexText pattern tree → parse pattern = .ok tree) ∧
    (¬['\\', 'x', '+'] <:+: pattern.toList →
      (parse pattern = .ok tree ↔ Writes HexText pattern tree)) := by
  have hplaces := parse_eq_ok_iff_places pattern tree
  have hdigits : Writes HexText pattern tree → parse pattern = .ok tree := fun h =>
    hplaces.2 (h.change (carries_hexText _))
  refine ⟨hplaces, hdigits, fun hplus => ⟨fun h => ?_, hdigits⟩⟩
  exact (hplaces.1 h).change (carries_placesText hplus)

/-- A lazy repetition after a code, with the derivation that the parser agrees with. -/
theorem parse_eq_ok_iff_code :
    ¬['\\', 'x', '+'] <:+: "\\x000042|c*?".toList ∧
    Writes HexText "\\x000042|c*?"
      (.group (some 0) [[.char 'B'], [.loop .zeroOrMore false (.char 'c')]]) ∧
    parse "\\x000042|c*?" =
      .ok (.group (some 0) [[.char 'B'], [.loop .zeroOrMore false (.char 'c')]]) := by
  have hplus : ¬['\\', 'x', '+'] <:+: "\\x000042|c*?".toList := fun hpart =>
    absurd (hpart.subset (show '+' ∈ ['\\', 'x', '+'] by decide)) (by decide)
  have hcode : HexText ['0', '0', '0', '0', '4', '2'] 'B' := ⟨by decide, by decide⟩
  have hfirst : RowText HexText 1 ('\\' :: 'x' :: ['0', '0', '0', '0', '4', '2'] ++ [] ++ [])
      [.char 'B'] 1 := .cons (.simple (.escape (.code hcode))) .nil .nil
  have hloops : LoopsText [loopChar .zeroOrMore, '?'] (.char 'c')
      (.loop .zeroOrMore false (.char 'c')) := .lazy .nil
  have hlast : RowText HexText 1 (['c'] ++ [loopChar .zeroOrMore, '?'] ++ [])
      [.loop .zeroOrMore false (.char 'c')] 1 := .cons (.simple (.char rfl)) hloops .nil
  have hwritten : Writes HexText "\\x000042|c*?"
      (.group (some 0) [[.char 'B'], [.loop .zeroOrMore false (.char 'c')]]) :=
    ⟨_, 1, .bar hfirst (.last hlast), rfl⟩
  exact ⟨hplus, hwritten, ((parse_eq_ok_iff _ _).2.2 hplus).2 hwritten⟩

/-- A code of the documented grammar does not begin with a plus sign. -/
theorem Grammar.AtomText.not_plus_prefix {atom : Node}
    (h : AtomText HexText next written atom after) (rest : List Char) : ¬['\\', 'x', '+'] <+: written ++ rest := by
  rintro ⟨tail, htail⟩
  cases h with
  | simple text =>
    cases text with
    | char plain => cases htail; cases plain
    | dot => cases htail
    | beginLine => cases htail
    | endLine => cases htail
    | escape escaped =>
      cases escaped with
      | assertion named => cases htail; cases named
      | shorthand named => cases htail; cases named
      | @code places c written =>
        match places, written with
        | [], written => cases written.six
        | digit :: digits, written =>
          cases htail
          cases written.code
      | letter notCode => cases htail; exact notCode rfl
    | oneOf => cases htail
  | group => cases htail
  | unnamed => cases htail

/-- A code of hexadecimal digits does not begin with a plus sign. -/
theorem Grammar.ChoiceText.not_plus_prefix {branches : List (List Node)}
    (h : ChoiceText HexText next written branches after) : ¬['\\', 'x', '+'] <+: written := by
  have hrow {next after written nodes} (row : RowText HexText next written nodes after)
      {rest : List Char} (hrest : ¬['\\', 'x', '+'] <+: rest) :
      ¬['\\', 'x', '+'] <+: written ++ rest := by
    cases row with
    | nil => exact hrest
    | cons first =>
      rw [List.append_assoc, List.append_assoc]
      exact first.not_plus_prefix _
  cases h with
  | last row =>
    have hempty := hrow row (show ¬['\\', 'x', '+'] <+: [] by decide)
    rwa [List.append_nil] at hempty
  | bar first => exact hrow first (by simp)

/-- A plus sign and five digits are accepted as a code, although six digits are documented. -/
theorem not_parse_eq_ok_iff :
    parse "\\x+00041" = .ok (.group (some 0) [[.char 'A']]) ∧
    ¬∃ tree, Writes HexText "\\x+00041" tree := by
  constructor
  · have hcode : PlacesText ['+', '0', '0', '0', '4', '1'] 'A' := .plus (by decide) (by decide)
    have hrow : RowText PlacesText 1 ('\\' :: 'x' :: ['+', '0', '0', '0', '4', '1'] ++ [] ++ [])
        [.char 'A'] 1 := .cons (.simple (.escape (.code hcode))) .nil .nil
    exact (parse_eq_ok_iff_places _ _).2 ⟨_, 1, .last hrow, rfl⟩
  · rintro ⟨tree, branches, after, hchoice, -⟩
    exact hchoice.not_plus_prefix ⟨_, rfl⟩

end Emend
