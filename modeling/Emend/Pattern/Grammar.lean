import Emend.Pattern.Parser

/-!
# The grammar of patterns

Which texts are patterns, and the tree that each of them writes, said by rules and not by a reader.
The longer of two readings is meant: a question mark after a repetition makes it lazy, and a dash
between two characters of a class makes a range of them. The rules for groups count the opening
parentheses of those that are remembered, so a tree is written together with the number that the
next group would get.

What may stand after `\x` is a parameter of all the rules. The documented rule is `HexText`, six
hexadecimal digits; `PlacesText` also admits a sign in the first of the six places.
-/

namespace Emend.Grammar

/-- What may be written after `\x`, and for which character. -/
abbrev CodeRule := List Char → Char → Prop

/-- Six hexadecimal digits write this character. -/
structure HexText (digits : List Char) (c : Char) : Prop where
  /-- There are six digits. -/
  six : digits.length = 6
  /-- They write the code point. -/
  code : hexDigits? digits = some c.toNat

/-- Six places write this character: six hexadecimal digits, or a plus sign and five. -/
inductive PlacesText : CodeRule where
  /-- Six digits. -/
  | digits {digits : List Char} {c : Char} (written : HexText digits c) : PlacesText digits c
  /-- A plus sign and five digits. -/
  | plus {digits : List Char} {c : Char} (five : digits.length = 5)
    (code : hexDigits? digits = some c.toNat) : PlacesText ('+' :: digits) c

/-- What may follow a backslash outside brackets. -/
inductive EscapeText (code : CodeRule) : List Char → Node → Prop where
  /-- The letter of an assertion. -/
  | assertion {letter : Char} {assertion : Assertion}
    (named : Assertion.ofEscape? letter = some assertion) :
    EscapeText code [letter] (.assert assertion)
  /-- The letter of a class. -/
  | shorthand {letter : Char} {set : CharClass}
    (named : CharClass.ofShorthand? letter = some set) : EscapeText code [letter] (.oneOf set)
  /-- A code point. -/
  | code {places : List Char} {c : Char} (written : code places c) :
    EscapeText code ('x' :: places) (.char c)
  /-- Any other letter stands for a character that it names, or for itself. -/
  | letter {letter : Char} (notCode : letter ≠ 'x')
    (notAssertion : Assertion.ofEscape? letter = none)
    (notClass : CharClass.ofShorthand? letter = none) :
    EscapeText code [letter] (.char ((namedEscape? letter).getD letter))

/-- What may follow a backslash inside brackets. -/
inductive ClassEscapeText (code : CodeRule) : List Char → ClassItem → Prop where
  /-- The letter of a class. -/
  | shorthand {letter : Char} {predicate : CharPredicate} {negated : Bool}
    (named : CharClass.shorthand? letter = some (predicate, negated)) :
    ClassEscapeText code [letter] (.having predicate negated)
  /-- A code point. -/
  | code {places : List Char} {c : Char} (written : code places c) :
    ClassEscapeText code ('x' :: places) (.one c)
  /-- Any other letter stands for a character that it names, or for itself. -/
  | letter {letter : Char} (notCode : letter ≠ 'x')
    (notClass : CharClass.shorthand? letter = none) :
    ClassEscapeText code [letter] (.one ((namedEscape? letter).getD letter))

/-- A character that stands for itself inside brackets. -/
def IsClassChar (c : Char) : Prop :=
  c ≠ ']' ∧ c ≠ '[' ∧ c ≠ '\\'

/-- A member of a class. -/
inductive ItemText (code : CodeRule) : List Char → ClassItem → Prop where
  /-- A property by its name. -/
  | having {name : List Char} {predicate : CharPredicate}
    (named : CharClass.named? (String.ofList name) = some predicate) :
    ItemText code ('[' :: ':' :: (name ++ [':', ']'])) (.having predicate false)
  /-- The lack of a property. -/
  | lacking {name : List Char} {predicate : CharPredicate}
    (named : CharClass.named? (String.ofList name) = some predicate) :
    ItemText code ('[' :: ':' :: '^' :: (name ++ [':', ']'])) (.having predicate true)
  /-- An escape. -/
  | escape {written : List Char} {item : ClassItem} (escaped : ClassEscapeText code written item) :
    ItemText code ('\\' :: written) item
  /-- Two characters with a dash between them. -/
  | range {first last : Char} (plain : IsClassChar first) (notEnd : last ≠ ']') :
    ItemText code [first, '-', last] (.range first last)
  /-- One character. -/
  | one {c : Char} (plain : IsClassChar c) : ItemText code [c] (.one c)

/-- A text goes on with a dash and a character that can end a range. -/
def GoesOnAsRange (text : List Char) : Prop :=
  ∃ last rest, text = '-' :: last :: rest ∧ last ≠ ']'

/-- The members of a class with the bracket that closes it. -/
inductive ItemsText (code : CodeRule) : List Char → List ClassItem → Prop where
  /-- No members. -/
  | close : ItemsText code [']'] []
  /-- A member and others after it. A character that could begin a range does. -/
  | item {written others : List Char} {item : ClassItem} {items : List ClassItem}
    (first : ItemText code written item) (rest : ItemsText code others items)
    (whole : written.length = 1 → ¬ GoesOnAsRange others) :
    ItemsText code (written ++ others) (item :: items)

/-- What may follow an opening bracket. -/
inductive ClassText (code : CodeRule) : List Char → CharClass → Prop where
  /-- A class of its members. -/
  | plain {written : List Char} {items : List ClassItem} (members : ItemsText code written items)
    (notInverted : written.head? ≠ some '^') : ClassText code written (.bracket false items)
  /-- A class of all others. -/
  | inverted {written : List Char} {items : List ClassItem}
    (members : ItemsText code written items) :
    ClassText code ('^' :: written) (.bracket true items)

/-- A character with a meaning of its own outside brackets. -/
def isMark (c : Char) : Bool :=
  ['\\', '.', '^', '$', '[', '(', ')', '|', '*', '+', '?'].contains c

/-- The character of a repetition. -/
def loopChar : Repetition → Char
  | .zeroOrMore => '*'
  | .oneOrMore => '+'
  | .zeroOrOne => '?'

/-- The repetitions after a node, and the node with them. -/
inductive LoopsText : List Char → Node → Node → Prop where
  /-- None. -/
  | nil {node : Node} : LoopsText [] node node
  /-- A repetition that prefers more rounds. -/
  | greedy {written : List Char} {kind : Repetition} {node result : Node}
    (notLazy : written.head? ≠ some '?') (rest : LoopsText written (.loop kind true node) result) :
    LoopsText (loopChar kind :: written) node result
  /-- A repetition that prefers fewer rounds. -/
  | lazy {written : List Char} {kind : Repetition} {node result : Node}
    (rest : LoopsText written (.loop kind false node) result) :
    LoopsText (loopChar kind :: '?' :: written) node result

/-- A node without other nodes in it. -/
inductive SimpleText (code : CodeRule) : List Char → Node → Prop where
  /-- A character that stands for itself. -/
  | char {c : Char} (plain : isMark c = false) : SimpleText code [c] (.char c)
  /-- Any character but a line end. -/
  | dot : SimpleText code ['.'] (.oneOf .dot)
  /-- The beginning of a line. -/
  | beginLine : SimpleText code ['^'] (.assert .beginLine)
  /-- The end of a line. -/
  | endLine : SimpleText code ['$'] (.assert .endLine)
  /-- An escape. -/
  | escape {written : List Char} {node : Node} (escaped : EscapeText code written node) :
    SimpleText code ('\\' :: written) node
  /-- A class in brackets. -/
  | oneOf {written : List Char} {set : CharClass} (members : ClassText code written set) :
    SimpleText code ('[' :: written) (.oneOf set)

mutual

/-- A node without repetitions, with the numbers of the next group before and after it. -/
inductive AtomText (code : CodeRule) : Nat → List Char → Node → Nat → Prop where
  /-- A node without other nodes in it. -/
  | simple {next : Nat} {written : List Char} {node : Node} (text : SimpleText code written node) :
    AtomText code next written node next
  /-- A group that is remembered. -/
  | group {next after : Nat} {written : List Char} {branches : List (List Node)}
    (inside : ChoiceText code (next + 1) written branches after) :
    AtomText code next ('(' :: (written ++ [')'])) (.group (some next) branches) after
  /-- A group that is not. -/
  | unnamed {next after : Nat} {written : List Char} {branches : List (List Node)}
    (inside : ChoiceText code next written branches after) :
    AtomText code next ('(' :: '?' :: ':' :: (written ++ [')'])) (.group none branches) after

/-- Nodes in a row. -/
inductive RowText (code : CodeRule) : Nat → List Char → List Node → Nat → Prop where
  /-- No nodes. -/
  | nil {next : Nat} : RowText code next [] [] next
  /-- A node with its repetitions and others after it. -/
  | cons {next middle after : Nat} {written loops others : List Char} {atom node : Node}
    {nodes : List Node} (first : AtomText code next written atom middle)
    (repeated : LoopsText loops atom node) (rest : RowText code middle others nodes after) :
    RowText code next (written ++ loops ++ others) (node :: nodes) after

/-- Branches with bars between them. -/
inductive ChoiceText (code : CodeRule) : Nat → List Char → List (List Node) → Nat → Prop where
  /-- The last branch. -/
  | last {next after : Nat} {written : List Char} {branch : List Node}
    (row : RowText code next written branch after) : ChoiceText code next written [branch] after
  /-- A branch and others after it. -/
  | bar {next middle after : Nat} {written others : List Char} {branch : List Node}
    {branches : List (List Node)} (first : RowText code next written branch middle)
    (rest : ChoiceText code middle others branches after) :
    ChoiceText code next (written ++ '|' :: others) (branch :: branches) after

end

/-- A text is a pattern, and this is its tree. -/
def Writes (code : CodeRule) (pattern : String) (tree : Node) : Prop :=
  ∃ branches after, ChoiceText code 1 pattern.toList branches after ∧
    tree = .group (some 0) branches

end Emend.Grammar
