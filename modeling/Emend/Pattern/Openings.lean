import Emend.Pattern.Grammar

/-!
# Opening parentheses

Where the remembered groups of a pattern are opened can be seen in its text without a tree: at every
opening parenthesis outside of brackets that is not escaped and that `?:` does not follow. All that
has to be known for this is where an escape ends and where a class ends.
-/

namespace Emend.Pattern

/-- What follows an escape, behind its backslash: one character, or the letter of a code point with
six places. -/
def skipEscape : List Char → List Char
  | 'x' :: rest => rest.drop 6
  | rest => rest.tail

/-- What follows a character of a class: with a dash and another character behind it, it begins a
range. -/
def skipRange : List Char → List Char
  | '-' :: last :: rest => if last = ']' then '-' :: last :: rest else rest
  | rest => rest

/-- What follows the name of a property in a class, behind its bracket. -/
def skipProperty (chars : List Char) : List Char :=
  (chars.dropWhile (· != ']')).tail

/-- Behind an escape no more text is left than before. -/
theorem length_skipEscape_le (chars : List Char) : (skipEscape chars).length ≤ chars.length := by
  unfold skipEscape
  split
  · rw [List.length_drop, List.length_cons]
    omega
  · rw [List.length_tail]
    exact Nat.sub_le _ _

/-- Behind a range no more text is left than before. -/
theorem length_skipRange_le (chars : List Char) : (skipRange chars).length ≤ chars.length := by
  unfold skipRange
  split
  · split
    · exact Nat.le_refl _
    · rw [List.length_cons, List.length_cons]
      omega
  · exact Nat.le_refl _

/-- Behind a property no more text is left than before. -/
theorem length_skipProperty_le (chars : List Char) :
    (skipProperty chars).length ≤ chars.length := by
  have hle := (List.dropWhile_suffix (p := (· != ']')) (l := chars)).length_le
  unfold skipProperty
  rw [List.length_tail]
  omega

/-- What follows a class, from any of its members on. -/
def skipMembers (chars : List Char) : List Char :=
  match chars with
  | [] => []
  | c :: rest =>
    if c = ']' then rest
    else if c = '\\' then skipMembers (skipEscape rest)
    else if c = '[' then skipMembers (skipProperty rest)
    else skipMembers (skipRange rest)
termination_by chars.length
decreasing_by
  · exact Nat.lt_succ_of_le (length_skipEscape_le rest)
  · exact Nat.lt_succ_of_le (length_skipProperty_le rest)
  · exact Nat.lt_succ_of_le (length_skipRange_le rest)

/-- What follows a class, behind its bracket. -/
def skipClass : List Char → List Char
  | '^' :: rest => skipMembers rest
  | rest => skipMembers rest

/-- Behind the members of a class no more text is left than before. -/
theorem length_skipMembers_le (chars : List Char) :
    (skipMembers chars).length ≤ chars.length := by
  fun_induction skipMembers chars with
  | case1 => exact Nat.le_refl _
  | case2 => exact Nat.le_succ _
  | case3 rest _ ih =>
    have hle := length_skipEscape_le rest
    rw [List.length_cons]
    omega
  | case4 rest _ _ ih =>
    have hle := length_skipProperty_le rest
    rw [List.length_cons]
    omega
  | case5 c rest _ _ _ ih =>
    have hle := length_skipRange_le rest
    rw [List.length_cons]
    omega

/-- Behind a class no more text is left than before. -/
theorem length_skipClass_le (chars : List Char) : (skipClass chars).length ≤ chars.length := by
  unfold skipClass
  split
  · exact Nat.le_succ_of_le (length_skipMembers_le _)
  · exact length_skipMembers_le _

/-- What follows each of the parentheses that open a remembered group, in their order. -/
def openings (chars : List Char) : List (List Char) :=
  match chars with
  | [] => []
  | c :: rest =>
    if c = '\\' then openings (skipEscape rest)
    else if c = '[' then openings (skipClass rest)
    else if c = '(' ∧ ¬['?', ':'] <+: rest then rest :: openings rest
    else openings rest
termination_by chars.length
decreasing_by
  · exact Nat.lt_succ_of_le (length_skipEscape_le rest)
  · exact Nat.lt_succ_of_le (length_skipClass_le rest)
  · exact Nat.lt_succ_self _
  · exact Nat.lt_succ_self _

/-- A text begins with what the branches of the group write, up to the parenthesis that closes
it. -/
def IsBehindOpening (group : Nat × List (List Node)) (behind : List Char) : Prop :=
  ∃ inside rest after, behind = inside ++ ')' :: rest ∧
    Grammar.ChoiceText Grammar.PlacesText (group.1 + 1) inside group.2 after

end Emend.Pattern
