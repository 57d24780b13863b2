import Emend.Command.Replacement

/-!
# What a replacement text writes

In the replacement text of a substitution a backslash and a digit stand for the text of a group, and
other escapes for line ends, tabs, or the escaped character itself. `Captures.Writes` says so as a
relation, one rule for each of these pieces. The groups that a text names (`references`) decide
whether it can be expanded for a match at all: it can if the match knows each of them, and then what
it writes is what the rules say (`Captures.exists_expand`, `Captures.expand_eq_ok_iff`); otherwise
the first one that is missing is reported (`Captures.expand_eq_error`).
-/

namespace Emend

/-- The number of the group that a digit stands for. -/
def groupNumber (digit : Char) : Nat :=
  digit.toNat - '0'.toNat

/-- The numbers of the groups that a replacement text names, in their order. -/
def references : List Char → List Nat
  | [] => []
  | ['\\'] => []
  | '\\' :: c :: rest => if c.isDigit then groupNumber c :: references rest else references rest
  | _ :: rest => references rest

namespace Captures

/-- The text of a group, which is empty if the group took no part in the match. -/
def groupText (captures : Captures) (text : Source) (number : Nat) : List Char :=
  match captures.group? number with
  | some (start, stop) => text.slice start stop
  | none => []

/-- What a replacement text writes for a match. -/
inductive Writes (captures : Captures) (text : Source) : List Char → List Char → Prop where
  /-- Nothing. -/
  | nil : Writes captures text [] []
  /-- A backslash at the end. -/
  | lone : Writes captures text ['\\'] ['\\']
  /-- A character without a backslash. -/
  | plain {c : Char} {rest written : List Char} (hne : c ≠ '\\')
    (others : Writes captures text rest written) : Writes captures text (c :: rest) (c :: written)
  /-- A group of the pattern. -/
  | group {digit : Char} {rest written : List Char} (hdigit : digit.isDigit = true)
    (known : groupNumber digit < captures.groupCount)
    (others : Writes captures text rest written) :
    Writes captures text ('\\' :: digit :: rest)
      (captures.groupText text (groupNumber digit) ++ written)
  /-- A line end. -/
  | newline {rest written : List Char} (others : Writes captures text rest written) :
    Writes captures text ('\\' :: 'n' :: rest) ('\n' :: written)
  /-- A tab. -/
  | tab {rest written : List Char} (others : Writes captures text rest written) :
    Writes captures text ('\\' :: 't' :: rest) ('\t' :: written)
  /-- Any other character, which stands for itself. -/
  | escaped {c : Char} {rest written : List Char} (hdigit : c.isDigit = false) (hnewline : c ≠ 'n')
    (htab : c ≠ 't') (others : Writes captures text rest written) :
    Writes captures text ('\\' :: c :: rest) (c :: written)

variable {captures : Captures} {text : Source} {template : List Char} {number : Nat}

/-! ## Expanding -/

/-- What an escape stands for. -/
def expandEscape (captures : Captures) (text : Source) (c : Char) : Except EditError (List Char) :=
  if c.isDigit then
    if captures.groupCount ≤ groupNumber c then .error (.unknownGroup (groupNumber c))
    else .ok (captures.groupText text (groupNumber c))
  else if c = 'n' then .ok ['\n']
  else if c = 't' then .ok ['\t']
  else .ok [c]

/-- A backslash and a letter are expanded together. -/
theorem expand_escape (captures : Captures) (text : Source) (c : Char) (rest : List Char) :
    captures.expand text ('\\' :: c :: rest) = do
      let written ← captures.expandEscape text c
      return written ++ (← captures.expand text rest) := by
  rw [expand, expandEscape, groupText, groupNumber]
  dsimp only
  split
  · split
    · rfl
    · cases captures.group? (c.toNat - '0'.toNat) <;> rfl
  · split
    · rfl
    · split <;> rfl

/-- Any other character stands for itself. -/
theorem expand_plain (captures : Captures) (text : Source) {c : Char} (hne : c ≠ '\\')
    (rest : List Char) : captures.expand text (c :: rest) = do
      return c :: (← captures.expand text rest) := by
  rw [expand]
  · rintro rfl
    exact absurd rfl hne
  · rintro _ _ rfl
    exact absurd rfl hne

/-- A replacement text without a backslash at its start begins with a plain character. -/
theorem ne_backslash {c : Char} {rest : List Char} (hlone : c = '\\' → rest = [] → False)
    (hescape : ∀ next others, c = '\\' → rest = next :: others → False) : c ≠ '\\' := by
  intro hc
  cases rest with
  | nil => exact hlone hc rfl
  | cons next others => exact hescape next others hc rfl

/-- **A group that is missing is reported**, the first one that the replacement text names. -/
theorem expand_eq_error (h : (references template).find? (captures.groupCount ≤ ·) = some number) :
    captures.expand text template = .error (.unknownGroup number) := by
  fun_induction references template with
  | case1 => cases h
  | case2 => cases h
  | case3 c rest hdigit ih =>
    rw [expand_escape, expandEscape, if_pos hdigit]
    rw [List.find?_cons] at h
    split at h
    · next hmissing =>
      cases h
      rw [if_pos (of_decide_eq_true hmissing)]
      rfl
    · next hknown =>
      rw [if_neg (of_decide_eq_false hknown), ih h]
      rfl
  | case4 c rest hdigit ih =>
    rw [expand_escape, expandEscape, if_neg hdigit, ih h]
    split
    · rfl
    · split <;> rfl
  | case5 c rest hlone hescape ih =>
    rw [expand_plain captures text (ne_backslash hlone hescape), ih h]
    rfl

/-- **If no group is missing, the rules say what is written.** -/
theorem exists_expand (h : ∀ number ∈ references template, number < captures.groupCount) :
    ∃ written, captures.expand text template = .ok written ∧
      captures.Writes text template written := by
  fun_induction references template with
  | case1 => exact ⟨_, rfl, .nil⟩
  | case2 => exact ⟨_, rfl, .lone⟩
  | case3 c rest hdigit ih =>
    have hknown := h _ List.mem_cons_self
    obtain ⟨written, hrest, hwrites⟩ := ih fun number hmem => h number (List.mem_cons_of_mem _ hmem)
    refine ⟨_, ?_, .group hdigit hknown hwrites⟩
    rw [expand_escape, expandEscape, if_pos hdigit, if_neg (Nat.not_le_of_lt hknown), hrest]
    rfl
  | case4 c rest hdigit ih =>
    obtain ⟨written, hrest, hwrites⟩ := ih h
    rw [expand_escape, expandEscape, if_neg hdigit, hrest]
    split
    · next hnewline => exact ⟨_, rfl, hnewline ▸ .newline hwrites⟩
    · next hnewline =>
      split
      · next htab => exact ⟨_, rfl, htab ▸ .tab hwrites⟩
      · next htab =>
        exact ⟨_, rfl, .escaped (Bool.eq_false_iff.2 hdigit) hnewline htab hwrites⟩
  | case5 c rest hlone hescape ih =>
    obtain ⟨written, hrest, hwrites⟩ := ih h
    have hne := ne_backslash hlone hescape
    refine ⟨_, ?_, .plain hne hwrites⟩
    rw [expand_plain captures text hne, hrest]
    rfl

/-- What the rules allow to be written is what is written. -/
theorem Writes.expand {written : List Char} (h : captures.Writes text template written) :
    captures.expand text template = .ok written := by
  induction h with
  | nil => rfl
  | lone => rfl
  | plain hne others ih =>
    rw [expand_plain captures text hne, ih]
    rfl
  | group hdigit known others ih =>
    rw [expand_escape, expandEscape, if_pos hdigit, if_neg (Nat.not_le_of_lt known), ih]
    rfl
  | newline others ih =>
    rw [expand_escape, ih]
    rfl
  | tab others ih =>
    rw [expand_escape, ih]
    rfl
  | escaped hdigit hnewline htab others ih =>
    rw [expand_escape, expandEscape, if_neg (Bool.eq_false_iff.1 hdigit), if_neg hnewline,
      if_neg htab, ih]
    rfl

/-- **Expanding follows the rules**, and there is only one way to do so. -/
theorem expand_eq_ok_iff {written : List Char} :
    captures.expand text template = .ok written ↔ captures.Writes text template written := by
  refine ⟨fun hexpand => ?_, Writes.expand⟩
  cases hmissing : (references template).find? (captures.groupCount ≤ ·) with
  | some number =>
    rw [expand_eq_error hmissing] at hexpand
    cases hexpand
  | none =>
    have hknown : ∀ number ∈ references template, number < captures.groupCount := by
      intro number hmem
      have hfound := List.find?_eq_none.1 hmissing number hmem
      simpa using hfound
    obtain ⟨other, hother, hwrites⟩ := exists_expand hknown
    rw [hother] at hexpand
    cases hexpand
    exact hwrites

/-- A replacement text without a backslash writes itself. -/
theorem expand_of_plain (h : '\\' ∉ template) : captures.expand text template = .ok template := by
  induction template with
  | nil => rfl
  | cons c rest ih =>
    have hne : c ≠ '\\' := fun hc => h (hc ▸ List.mem_cons_self)
    rw [expand_plain captures text hne, ih fun hmem => h (List.mem_cons_of_mem _ hmem)]
    rfl

end Captures

end Emend
