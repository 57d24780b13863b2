import Emend.Text.Selection

/-!
# The lines of a text

A text is cut after each of its newlines. The pieces make up the text again; only the last of them
may lack a newline, and none is empty. The lines of a text are its pieces, and one more that is
empty if nothing comes after the last newline, so a text always has a line for an insertion at its
end.
-/

namespace Emend.Lines

/-- The pieces of a text, cut after each newline. -/
def pieces : List Char → List (List Char)
  | [] => []
  | c :: rest =>
    if c = '\n' then [c] :: pieces rest
    else
      match pieces rest with
      | [] => [[c]]
      | piece :: others => (c :: piece) :: others

/-- The lines of a text. -/
def lines (text : List Char) : List (List Char) :=
  if text.getLast?.all (· == '\n') then pieces text ++ [[]] else pieces text

/-- The ranges that pieces take up when the first of them begins at `start`. -/
def rangesFrom (start : Nat) : List (List Char) → List Selection
  | [] => []
  | piece :: rest => ⟨start, start + piece.length⟩ :: rangesFrom (start + piece.length) rest

/-- The ranges of the lines of a text. -/
def ranges (text : List Char) : List Selection :=
  rangesFrom 0 (lines text)

/-- A range of a table holds a position: it is the last that begins at or before it. -/
structure HoldsAt (table : List Selection) (position index : Nat) (line : Selection) : Prop where
  /-- The range with this number. -/
  entry : table[index]? = some line
  /-- It begins at or before the position. -/
  begins : line.start ≤ position
  /-- None of those behind it does. -/
  last : ∀ other range, table[other]? = some range → range.start ≤ position → other ≤ index

/-- A range holds a position if the ranges behind it begin behind the position. -/
theorem HoldsAt.of_drop {table : List Selection} {position index : Nat} {line : Selection}
    (hentry : table[index]? = some line) (hbegins : line.start ≤ position)
    (hlater : ∀ range ∈ table.drop (index + 1), position < range.start) :
    HoldsAt table position index line := by
  refine ⟨hentry, hbegins, fun other range hother hrange => Nat.le_of_not_lt fun hlt => ?_⟩
  have hmem : range ∈ table.drop (index + 1) := by
    rw [List.mem_drop_iff_getElem]
    obtain ⟨hinside, hhere⟩ := List.getElem?_eq_some_iff.1 hother
    exact ⟨other - (index + 1), by omega, by simp only [Nat.add_sub_cancel' hlt, hhere]⟩
  exact Nat.not_le_of_lt (hlater range hmem) hrange

/-- Only one range of a table holds a position. -/
theorem HoldsAt.index_eq {table : List Selection} {position index other : Nat}
    {line range : Selection} (h : HoldsAt table position index line)
    (hother : HoldsAt table position other range) : index = other :=
  Nat.le_antisymm (hother.last index line h.entry h.begins)
    (h.last other range hother.entry hother.begins)

/-- The pieces make up the text. -/
theorem flatten_pieces (text : List Char) : (pieces text).flatten = text := by
  induction text with
  | nil => rfl
  | cons c rest ih =>
    unfold pieces
    split
    · simp [ih]
    · cases hrest : pieces rest with
      | nil => rw [hrest] at ih; simp [← ih]
      | cons piece others => rw [hrest] at ih; simp [← ih]

/-- No piece is empty. -/
theorem ne_nil_of_mem_pieces {text piece : List Char} (h : piece ∈ pieces text) : piece ≠ [] := by
  induction text generalizing piece with
  | nil => simp [pieces] at h
  | cons c rest ih =>
    unfold pieces at h
    split at h
    · rcases List.mem_cons.1 h with rfl | h
      · simp
      · exact ih h
    · cases hrest : pieces rest with
      | nil =>
        rw [hrest] at h
        simp only [List.mem_singleton] at h
        simp [h]
      | cons first others =>
        rw [hrest] at h ih
        rcases List.mem_cons.1 h with rfl | h
        · simp
        · exact ih (List.mem_cons_of_mem _ h)

/-! ## Cutting at the first newline -/

variable {body rest : List Char}

/-- Up to its first newline a text is one piece. -/
theorem pieces_append (hbody : '\n' ∉ body) (rest : List Char) :
    pieces (body ++ '\n' :: rest) = (body ++ ['\n']) :: pieces rest := by
  induction body with
  | nil => rw [List.nil_append, pieces, if_pos rfl, List.nil_append]
  | cons c body ih =>
    obtain ⟨hc, hbody⟩ := List.ne_and_not_mem_of_not_mem_cons hbody
    rw [List.cons_append, pieces, if_neg (Ne.symm hc), ih hbody]
    rfl

/-- A text without a newline is one piece, unless it is empty. -/
theorem pieces_of_notMem (hbody : '\n' ∉ body) (hsome : body ≠ []) : pieces body = [body] := by
  induction body with
  | nil => exact absurd rfl hsome
  | cons c body ih =>
    obtain ⟨hc, hbody⟩ := List.ne_and_not_mem_of_not_mem_cons hbody
    rw [pieces, if_neg (Ne.symm hc)]
    cases body with
    | nil => rfl
    | cons d body => rw [ih hbody (List.cons_ne_nil _ _)]

/-- Up to its first newline a text is one line. -/
theorem lines_append (hbody : '\n' ∉ body) (rest : List Char) :
    lines (body ++ '\n' :: rest) = (body ++ ['\n']) :: lines rest := by
  have hlast : (body ++ '\n' :: rest).getLast?.all (· == '\n') =
      rest.getLast?.all (· == '\n') := by
    rw [List.getLast?_append, List.getLast?_cons]
    cases rest.getLast? <;> rfl
  unfold lines
  rw [hlast, pieces_append hbody]
  split <;> rfl

/-- A text without a newline is one line, also if it is empty. -/
theorem lines_of_notMem (hbody : '\n' ∉ body) : lines body = [body] := by
  cases body with
  | nil => rfl
  | cons c rest =>
    have hlast : (c :: rest).getLast?.all (· == '\n') = false := by
      rw [List.getLast?_eq_some_getLast (List.cons_ne_nil c rest), Option.all_some,
        beq_eq_false_iff_ne]
      intro heq
      exact hbody (heq ▸ List.getLast_mem _)
    unfold lines
    rw [hlast, if_neg Bool.false_ne_true, pieces_of_notMem hbody (List.cons_ne_nil c rest)]

end Emend.Lines
