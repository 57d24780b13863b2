import Emend.Command.Written
import Mathlib

/-!
# Written texts are read back

A backslash before each backslash and each delimiter is all that a text needs to be the argument of
a command: the reader of delimited texts takes exactly these backslashes away, and no character of
the text becomes an escape on the way (`splitDelimited_writeText`). So the program that
`writePlacement` writes is read as the command with that text, whatever the text is.
-/

namespace Emend

namespace Command

variable {delimiter : Char}

/-- An escaped character is read as itself, if it is one that has to be escaped. -/
theorem escaped_of_needs {c : Char} (hneeds : c = '\\' ∨ c = delimiter) :
    escaped delimiter true c = [c] := by
  unfold escaped
  split
  · next heq => rw [heq]
  · next hne =>
    obtain rfl := hneeds.resolve_right hne
    rfl

/-- **What is written between delimiters is read as it was**, up to the second delimiter. -/
theorem splitDelimited_writeText (hbackslash : delimiter ≠ '\\') (text rest : List Char) :
    splitDelimited delimiter true (writeText delimiter text ++ delimiter :: rest) =
      some (text, rest) := by
  induction text with
  | nil =>
    rw [writeText, List.nil_append, splitDelimited.eq_def]
    exact if_pos rfl
  | cons c text ih =>
    rw [writeText]
    split
    · next hneeds =>
      -- The backslash is not the delimiter, so it escapes the character.
      rw [List.cons_append, List.cons_append, splitDelimited.eq_def]
      dsimp only
      rw [if_neg hbackslash.symm, if_pos rfl, ih, escaped_of_needs hneeds]
      rfl
    · next hplain =>
      rw [not_or] at hplain
      rw [List.cons_append, splitDelimited.eq_def]
      dsimp only
      rw [if_neg hplain.2, if_neg hplain.1, ih]
      rfl

/-- Blanks are white space. -/
theorem isBlank_eq_false {c : Char} (h : isWhiteSpace c = false) : isBlank c = false := by
  cases hblank : isBlank c with
  | false => rfl
  | true =>
    have hspace : isWhiteSpace c = true := by
      simp only [isBlank, Bool.or_eq_true, beq_iff_eq] at hblank
      obtain (rfl | rfl) | rfl := hblank
      · decide
      · decide
      · decide
    rw [hspace] at h
    cases h

/-- A placement is read from its delimiter on. -/
theorem readPlacement_writeText (placement : Placement) (range : Address)
    (hdelimiter : canDelimit delimiter = true) (hbackslash : delimiter ≠ '\\')
    (text : List Char) :
    readPlacement placement range (delimiter :: (writeText delimiter text ++ [delimiter])) =
      .ok (.whole (.place placement range delimiter (String.ofList text)), []) := by
  have hblank : isBlank delimiter = false := by
    unfold canDelimit at hdelimiter
    simp only [Bool.and_eq_true, Bool.not_eq_true'] at hdelimiter
    exact isBlank_eq_false hdelimiter.1.2
  unfold readPlacement readDelimiter readDelimited
  rw [List.dropWhile_cons, hblank, if_neg Bool.false_ne_true]
  dsimp only
  rw [if_pos hdelimiter]
  show Except.bind _ _ = _
  simp only [Except.bind, splitDelimited_writeText hbackslash text []]
  rfl

/-- A program that begins with the letter of a placement has no address. -/
theorem readHead_placement (placement : Placement) (chars : List Char) :
    readHead (placement.letter :: chars) = readPlacement placement .dot chars := by
  have hread : AddressToken.readAll isBlank (placement.letter :: chars) =
      .ok ([], placement.letter :: chars) := by
    rw [AddressToken.readAll]
    cases placement <;> rfl
  have hbrace : placement.letter ≠ '\x7d' := by cases placement <;> decide
  have hletter : isLetter placement.letter = true := by cases placement <;> cbv
  unfold readHead
  rw [hread]
  simp only [reading, Except.mapError, bind, Except.bind, if_neg hbrace, if_pos hletter]
  cases placement <;> rfl

/-- **Every text can be written as the argument of a command.** Between delimiters that are no
letters, numbers, white space, opening braces or backslashes, and with a backslash before each
backslash and each delimiter, it is read as it was, by the command that puts it at dot. -/
theorem parse_writePlacement (placement : Placement)
    (halphanumeric : isAlphanumeric delimiter = false)
    (hspace : isWhiteSpace delimiter = false) (hbrace : delimiter ≠ '\x7b')
    (hbackslash : delimiter ≠ '\\') (text : String) :
    parse (writePlacement placement delimiter text.toList) =
      .ok (.place placement .dot delimiter text) := by
  have hdelimiter : canDelimit delimiter = true := by
    rw [canDelimit, halphanumeric, hspace]
    simpa using hbrace
  unfold parse writePlacement
  rw [String.toList_ofList]
  dsimp only
  rw [readCommand, readHead_placement, readPlacement_writeText placement .dot hdelimiter hbackslash,
    String.ofList_toList]
  rfl

/-- The text holds a backslash before the delimiter, and a letter that an escape could take. -/
theorem parse_writePlacement_slash :
    writePlacement .instead '/' "\\/n".toList = "c/\\\\\\/n/" ∧
      parse "c/\\\\\\/n/" = .ok (.place .instead .dot '/' "\\/n") :=
  ⟨by decide, parse_writePlacement .instead (by decide) (by decide) (by decide) (by decide) "\\/n"⟩

end Command

end Emend
