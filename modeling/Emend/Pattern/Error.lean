/-!
# What can be wrong with a pattern

Each way in which a pattern can fail to be one, with the wording that reports it.
-/

namespace Emend

/-- A reason why a text is not a pattern. -/
inductive PatternError where
  /-- A repetition has nothing before it in its branch. -/
  | nothingToRepeat
  /-- The pattern ends in a backslash. -/
  | unfinishedEscape
  /-- A group is not closed. -/
  | unclosedGroup
  /-- A closing parenthesis at this position closes no group. -/
  | unopenedGroup (position : Nat)
  /-- A class in brackets is not closed. -/
  | unclosedClass
  /-- This is no name of a class of characters. -/
  | unknownClass (name : String)
  /-- The escape `\x` is not followed by six hexadecimal digits that name a character. -/
  | badHex
  deriving DecidableEq, Repr

/-- How the error is reported. -/
def PatternError.message : PatternError → String
  | .nothingToRepeat => "repeat character at beginning of a branch"
  | .unfinishedEscape => "unterminated escape sequence"
  | .unclosedGroup => "unmatched open parenthesis"
  | .unopenedGroup position => s!"unexpected character ) at {position}"
  | .unclosedClass => "unmatched [ parenthesis"
  | .unknownClass name => "invalid character class name: " ++ name
  | .badHex => "bad hexadecimal sequence"

end Emend
