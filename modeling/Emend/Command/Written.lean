import Emend.Command.Parser

/-!
# Writing texts into programs

Every text can be written as the argument of a command: a backslash goes before each backslash and
before each character that is the delimiter.
-/

namespace Emend.Command

/-- A text as it is written between delimiters. -/
def writeText (delimiter : Char) : List Char → List Char
  | [] => []
  | c :: rest =>
    if c = '\\' ∨ c = delimiter then '\\' :: c :: writeText delimiter rest
    else c :: writeText delimiter rest

/-- The program that puts a text at dot. -/
def writePlacement (placement : Placement) (delimiter : Char) (text : List Char) : String :=
  String.ofList
    (placement.letter :: delimiter :: (writeText delimiter text ++ [delimiter]))

end Emend.Command
