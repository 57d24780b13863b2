import Emend.Address.Syntax
import Emend.Text.Selection

/-!
# What can go wrong with a program

A program fails before it runs, because its text or a pattern in it is malformed, or while it runs,
because an address names no range or a replacement names no group. Every cause is a constructor
here, with its wording beside it.
-/

namespace Emend

/-- A reason why a text is not an address or a program. -/
inductive ParseError where
  /-- The digits write a number that no position has. -/
  | numberTooLarge (digits : String)
  /-- The delimiter that ends a text is missing. -/
  | unterminated (delimiter : Char) (text : String)
  /-- This character begins no part of an address. -/
  | notAnAddress (c : Char)
  /-- This character begins no command. -/
  | unknownCommand (c : Char)
  /-- A block is not closed. -/
  | unclosedBlock
  /-- The program ends where the command needs an argument. -/
  | missingArgument (letter : Char)
  /-- The command needs an argument, which this character cannot begin. -/
  | badArgument (letter found : Char)
  /-- Text follows the command. -/
  | trailingText (rest program : String)
  deriving DecidableEq, Repr

/-- How a malformed program is reported. -/
def ParseError.message : ParseError → String
  | .numberTooLarge digits => "number out of range: " ++ digits
  | .unterminated delimiter text =>
    s!"could not find matching {delimiter} while parsing <{text}>"
  | .notAnAddress c => s!"unexpected character {c} while parsing address"
  | .unknownCommand c => s!"unknown command {c}"
  | .unclosedBlock => "unmatched \x7b"
  | .missingArgument letter => s!"expected argument to {letter}"
  | .badArgument letter found => s!"expected argument to {letter} but character {found} found"
  | .trailingText rest program => s!"spurious characters <{rest}> after <{program}>"

/-- A reason why an address names no range. -/
inductive AddressError where
  /-- A sign stands before the range itself. -/
  | signedDot
  /-- A sign stands before the end of the text. -/
  | signedLast
  /-- The end of a line is asked for in a form other than the one that exists. -/
  | badLineEnd
  /-- The right end lies before the left one. -/
  | outOfOrder (left : Selection) (separator : Separator) (right : Selection)
  /-- A range is to be moved to a place inside itself. -/
  | moveInside (range : Selection)
  deriving DecidableEq, Repr

/-- How an address that names no range is reported. -/
def AddressError.message : AddressError → String
  | .signedDot => "bad address syntax, non-absolute '.'"
  | .signedLast => "bad address syntax, non-absolute '$'"
  | .badLineEnd => "#? is only supported as -#?1"
  | .outOfOrder left separator right =>
    "addresses out of order: " ++ left.render ++ " " ++ separator.symbol ++ " " ++ right.render
  | .moveInside range => "can not move " ++ range.render ++ " inside itself"

/-- A reason why a program fails. -/
inductive EditError where
  /-- Its text is malformed. -/
  | parse (error : ParseError)
  /-- A pattern in it is malformed. -/
  | pattern (error : RegexError)
  /-- An address names no range. -/
  | address (error : AddressError)
  /-- A pattern occurs nowhere in the text. -/
  | noMatch (pattern : String)
  /-- A replacement names a group that its pattern lacks. -/
  | unknownGroup (number : Nat)
  deriving DecidableEq, Repr

/-- How a failed program is reported. -/
def EditError.message : EditError → String
  | .parse error => "parse error: " ++ error.message
  | .pattern error => error.message
  | .address error => "address error: " ++ error.message
  | .noMatch wanted => "no match found for: " ++ wanted
  | .unknownGroup number => s!"nonexistent backreference \\{number}"

end Emend
