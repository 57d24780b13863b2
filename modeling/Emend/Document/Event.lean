/-!
# Edit events

Who listens to a document hears of every edit as a deletion, an insertion, or a deletion followed by
an insertion. An event is written as one line: who edits and how, the range, flags, and the inserted
text with its length. Long texts are left out of the line.
-/

namespace Emend

/-- Who makes an edit. -/
inductive EditOrigin where
  /-- Someone who types. -/
  | keyboard
  /-- Someone who points. -/
  | mouse
  /-- An operation on files. -/
  | files
  /-- A program. -/
  | program
  deriving DecidableEq, Repr

/-- The letter of an origin. -/
def EditOrigin.letter : EditOrigin → Char
  | .keyboard => 'K'
  | .mouse => 'M'
  | .files => 'F'
  | .program => 'E'

/-- What an event tells of. -/
inductive EventKind where
  /-- The range is removed. -/
  | delete
  /-- The text is put before the start of the range. -/
  | insert
  deriving DecidableEq, Repr

/-- A deletion or an insertion. -/
structure EditEvent where
  /-- Who makes it. -/
  origin : EditOrigin
  /-- Whether it happens in a line of titles and not in a body of text. -/
  inTag : Bool
  /-- Which of the two it is. -/
  kind : EventKind
  /-- Where its range begins. -/
  start : Nat
  /-- Where its range ends. -/
  stop : Nat
  /-- Flags for the listener. -/
  flags : Nat
  /-- The inserted text. -/
  text : List Char
  deriving DecidableEq, Repr

namespace EditEvent

/-- A text of this length or more is left out of the line. -/
def textLimit : Nat := 256

/-- The letter of the kind, small in a line of titles. -/
def kindLetter (event : EditEvent) : Char :=
  match event.kind, event.inTag with
  | .delete, false => 'D'
  | .delete, true => 'd'
  | .insert, false => 'I'
  | .insert, true => 'i'

/-- The event as one line. -/
def line (event : EditEvent) : String :=
  let shown := if event.text.length < textLimit then event.text else []
  let head := event.origin.letter.toString ++ event.kindLetter.toString
  head ++ s!"{event.start} {event.stop} {event.flags} {shown.length} " ++ String.ofList shown

end EditEvent

end Emend
