import Emend.Document.History

/-!
# Stretches of typing

A text that is typed is cut into stretches: before each space, and before each character that comes
a long pause after the one before it. The first character begins a stretch in any case. A stretch is
meant to be one entry of the history.
-/

namespace Emend.Typing

/-- A character that is typed, with what its edit is recorded with. -/
structure Keystroke where
  /-- The character. -/
  char : Char
  /-- When it is typed, in milliseconds. -/
  time : Nat
  /-- The revision of the document that is edited. -/
  revision : Nat
  /-- Whether the edit carries the mark of a saved document. -/
  saved : Bool
  /-- Whether the edit begins a step of its own. -/
  solid : Bool
  /-- Whether the edit comes from the keyboard. -/
  typed : Bool
  deriving DecidableEq, Repr

/-- Whether an edit may go on with typing: one that begins a step may not, unless it comes from the
keyboard. -/
def Keystroke.Joins (key : Keystroke) : Prop :=
  key.typed = true ∨ key.solid = false

/-- The entry for a keystroke at a position. -/
def Keystroke.entry (key : Keystroke) (position : Nat) : HistoryEntry where
  revision := key.revision
  before := .at position []
  after := .at position [key.char]
  time := key.time
  saved := key.saved
  solid := key.solid
  typed := key.typed

/-- Whether a keystroke begins a stretch, after one at the time `before`. -/
def begins (interval before : Nat) (key : Keystroke) : Bool :=
  key.char == ' ' || interval ≤ key.time - before

/-- Keystrokes cut into stretches: before each, other than the first, that begins one. -/
def stretches (interval : Nat) (keys : List Keystroke) : List (List Keystroke) :=
  keys.splitBy fun before key => !begins interval before.time key

/-- The entry for a stretch at a position: that of its first keystroke, with the text of all, and
with the time of the last. -/
def stretchEntry (position : Nat) (first : Keystroke) (rest : List Keystroke) : HistoryEntry :=
  { first.entry position with
    after := .at position ((first :: rest).map (·.char))
    time := (rest.getLastD first).time }

/-- The entries for stretches that follow each other from a position on, the oldest first. -/
def entries (position : Nat) : List (List Keystroke) → List HistoryEntry
  | [] => []
  | [] :: others => entries position others
  | (first :: rest) :: others =>
    stretchEntry position first rest :: entries (position + (rest.length + 1)) others

/-- The history after keystrokes that follow each other from a position on, each recorded when it is
typed. -/
def record (history : History) (position : Nat) : List Keystroke → History
  | [] => history
  | key :: rest => record (history.add (key.entry position) key.time) (position + 1) rest

end Emend.Typing
