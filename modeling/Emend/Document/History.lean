import Emend.Text.Quoted

/-!
# The history of a document

Every replacement is kept as the text that it removed and the text that it put there. The history
is a line of such entries with a cursor in it: the entries before the cursor are applied, and those
after it have been undone and can be redone. A new entry drops what could have been redone.

Characters that are typed one after the other, each soon after the one before, are kept as one
entry, so that undoing takes back a stretch of typing and not a single character.
-/

namespace Emend

/-- A text with the range of the document that holds it. -/
structure Passage where
  /-- Where the text begins. -/
  start : Nat
  /-- Where it ends. -/
  stop : Nat
  /-- The text. -/
  text : List Char
  deriving DecidableEq, Repr

/-- The passage that begins at a position and holds a text. -/
def Passage.at (start : Nat) (text : List Char) : Passage :=
  ⟨start, start + text.length, text⟩

/-- Two passages that follow each other as one. -/
def Passage.append (first second : Passage) : Passage :=
  ⟨first.start, second.stop, first.text ++ second.text⟩

/-- One replacement. -/
structure HistoryEntry where
  /-- The revision of the document that was edited. -/
  revision : Nat
  /-- What was removed. -/
  before : Passage
  /-- What was put there. -/
  after : Passage
  /-- When the edit was made, or last added to, in milliseconds. -/
  time : Nat
  /-- Whether the document was last read or written just after this edit. -/
  saved : Bool
  /-- Whether the edit begins a step of its own. -/
  solid : Bool
  /-- Whether the edit was typed. -/
  typed : Bool
  deriving DecidableEq, Repr

/-- Whether an entry inserts one character other than a space, so that it can go on with typing. -/
def HistoryEntry.isTyping (entry : HistoryEntry) : Bool :=
  entry.before.text.isEmpty && entry.after.text.length == 1 && entry.after.text != [' ']

/-- A line of edits with a cursor in it. -/
structure History where
  /-- The applied entries, the newest first. -/
  applied : List HistoryEntry
  /-- The undone entries, the next to redo first. -/
  undone : List HistoryEntry
  /-- Whether the document was last read or written with no entry applied. -/
  blankIsSaved : Bool
  /-- How long a pause in typing may be, in milliseconds. -/
  typingInterval : Nat
  deriving DecidableEq, Repr

namespace History

/-- A history without entries. -/
def empty (typingInterval : Nat) : History :=
  ⟨[], [], true, typingInterval⟩

/-- How many entries are applied. -/
def position (history : History) : Nat :=
  history.applied.length

/-- All entries, the oldest first. -/
def entries (history : History) : List HistoryEntry :=
  history.applied.reverse ++ history.undone

/-- Whether an entry made now goes on with the typing of the one before it. -/
def continues (history : History) (previous entry : HistoryEntry) (now : Nat) : Bool :=
  (entry.typed || !entry.solid) && previous.before.text.isEmpty && entry.isTyping &&
    previous.after.stop == entry.after.start && now - previous.time < history.typingInterval

/-- Records an edit made at the time `now`. -/
def add (history : History) (entry : HistoryEntry) (now : Nat) : History :=
  let alone :=
    { history with applied := { entry with time := now } :: history.applied, undone := [] }
  match history.applied with
  | [] => alone
  | previous :: older =>
    if history.continues previous entry now then
      -- The pause is measured from the character before, so the time moves on with the typing.
      let longer := { previous with after := previous.after.append entry.after, time := now }
      { history with applied := longer :: older, undone := [] }
    else alone

/-- Takes back the newest applied entry. -/
def undo (history : History) : Option (HistoryEntry × History) :=
  match history.applied with
  | [] => none
  | entry :: older =>
    some (entry, { history with applied := older, undone := entry :: history.undone })

/-- Applies the next entry to redo. -/
def redo (history : History) : Option (HistoryEntry × History) :=
  match history.undone with
  | [] => none
  | entry :: later =>
    some (entry, { history with applied := entry :: history.applied, undone := later })

/-- Whether an entry can be taken back. -/
def canUndo (history : History) : Bool :=
  !history.applied.isEmpty

/-- Whether an entry can be applied again. -/
def canRedo (history : History) : Bool :=
  !history.undone.isEmpty

/-- An entry without the mark of a saved document. -/
def unmark (entry : HistoryEntry) : HistoryEntry :=
  { entry with saved := false }

/-- Marks the present state as the one that was last read or written. -/
def markSaved (history : History) : History :=
  let undone := history.undone.map unmark
  match history.applied.map unmark with
  | [] => { history with applied := [], undone, blankIsSaved := true }
  | newest :: older =>
    { history with
      applied := { newest with saved := true } :: older, undone, blankIsSaved := false }

/-- Marks the state with no entry applied as one that was never read or written. -/
def markBlankUnsaved (history : History) : History :=
  { history with blankIsSaved := false }

/-- Whether the present state is the one that was last read or written. -/
def isSaved (history : History) : Bool :=
  match history.applied with
  | [] => history.blankIsSaved
  | newest :: _ => newest.saved

/-- Forgets all entries. -/
def clear (history : History) : History :=
  { history with applied := [], undone := [] }

/-- When the newest applied edit was made. -/
def lastEdit (history : History) : Option Nat :=
  history.applied.head?.map (·.time)

end History

/-- What an entry replaced, in words. -/
def HistoryEntry.describeEdit (entry : HistoryEntry) : String :=
  let removed := quoted (String.ofList entry.before.text)
  let inserted := quoted (String.ofList entry.after.text)
  let start := toString entry.before.start
  let range := start ++ "-" ++ toString entry.before.stop
  if entry.before.start = entry.before.stop then "ins(" ++ start ++ ") " ++ inserted
  else if entry.after.start = entry.after.stop then "del(" ++ range ++ ") " ++ removed
  else "replace(" ++ range ++ ") " ++ removed ++ " -> " ++ inserted

/-- An entry in words. -/
def HistoryEntry.describe (entry : HistoryEntry) : String :=
  s!"rev:{entry.revision} " ++ (if entry.saved then "saved " else "") ++
    (if entry.solid then "solid " else "") ++ entry.describeEdit

/-- The history in words, one entry a line; a star stands before the next entry to redo. -/
def History.describe (history : History) : String :=
  let position := history.position
  let line (entry : HistoryEntry) (index : Nat) : String :=
    (if index = position then "* " else "  ") ++ toString index ++ " " ++
      entry.describe ++ "\n"
  (if history.blankIsSaved then "nil is saved\n" else "") ++ s!"cur {position}\n" ++
    String.join (history.entries.zipIdx.map fun (entry, index) => line entry index)

end Emend
