import Emend.Buffer.Gap
import Emend.Document.Event
import Emend.Document.History
import Emend.Document.Selections
import Emend.Highlight.Highlighter
import Emend.Settings
import Emend.Storage.Path
import Emend.Text.Scan

/-!
# Documents

A document is a text with everything that has to change along with it: the registered selections,
the history, the tags, the words, and those who listen for edits. This module holds what a document
consists of and how it is read; editing and storing come in modules of their own.
-/

namespace Emend

/-- A text that is edited. -/
structure Document where
  /-- The directory of its file. -/
  directory : String
  /-- The name of its file. -/
  name : String
  /-- Whether it can be edited; if not, edits are ignored. -/
  editable : Bool
  /-- How many characters at the beginning are protected from edits. -/
  protected? : Option Nat
  /-- Whether it has been edited since it was read or written. -/
  modified : Bool
  /-- The text. -/
  buffer : GapBuffer
  /-- The registered selections. -/
  selections : Selections
  /-- The edits made so far. -/
  history : History
  /-- What gives tags to the characters. -/
  highlighter : Highlighter
  /-- How many times the text was changed. -/
  revision : Nat
  /-- The words of the text when they were last collected. -/
  words : List String
  /-- When the words were last collected, if ever. -/
  wordsTime : Option Nat
  /-- How many characters file operations have put in since the words were collected by one. -/
  filesAdded : Nat
  /-- The events that a listener has not yet collected; none if there is no listener. -/
  events : Option (List EditEvent)
  /-- A file with more bytes than this is not loaded. -/
  maxFileSize : Nat
  /-- The words are collected on loading if the text has fewer characters than this. -/
  wordsLimit : Nat
  /-- The present time, in milliseconds, as of the operation that is under way. -/
  clock : Nat

namespace Document

/-- A document without text. -/
def blank (directory name : String) (settings : Settings) : Document where
  directory
  name
  editable := true
  protected? := none
  modified := false
  buffer := .empty
  selections := .empty
  history := .empty settings.typingInterval
  highlighter := .plain
  revision := 0
  words := []
  wordsTime := none
  filesAdded := 0
  events := none
  maxFileSize := settings.maxFileSize
  wordsLimit := settings.wordsLimit
  clock := 0

/-- Whether a name is that of a document without a file. -/
def isScratchName (name : String) : Bool :=
  name.startsWith "+"

/-- A document without a file. -/
def scratch (name : String) : Document :=
  blank "." (if isScratchName name then name else "+" ++ name) {}

/-- Whether the document has no file. -/
def isScratch (doc : Document) : Bool :=
  isScratchName doc.name

/-- Whether the document holds the listing of a directory. -/
def isDirectory (doc : Document) : Bool :=
  doc.name.endsWith "/"

/-- The path of the file. -/
def path (doc : Document) : String :=
  Path.join doc.directory doc.name

/-- How many characters the text has. -/
def size (doc : Document) : Nat :=
  doc.buffer.size

/-- The text as patterns and scans read it. -/
def source (doc : Document) : Source :=
  doc.buffer.source

/-- The characters of a range. -/
def text (doc : Document) (sel : Selection) : List Char :=
  doc.buffer.chars sel.start sel.stop

/-- The whole text. -/
def content (doc : Document) : List Char :=
  doc.buffer.chars 0 doc.size

/-- Registers a selection. -/
def addSelection (doc : Document) (sel : Selection) : SelectionHandle × Document :=
  let (handle, selections) := doc.selections.add (sel.clamp doc.size)
  (handle, { doc with selections })

/-- Forgets a registered selection. -/
def eraseSelection (doc : Document) (handle : SelectionHandle) : Document :=
  { doc with selections := doc.selections.erase handle }

/-- Replaces a registered selection. -/
def setSelection (doc : Document) (handle : SelectionHandle) (sel : Selection) : Document :=
  { doc with selections := doc.selections.set handle (sel.clamp doc.size) }

/-- The words of a text: its longest runs of word characters, in order and each once. -/
def wordsOf (text : List Char) : List String :=
  let runs := (text.splitOnP (!isWordChar ·)).filter (!·.isEmpty)
  -- Sorting brings equal words together, so that each is kept once.
  ((runs.map String.ofList).mergeSort fun a b => decide (a ≤ b)).eraseReps

/-- The document with its words collected again. -/
def updateWords (doc : Document) : Document :=
  { doc with words := wordsOf doc.content, wordsTime := some doc.clock }

/-- The tags of a range, which the characters now carry. -/
def highlight (doc : Document) (start stop : Nat) : Document × List Nat :=
  let stop := min stop doc.size
  let start := min start stop
  let (highlighter, tags) := doc.highlighter.highlight doc.source start stop
  ({ doc with highlighter, buffer := doc.buffer.setTags start tags }, tags)

/-- The last position of the region that begins at a position, if one begins there. -/
def regionEnd? (doc : Document) (position : Nat) : Option Nat :=
  doc.highlighter.regionEnd? doc.source position

/-- Begins to listen for edits. -/
def listen (doc : Document) : Document :=
  { doc with events := some [] }

/-- Stops listening. -/
def stopListening (doc : Document) : Document :=
  { doc with events := none }

/-- The events that were not yet collected. -/
def collectEvents (doc : Document) : List EditEvent × Document :=
  (doc.events.getD [], { doc with events := doc.events.map fun _ => [] })

end Document

end Emend
