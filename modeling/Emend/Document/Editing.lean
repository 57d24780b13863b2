import Emend.Document.Basic

/-!
# Editing documents

Every change of a text is a replacement of a range. A replacement is recorded in the history, moves
the registered selections, lets the highlighter forget what it knew, and is told to the listener.
Undoing and redoing replay entries of the history as replacements that are not recorded. Edits of a
document that is not editable are ignored, and so are those that begin in its protected part.
-/

namespace Emend

namespace Document

/-- The words are collected again once file operations have put in more characters than this. -/
def wordsRefresh : Nat := 2 * 1024

/-- The range that a replacement of `target` would replace. A refused replacement replaces none, but
may say where the caller's selection goes instead. -/
def accept (doc : Document) (target : Selection) : Except Selection Selection :=
  if !doc.editable then .error target
  else
    let range := target.clamp doc.size
    match doc.protected? with
    | some count => if range.start < count then .error (.point count) else .ok range
    | none => .ok range

/-- Puts a text in place of a range of the buffer. -/
def substitute (doc : Document) (text : List Char) (range : Selection) : Document :=
  if range.isEmpty then { doc with buffer := doc.buffer.insert range.start text }
  else
    { doc with buffer := (doc.buffer.delete range.start range.stop).insert range.start text }

/-- Changes the text and all that moves with it, without recording the change. The selection with
the handle `skip` does not move. -/
def apply (doc : Document) (text : List Char) (range : Selection) (skip : Option SelectionHandle) :
    Document :=
  let doc := doc.substitute text range
  { doc with
    selections := doc.selections.shift ⟨range.start, range.length, text.length⟩ skip doc.size
    highlighter := doc.highlighter.alter (range.start - 1)
    revision := doc.revision + 1 }

/-- Records a replacement in the history. -/
def record (doc : Document) (text : List Char) (range : Selection) (solid : Bool)
    (origin : EditOrigin) : Document :=
  let entry : HistoryEntry :=
    { revision := doc.revision
      before := ⟨range.start, range.stop, doc.text range⟩
      after := .at range.start text
      time := doc.clock
      saved := false
      solid
      typed := origin = .keyboard }
  { doc with history := doc.history.add entry doc.clock }

/-- The events of a replacement: a deletion unless nothing is removed, and an insertion unless
something is removed and nothing inserted. -/
def eventsOf (doc : Document) (text : List Char) (range : Selection) (origin : EditOrigin) :
    List EditEvent :=
  let inTag := doc.name == "+Tag"
  let deletion : EditEvent :=
    ⟨origin, inTag, .delete, range.start, range.stop, 0, []⟩
  let insertion : EditEvent :=
    ⟨origin, inTag, .insert, range.start, range.start, 0, text⟩
  (if range.isEmpty then [] else [deletion]) ++
    (if range.isEmpty || !text.isEmpty then [insertion] else [])

/-- Tells the listener of a replacement. -/
def announce (doc : Document) (text : List Char) (range : Selection) (origin : EditOrigin) :
    Document :=
  { doc with events := doc.events.map (· ++ doc.eventsOf text range origin) }

/-- Counts the characters that file operations put in, and collects the words now and then. -/
def countFilesAdded (doc : Document) (count : Nat) (origin : EditOrigin) : Document :=
  if origin = .files then
    let total := doc.filesAdded + count
    if wordsRefresh < total then updateWords { doc with filesAdded := 0 }
    else { doc with filesAdded := total }
  else doc

/-- Replaces an accepted range. -/
def replaceAccepted (doc : Document) (text : List Char) (range : Selection)
    (skip : Option SelectionHandle) (solid : Bool) (origin : EditOrigin) : Document :=
  -- The history takes the removed text from the document as it still is.
  let recorded := { doc with modified := true }.record text range solid origin
  let announced := (recorded.apply text range skip).announce text range origin
  announced.countFilesAdded text.length origin

/-- Replaces a range, and tells where the caller's selection goes: to the end of the new text. -/
def replaceSkipping (doc : Document) (text : List Char) (target : Selection)
    (skip : Option SelectionHandle) (solid : Bool) (origin : EditOrigin) : Document × Selection :=
  match doc.accept target with
  | .error sel => (doc, sel)
  | .ok range =>
    (doc.replaceAccepted text range skip solid origin, .point (range.start + text.length))

/-- Replaces a range that is not registered. -/
def replace (doc : Document) (text : List Char) (target : Selection) (solid : Bool)
    (origin : EditOrigin) : Document × Selection :=
  doc.replaceSkipping text target none solid origin

/-- Replaces the range of a registered selection, which goes to the end of the new text. -/
def replaceAt (doc : Document) (text : List Char) (handle : SelectionHandle) (solid : Bool)
    (origin : EditOrigin) : Document :=
  match doc.selections.get? handle with
  | none => doc
  | some sel =>
    let (doc, after) := doc.replaceSkipping text sel (some handle) solid origin
    { doc with selections := doc.selections.set handle after }

/-- Replaces the whole text. The registered selections stay where they are, as far as the new text
reaches. -/
def replaceAll (doc : Document) (text : List Char) : Document :=
  let kept := doc.selections.toList
  let (doc, _) := doc.replace text ⟨0, doc.size⟩ true .program
  let selections := kept.foldl (fun selections (handle, sel) =>
    selections.set handle (sel.clamp doc.size)) doc.selections
  { doc with selections }

/-- Replays one side of an entry: puts `text` in place of the range of `passage`. Gives the range of
the text that was put back. -/
def replay (doc : Document) (passage : Passage) (text : List Char)
    (skip : Option SelectionHandle) : Document × Selection :=
  let range := Selection.clamp ⟨passage.start, passage.stop⟩ doc.size
  let doc := doc.apply text range skip
  ({ doc with modified := !doc.history.isSaved }, ⟨range.start, range.start + text.length⟩)

/-- Takes back applied entries up to and including the first solid one. `last` is the range that the
entry before put back. -/
def undoEntries (doc : Document) (skip : Option SelectionHandle) (last : Option Selection) :
    List HistoryEntry → Document × Option Selection
  | [] => (doc, last)
  | entry :: older =>
    let history :=
      { doc.history with applied := older, undone := entry :: doc.history.undone }
    let (doc, range) := { doc with history }.replay entry.after entry.before.text skip
    -- A solid entry begins its step, so undoing ends with it.
    if entry.solid then (doc, some range) else undoEntries doc skip (some range) older

/-- Applies undone entries again, up to and without the first solid one after the first of all.
`last` is the range that the entry before put back. -/
def redoEntries (doc : Document) (skip : Option SelectionHandle) (last : Option Selection) :
    List HistoryEntry → Document × Option Selection
  | [] => (doc, last)
  | entry :: later =>
    -- A solid entry after the first begins the next step.
    if last.isSome && entry.solid then (doc, last)
    else
      let history :=
        { doc.history with applied := entry :: doc.history.applied, undone := later }
      let (doc, range) := { doc with history }.replay entry.before entry.after.text skip
      redoEntries doc skip (some range) later

/-- Undoes or redoes one step, and gives the range of the text that was put back last. -/
def travel (doc : Document) (redo : Bool) (skip : Option SelectionHandle) :
    Document × Option Selection :=
  if !doc.editable then (doc, none)
  else if redo then doc.redoEntries skip none doc.history.undone
  else doc.undoEntries skip none doc.history.applied

/-- Undoes or redoes one step. The caller's selection goes to the text that was put back. -/
def undo (doc : Document) (sel : Selection) (redo : Bool) : Document × Selection :=
  let (doc, last) := doc.travel redo none
  (doc, last.getD sel)

/-- Undoes or redoes one step. A registered selection goes to the text that was put back. -/
def undoAt (doc : Document) (handle : SelectionHandle) (redo : Bool) : Document :=
  match doc.travel redo (some handle) with
  | (doc, some last) => { doc with selections := doc.selections.set handle last }
  | (doc, none) => doc

/-- Forgets the history. -/
def flushHistory (doc : Document) : Document :=
  { doc with history := doc.history.clear }

end Document

end Emend
