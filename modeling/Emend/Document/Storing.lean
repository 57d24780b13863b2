import Emend.Document.Editing
import Emend.Storage.Loading

/-!
# Documents and their files

A document is opened from a file, read again from it, and written to it. Reading is an edit that can
be undone; reading and writing both mark the state of the document as the one that its file has.
-/

namespace Emend

namespace Document

/-- Reads the document from its file or directory again. A missing file leaves the text as it is if
`create` is set. -/
def reload (doc : Document) (files : FileSystem) (create : Bool) : Except StorageError Document :=
  match files.load doc.path doc.maxFileSize with
  | .error error => .error error
  | .ok (.text text) =>
    let doc := doc.replaceAll text
    -- The state counts as that of the file even if the edit was refused.
    let doc := { doc with modified := false, history := doc.history.markSaved }
    .ok (if doc.size < doc.wordsLimit then doc.updateWords else doc)
  | .ok (.listing text) =>
    let name := if doc.name.endsWith "/" then doc.name else doc.name ++ "/"
    .ok { ({ doc with name }.replaceAll text) with modified := false }
  | .ok .missing =>
    if create then .ok { doc with modified := true, history := doc.history.markBlankUnsaved }
    else .error (.notFound doc.path)

/-- Opens a name in a directory. A document without a file is blank. -/
def openIn (files : FileSystem) (directory name : String) (create : Bool) (settings : Settings) :
    Except StorageError Document := do
  files.checkDirectory directory
  let highlighter :=
    match Highlighter.forName settings.languages name with
    | .ok highlighter => highlighter
    | .error _ => .plain
  let doc := { blank directory name settings with highlighter }
  if doc.isScratch then return doc else doc.reload files create

/-- Writes the document to its file. -/
def save (doc : Document) (files : FileSystem) : Except StorageError (Document × FileSystem) :=
  match files.writeText doc.path doc.content with
  | .error error => .error (.file error)
  | .ok files =>
    let doc := doc.updateWords
    .ok ({ doc with modified := false, history := doc.history.markSaved }, files)

end Document

/-- What is remembered of a document to tell later what has changed. -/
structure Snapshot where
  /-- The revision. -/
  revision : Nat
  /-- How many characters the text had. -/
  size : Nat
  /-- The registered selections. -/
  selections : List (SelectionHandle × Selection)
  deriving DecidableEq, Repr

namespace Snapshot

/-- The present state of a document. -/
def ofDocument (doc : Document) : Snapshot :=
  ⟨doc.revision, doc.size, doc.selections.toList⟩

/-- How a selection of the first state differs in the second, in words. -/
def describeSelection (after : Snapshot) (handle : SelectionHandle) (sel : Selection) :
    Option String :=
  match (after.selections.find? (·.1 == handle)).map (·.2) with
  | none => some (handle.render ++ ": removed")
  | some now =>
    if now = sel then none
    else some (handle.render ++ ": " ++ sel.render ++ " -> " ++ now.render)

/-- What has changed between two states, in words; nothing if nothing has. -/
def describe? (before after : Snapshot) : Option String :=
  let revision :=
    if before.revision = after.revision then []
    else
      [s!"revision {before.revision} -> {after.revision}, " ++
        s!"length {before.size} -> {after.size}"]
  let count :=
    if before.selections.length = after.selections.length then []
    else [s!"selection count: {before.selections.length} -> {after.selections.length}"]
  let moved := before.selections.filterMap fun (handle, sel) =>
    describeSelection after handle sel
  match revision ++ count ++ moved with
  | [] => none
  | changes => some ("; ".intercalate changes)

end Snapshot

end Emend
