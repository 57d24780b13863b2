import Emend.Command.Execute

/-!
# Operations on a session

What can happen to a document between its creation and now, as a type: edits by a caller and by
programs, undo and redo, changes of what edits are let through, registered selections,
highlighting, reading and writing, and what happens around it, the passing of time and the doings
of others among the files. A run is a list of operations, performed one after the other.

Every operation is total. One that fails, because its file cannot be read or written, leaves the
session as it was; a program that fails leaves what it had done until then.

Time passes between operations only (`wait`), so all edits of one program are recorded at one
reading of the clock. Nothing that is proved of runs depends on it. What recording one edit does to
the history is proved for any reading (`History.add_cases`, `Timeline.add`), and a reading decides
one thing only, whether a character goes on with the entry before it. The first edit of a program
never does; whether a later one does changes neither the texts that the entries lead to nor where
the steps begin.
-/

namespace Emend

variable {σ : Type}

/-- One thing that can happen to a session. -/
inductive Operation (σ : Type) where
  /-- Replaces a range. -/
  | replace (text : List Char) (target : Selection) (solid : Bool) (origin : EditOrigin)
  /-- Replaces the range of a registered selection. -/
  | replaceAt (text : List Char) (handle : SelectionHandle) (solid : Bool) (origin : EditOrigin)
  /-- Replaces the whole text. -/
  | replaceAll (text : List Char)
  /-- Runs a program from a range on. -/
  | interpret (env : Environment σ) (program : String) (dot : Selection)
  /-- Undoes or redoes a step. -/
  | undo (sel : Selection) (redo : Bool)
  /-- Undoes or redoes a step for a registered selection. -/
  | undoAt (handle : SelectionHandle) (redo : Bool)
  /-- Forgets the history. -/
  | flushHistory
  /-- Lets edits through or not. -/
  | setEditable (editable : Bool)
  /-- Protects the beginning of the text. -/
  | protect (count : Option Nat)
  /-- Registers a selection. -/
  | addSelection (sel : Selection)
  /-- Replaces a registered selection. -/
  | setSelection (handle : SelectionHandle) (sel : Selection)
  /-- Forgets a registered selection. -/
  | eraseSelection (handle : SelectionHandle)
  /-- Works out the tags of a range. -/
  | highlight (start stop : Nat)
  /-- Begins to listen for edits, or stops. -/
  | listen (listening : Bool)
  /-- Writes the document to its file. -/
  | save
  /-- Reads the document from its file again. -/
  | reload (create : Bool)
  /-- Time passes. -/
  | wait (clock : Nat)
  /-- Others change the files. -/
  | changeFiles (files : FileSystem)

namespace Operation

/-- The session after an operation. -/
def perform : Operation σ → Session σ → Session σ
  | .replace text target solid origin, session =>
    { session with document := (session.document.replace text target solid origin).1 }
  | .replaceAt text handle solid origin, session =>
    { session with document := session.document.replaceAt text handle solid origin }
  | .replaceAll text, session => { session with document := session.document.replaceAll text }
  | .interpret env program dot, session =>
    (Session.interpret env program { session with dot }).2
  | .undo sel redo, session => { session with document := (session.document.undo sel redo).1 }
  | .undoAt handle redo, session =>
    { session with document := session.document.undoAt handle redo }
  | .flushHistory, session => { session with document := session.document.flushHistory }
  | .setEditable editable, session =>
    { session with document := { session.document with editable } }
  | .protect count, session =>
    { session with document := { session.document with protected? := count } }
  | .addSelection sel, session =>
    { session with document := (session.document.addSelection sel).2 }
  | .setSelection handle sel, session =>
    { session with document := session.document.setSelection handle sel }
  | .eraseSelection handle, session =>
    { session with document := session.document.eraseSelection handle }
  | .highlight start stop, session =>
    { session with document := (session.document.highlight start stop).1 }
  | .listen listening, session =>
    { session with document :=
        if listening then session.document.listen else session.document.stopListening }
  | .save, session =>
    match session.document.save session.files with
    | .ok (document, files) => { session with document, files }
    | .error _ => session
  | .reload create, session =>
    match session.document.reload session.files create with
    | .ok document => { session with document }
    | .error _ => session
  | .wait clock, session => { session with document := { session.document with clock } }
  | .changeFiles files, session => { session with files }

/-- The session after several operations. -/
def run (operations : List (Operation σ)) (session : Session σ) : Session σ :=
  operations.foldl (fun session operation => operation.perform session) session

/-- Without operations nothing happens. -/
@[simp]
theorem run_nil (session : Session σ) : run [] session = session :=
  rfl

/-- The first operation comes first. -/
@[simp]
theorem run_cons (operation : Operation σ) (rest : List (Operation σ)) (session : Session σ) :
    run (operation :: rest) session = run rest (operation.perform session) :=
  rfl

end Operation

/-- The documents that have just been made: blank ones, and those opened from a file or a
directory. What gives tags to the characters does not matter. -/
inductive Document.Created : Document → Prop where
  /-- A document without text. -/
  | blank (directory name : String) (settings : Settings) (highlighter : Highlighter) :
    Document.Created { Document.blank directory name settings with highlighter }
  /-- A document that was opened. -/
  | opened {files : FileSystem} {directory name : String} {create : Bool} {settings : Settings}
    {doc : Document} (h : Document.openIn files directory name create settings = .ok doc) :
    Document.Created doc

end Emend
