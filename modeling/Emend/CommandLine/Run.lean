import Emend.Command.Registered
import Emend.CommandLine.Options
import Emend.CommandLine.Report
import Emend.Settings.Stored
import Emend.Shell.Run

/-!
# Doing what a command line asks for

A task opens a document, runs its programs on it one after the other, and puts the result where it
belongs. It stops at the first failure; what was printed until then stays printed. Jobs are shell
scripts, which run in the directory of the document.
-/

namespace Emend

/-- Text on its way to the two output channels, and what a report tells of it. -/
structure Console where
  /-- What is printed on the standard output. -/
  output : String := ""
  /-- What is printed on the standard error output. -/
  errors : String := ""
  /-- The warnings so far. -/
  warnings : List String := []
  /-- The printed text, if it is kept for a report. -/
  printed : String := ""
  deriving DecidableEq, Repr

/-- A text with a line end at its end. -/
def withLineEnd (text : String) : String :=
  if text.endsWith "\n" then text else text ++ "\n"

/-- The environment of programs that a command line runs. What they print, and their warnings, are
kept if a report is asked for. -/
def consoleEnvironment (keeping : Bool) : Environment Console where
  warn message console :=
    { console with
      errors := if keeping then console.errors else console.errors ++ message ++ "\n"
      warnings := console.warnings ++ [message] }
  print text console :=
    if keeping then { console with printed := console.printed ++ withLineEnd text }
    else { console with output := console.output ++ withLineEnd text }
  runJob directory job input files console :=
    let (result, files) := Shell.runJob files directory job input
    (result, files, console)

/-- A reason why a task fails. -/
inductive TaskFailure where
  /-- The standard input is not UTF-8. -/
  | input
  /-- A path names no file. -/
  | badFileName (path : String)
  /-- A file cannot be opened. -/
  | opening (path : String) (error : StorageError)
  /-- The address of the first range has none. -/
  | address (address : String) (error : EditError)
  /-- A program fails. -/
  | program (program : String) (error : EditError)
  /-- The file cannot be written. -/
  | saving (path : String) (error : StorageError)
  deriving DecidableEq, Repr

/-- How a failure is reported: what was tried, and why it failed. -/
def TaskFailure.message : TaskFailure → String
  | .input => "reading stdin: " ++ FileError.notUtf8.message
  | .badFileName path => "bad file name " ++ path
  | .opening path error => "opening " ++ path ++ ": " ++ error.message
  | .address written error => "evaluating address " ++ quoted written ++ ": " ++ error.message
  | .program written error => "running " ++ quoted written ++ ": " ++ error.message
  | .saving path error => "saving " ++ path ++ ": " ++ error.message

/-- What a task leaves behind. -/
structure TaskResult where
  /-- Why it failed, if it did. -/
  failure : Option TaskFailure
  /-- What was printed on the standard output. -/
  output : String
  /-- What was printed on the standard error output. -/
  errors : String
  /-- The files. -/
  files : FileSystem

namespace Task

/-- The settings of a task. -/
def settings (task : Task) (files : FileSystem) (configuration : String) : Settings :=
  Settings.load files (task.config.getD (Settings.filePath configuration))

/-- The paths that a task names itself. -/
def paths (task : Task) (configuration : String) : List String :=
  let input := match task.input with
    | .standard => []
    | .file path _ => [path]
  input ++ [task.config.getD (Settings.filePath configuration)]

/-- Opens the document of a task. -/
def openDocument (task : Task) (files : FileSystem) (settings : Settings) (input : List UInt8) :
    Except TaskFailure Document :=
  match task.input with
  | .standard =>
    match Utf8.decode? input with
    | some text => .ok ((Document.scratch "stdin").replaceAll text)
    | none => .error .input
  | .file path create =>
    -- A bare name lies in the working directory.
    let directory := if Path.parent path = "" then "." else Path.parent path
    match Path.fileName? path with
    | none => .error (.badFileName path)
    | some name => (Document.openIn files directory name create settings).mapError (.opening path)

/-- The first range of a task. -/
def start (task : Task) (doc : Document) : Except TaskFailure Selection :=
  match task.address with
  | none => .ok (.point 0)
  | some address =>
    (evaluateAddress address doc.source (.point 0)).mapError (.address address)

/-- Runs programs one after the other, until one of them fails. -/
def runAll (env : Environment Console) :
    List String → Session Console → Except TaskFailure Unit × Session Console
  | [], session => (.ok (), session)
  | program :: rest, session =>
    match session.interpretRegistered env program with
    | (.ok _, session) => runAll env rest session
    | (.error error, session) => (.error (.program program error), session)

/-- The report of a session. -/
def report (session : Session Console) : Report where
  name := session.document.name
  dot := session.dot
  modified := session.document.modified
  undoPosition := session.document.history.position
  warnings := session.outside.warnings
  printed := session.outside.printed
  content := String.ofList session.document.content

/-- Puts the result of a session where it belongs. -/
def finish (task : Task) (session : Session Console) : TaskResult :=
  let console := session.outside
  match task.output with
  | .print =>
    ⟨none, console.output ++ String.ofList session.document.content, console.errors,
      session.files⟩
  | .report =>
    ⟨none, console.output ++ (report session).render ++ "\n", console.errors, session.files⟩
  | .write =>
    match session.document.save session.files with
    | .ok (_, files) => ⟨none, console.output, console.errors, files⟩
    | .error error =>
      ⟨some (.saving session.document.path error), console.output, console.errors,
        session.files⟩

/-- Does what a task asks for. The settings are in the directory `configuration`. -/
def run (task : Task) (files : FileSystem) (configuration : String) (input : List UInt8) :
    TaskResult :=
  let opened := do
    let doc ← task.openDocument files (task.settings files configuration) input
    return (doc, ← task.start doc)
  match opened with
  | .error failure => ⟨some failure, "", "", files⟩
  | .ok (document, dot) =>
    let session : Session Console := ⟨document, files, {}, dot, true⟩
    match runAll (consoleEnvironment (task.output = .report)) task.programs session with
    | (.ok _, session) => task.finish session
    | (.error failure, session) =>
      ⟨some failure, session.outside.output, session.outside.errors, session.files⟩

end Task

end Emend
