import Emend.Address.Evaluate
import Emend.Command.Replacement
import Emend.Document.Storing

/-!
# Sessions

A program runs in a session: on a document, with a range called dot, among files, and in an
environment that receives its messages and runs its jobs. The environment keeps a state of its own
type, so that what it answers may depend on all that happened before.
-/

namespace Emend

/-- What a program needs from around it, for an environment with states of the type `σ`. -/
structure Environment (σ : Type) where
  /-- Receives a message that something went wrong. -/
  warn : String → σ → σ
  /-- Receives what the program prints. -/
  print : String → σ → σ
  /-- Runs a job in a directory, with a text as its input: gives the output, or a message. -/
  runJob : (directory job : String) → (input : List Char) → FileSystem → σ →
    Except String (List Char) × FileSystem × σ

/-- What a program works on. -/
structure Session (σ : Type) where
  /-- The document. -/
  document : Document
  /-- The files. -/
  files : FileSystem
  /-- The state of the environment. -/
  outside : σ
  /-- The range that addresses are relative to. -/
  dot : Selection
  /-- Whether the program has not yet edited the document. -/
  fresh : Bool

/-- Something that a program does: it changes its session, and fails or gives a result. A failure
keeps the changes made before it. -/
abbrev Run (σ : Type) := ExceptT EditError (StateM (Session σ))

namespace Run

variable {σ α : Type}

/-- Does something that cannot fail. -/
def step (f : Session σ → α × Session σ) : Run σ α :=
  fun session => let (value, session) := f session; (.ok value, session)

/-- Tells something about the session. -/
def look (f : Session σ → α) : Run σ α :=
  step fun session => (f session, session)

/-- The range that an address names. -/
def evaluate (address : Address) : Run σ Selection :=
  fun session => (address.evaluate session.document.source session.dot, session)

/-- Makes a range the new dot. -/
def setDot (sel : Selection) : Run σ Unit :=
  step fun session => ((), { session with dot := sel.clamp session.document.size })

/-- The text of a range. -/
def textOf (sel : Selection) : Run σ (List Char) :=
  look (·.document.text sel)

/-- Does something with another dot, and comes back to the old one, also after a failure. -/
def withDot (sel : Selection) (action : Run σ α) : Run σ α :=
  fun session =>
    let dot := session.dot
    let (result, after) := action { session with dot := sel.clamp session.document.size }
    (result, { after with dot })

/-- Does something, and gives its failure as a result. -/
def attempt (action : Run σ α) : Run σ (Except EditError α) :=
  fun session => let (result, after) := action session; (.ok result, after)

/-- Tells the environment that something went wrong. -/
def warn (env : Environment σ) (message : String) : Run σ Unit :=
  step fun session => ((), { session with outside := env.warn message session.outside })

/-- Prints a text. -/
def print (env : Environment σ) (text : String) : Run σ Unit :=
  step fun session => ((), { session with outside := env.print text session.outside })

/-- Runs a job in the directory of the document. A failure of the job is reported, and gives no
output. -/
def job (env : Environment σ) (job : String) (input : List Char) : Run σ (Option (List Char)) := do
  let result ← step fun session =>
    let (result, files, outside) :=
      env.runJob session.document.directory job input session.files session.outside
    (result, { session with files, outside })
  match result with
  | .ok output => return some output
  | .error message =>
    warn env (job ++ ": " ++ message)
    return none

/-- Puts a text in place of a range of the document. The first edit of a program begins a step of
the history. Gives where a selection of the range goes. -/
def edit (replacement : Replacement) : Run σ Selection :=
  step fun ⟨document, files, outside, dot, fresh⟩ =>
    match document.accept replacement.range with
    -- Even a refused edit is the first one of its program.
    | .error sel => (sel, ⟨document, files, outside, dot, false⟩)
    | .ok range =>
      let text := replacement.text
      let document := document.replaceAccepted text range none fresh .program
      let change : Change := ⟨range.start, range.length, text.length⟩
      (.point (range.start + text.length),
        ⟨document, files, outside, change.moveSelection document.size dot, false⟩)

/-- Applies replacements one after the other. -/
def editAll : List Replacement → Run σ Unit
  | [] => pure ()
  | replacement :: rest => do
    let _ ← edit replacement
    editAll rest

/-- Applies collected replacements together, or hands them on to be collected further. -/
def release (collecting : Bool) (replacements : List Replacement) : Run σ (List Replacement) := do
  if collecting then return replacements
  else
    editAll (Replacement.inTurn 0 (Replacement.arrange replacements))
    return []

/-- Puts a text in place of a range, now or, when edits are collected, later. Gives where a
selection of the range goes now. -/
def put (collecting : Bool) (replacement : Replacement) :
    Run σ (Selection × List Replacement) := do
  if collecting then return (replacement.range, [replacement])
  else return (← edit replacement, [])

end Run

end Emend
