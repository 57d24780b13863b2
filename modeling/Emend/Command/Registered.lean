import Emend.Command.Execute

/-!
# Running programs on registered ranges

While a program runs, dot and the ranges of its blocks, loops and substitutions can be registered
with the document, like any selection that a caller wants to keep: then an edit moves them along
with all others, and no command has to see to it. Here programs run in this way. A command is given
the handle of its dot; what registers a range takes it out again, also after a failure.

The dot of the session only says where a program begins, and where it has ended.
-/

namespace Emend

variable {σ α : Type}

namespace Run

/-- The range that an address names, seen from the range of a handle. -/
def evaluateAt (handle : SelectionHandle) (address : Address) : Run σ Selection :=
  fun session =>
    let dot := (session.document.selections.get? handle).getD (.point 0)
    (address.evaluate session.document.source dot, session)

/-- Sets the range of a handle. -/
def select (handle : SelectionHandle) (sel : Selection) : Run σ Unit :=
  step fun session =>
    ((), { session with document := session.document.setSelection handle sel })

/-- Does something with a range registered, and takes the range out again, also after a failure.
Gives the result, what has become of the range, and the session. -/
def registering (sel : Selection) (action : SelectionHandle → Run σ α) (session : Session σ) :
    Except EditError α × Option Selection × Session σ :=
  let (handle, document) := session.document.addSelection sel
  let (result, after) := action handle { session with document }
  (result, after.document.selections.get? handle,
    { after with document := after.document.eraseSelection handle })

/-- Does something with a range of its own as dot. -/
def onRange (sel : Selection) (action : SelectionHandle → Run σ α) : Run σ α :=
  fun session =>
    let (result, _, after) := registering sel action session
    (result, after)

/-- Runs the body of a loop on each range in turn, and collects its edits, as `eachRange` does. -/
def eachRangeAt (env : Environment σ) (letter : Char)
    (body : SelectionHandle → Run σ (List Replacement)) :
    List Selection → Run σ (Option (List Replacement))
  | [] => return some []
  | sel :: rest => do
    match ← attempt (onRange sel body) with
    | .error error =>
      warn env (letter.toString ++ ": " ++ error.message)
      return none
    | .ok edits => return (← eachRangeAt env letter body rest).map (edits ++ ·)

/-- Makes the replacements that were worked out in a range. The range moves along with them, and
becomes dot. -/
def substituteAt (collecting : Bool) (handle : SelectionHandle) (sel : Selection)
    (edits : List Replacement) : Run σ (List Replacement) :=
  fun session =>
    let (result, left, after) := registering sel (fun _ => release collecting edits) session
    (result, { after with document := after.document.setSelection handle (left.getD sel) })

/-- Moves or copies a range behind another one, as `transfer` does. -/
def transferAt (collecting moving : Bool) (handle : SelectionHandle) (range : Selection)
    (target : Nat) : Run σ (List Replacement) := do
  if moving && range.start < target && target < range.stop then
    throw (.address (.moveInside range))
  let text ← textOf range
  let length := range.length
  let insertion : Replacement := ⟨.point target, text⟩
  let deletion : Replacement := ⟨range, []⟩
  let landed : Selection :=
    if moving && range.stop ≤ target then ⟨target - length, target⟩
    else ⟨target, target + length⟩
  let edits :=
    if !moving then [insertion]
    else if range.stop ≤ target then [deletion, insertion]
    else [insertion, deletion]
  let edits ← release collecting edits
  if !collecting then select handle landed
  return edits

/-- Runs a command that uses the shell, as `pipe` does. -/
def pipeAt (env : Environment σ) (collecting : Bool) (handle : SelectionHandle) (kind : Pipe)
    (range : Address) (command : String) : Run σ (List Replacement) := do
  match kind with
  | .input =>
    match ← job env command [] with
    | none => return []
    | some output =>
      let sel ← evaluateAt handle range
      let (after, edits) ← put collecting ⟨sel, output⟩
      select handle after
      return edits
  | .output =>
    let sel ← evaluateAt handle range
    select handle sel
    let output ← job env command (← textOf sel)
    if output.any (!·.isEmpty) then print env (String.ofList (output.getD []))
    return []
  | .filter =>
    let sel ← evaluateAt handle range
    select handle sel
    match ← job env command (← textOf sel) with
    | none => return []
    | some output =>
      let (after, edits) ← put collecting ⟨sel, output⟩
      select handle after
      return edits

/-- Runs a command that uses a file, as `file` does. -/
def fileAt (env : Environment σ) (collecting : Bool) (handle : SelectionHandle) (use : FileUse)
    (range : Address) (name : String) : Run σ (List Replacement) := do
  match use with
  | .edit =>
    match ← readFile env name with
    | none => return []
    | some text =>
      let size ← look (·.document.size)
      let (_, edits) ← put collecting ⟨⟨0, size⟩, text⟩
      select handle (.point 0)
      return edits
  | .read =>
    let sel ← evaluateAt handle range
    select handle sel
    match ← readFile env name with
    | none => return []
    | some text =>
      let (after, edits) ← put collecting ⟨sel, text⟩
      select handle after
      return edits
  | .write =>
    let sel ← evaluateAt handle range
    select handle sel
    let size ← look (·.document.size)
    writeFile env name (if sel.isEmpty then ⟨0, size⟩ else sel)
    return []

mutual

/-- Runs a command whose dot is the range of a handle, and gives the edits that it leaves to be
collected. -/
def executeAt (env : Environment σ) (collecting : Bool) (handle : SelectionHandle) :
    Command → Run σ (List Replacement)
  | .goto range => do
    select handle (← evaluateAt handle range)
    return []
  | .place placement range _ text => do
    let sel ← evaluateAt handle range
    match placement with
    | .after => return (← put collecting ⟨.point sel.stop, text.toList⟩).2
    | .before => return (← put collecting ⟨.point sel.start, text.toList⟩).2
    | .instead =>
      let (after, edits) ← put collecting ⟨sel, text.toList⟩
      select handle after
      return edits
  | .delete range => do
    let sel ← evaluateAt handle range
    let (after, edits) ← put collecting ⟨sel, []⟩
    select handle after
    return edits
  | .substitute range nth _ regex replacement all => do
    let sel ← evaluateAt handle range
    let text ← look (·.document.source)
    let edits ← ExceptT.mk (pure (substitutions text sel nth regex replacement all))
    substituteAt collecting handle sel edits
  | .transfer moving range target => do
    let sel ← evaluateAt handle range
    let behind ← evaluateAt handle target
    transferAt collecting moving handle sel behind.stop
  | .print range => do
    let sel ← evaluateAt handle range
    select handle sel
    print env (String.ofList (← textOf sel))
    return []
  | .position range argument => do
    let sel ← evaluateAt handle range
    select handle sel
    printPosition env argument sel
    return []
  | .visit kind range _ regex body => do
    let sel ← evaluateAt handle range
    select handle sel
    let text ← look (·.document.source)
    -- A guard runs its body with the dot that it has itself, a loop with one for each round.
    match kind with
    | .ifFound =>
      if occursIn regex text sel then executeAt env collecting handle body else return []
    | .unlessFound =>
      if occursIn regex text sel then return [] else executeAt env collecting handle body
    | .eachMatch =>
      let found := regex.successive text sel.start sel.stop
      let edits ← eachRangeAt env kind.letter (fun round => executeAt env true round body)
        (found.map (·.range))
      release collecting (edits.getD [])
    | .eachGap =>
      let found := regex.successive text sel.start sel.stop
      let gaps := Captures.gaps sel.start sel.stop found
      let edits ← eachRangeAt env kind.letter (fun round => executeAt env true round body) gaps
      release collecting (edits.getD [])
  | .pipe kind range command => pipeAt env collecting handle kind range command
  | .file use range name => fileAt env collecting handle use range name
  | .block range commands => do
    let sel ← evaluateAt handle range
    let edits ← onRange sel fun inside => executeAllAt env inside commands
    release collecting edits

/-- Runs the commands of a block, and collects their edits. -/
def executeAllAt (env : Environment σ) (handle : SelectionHandle) :
    List Command → Run σ (List Replacement)
  | [] => return []
  | command :: rest => do
    let edits ← executeAt env true handle command
    return edits ++ (← executeAllAt env handle rest)

end

end Run

/-- Reads a program and runs it with dot registered, and then takes dot out again. A program that
cannot be read changes nothing. -/
def Session.interpretRegistered (env : Environment σ) (program : String) (session : Session σ) :
    Except EditError Unit × Session σ :=
  match Command.parse program with
  | .error error => (.error error, session)
  | .ok command =>
    let (result, left, after) :=
      Run.registering session.dot (fun handle => Run.executeAt env false handle command)
        { session with fresh := true }
    (result.map fun _ => (), { after with dot := left.getD session.dot })

end Emend
