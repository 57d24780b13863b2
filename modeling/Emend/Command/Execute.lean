import Emend.Address.Evaluate
import Emend.Command.Parser
import Emend.Command.Session

/-!
# Running programs

A command that stands alone edits the document at once. What runs inside a loop, a block or a
substitution only collects its edits; when the outermost of these commands is done, all edits are
applied together, so everything in it sees the text as it was at the beginning. All edits of one
program are one step of the history.
-/

namespace Emend

variable {σ : Type}

namespace Run

/-- The path of a file that a program names. -/
def resolve (name : String) : Run σ String :=
  look fun session => Path.join session.document.directory name

/-- The text of a file. A failure is reported, and gives none. -/
def readFile (env : Environment σ) (name : String) : Run σ (Option (List Char)) := do
  if name.isEmpty then
    warn env "missing file name"
    return none
  else
    let path ← resolve name
    match ← look (·.files.readText path) with
    | .ok text => return some text
    | .error error =>
      warn env ("couldn't read file " ++ path ++ ": " ++ error.message)
      return none

/-- Writes a range to a file. A failure is reported. -/
def writeFile (env : Environment σ) (name : String) (sel : Selection) : Run σ Unit := do
  if name.isEmpty then warn env "missing file name"
  else
    let path ← resolve name
    let text ← textOf sel
    match ← look (·.files.writeText path text) with
    | .ok files => step fun session => ((), { session with files })
    | .error error => warn env ("couldn't write file " ++ path ++ ": " ++ error.message)

/-- Prints where a range lies: in characters for the argument `#`, in lines for none. -/
def printPosition (env : Environment σ) (argument : String) (sel : Selection) : Run σ Unit := do
  let path ← look (·.document.path)
  if argument = "#" then
    let stop := if sel.isEmpty then "" else s!",#{sel.stop}"
    print env (path ++ s!":#{sel.start}" ++ stop)
  else if argument.isEmpty then
    let (first, _) ← look (·.document.source.lineOf sel.start false)
    let (last, _) ← look (·.document.source.lineOf sel.stop false)
    let stop := if sel.isEmpty then "" else s!",{last}"
    print env (path ++ s!":{first}" ++ stop)
  else warn env "wrong argument to ="

/-- Runs the body of a loop on each range in turn, and collects its edits. When the body fails the
failure is reported, and the loop ends without any edits. -/
def eachRange (env : Environment σ) (letter : Char) (body : Run σ (List Replacement)) :
    List Selection → Run σ (Option (List Replacement))
  | [] => return some []
  | sel :: rest => do
    -- A failure ends the loop without its edits, but not the program.
    match ← attempt (withDot sel body) with
    | .error error =>
      warn env (letter.toString ++ ": " ++ error.message)
      return none
    | .ok edits => return (← eachRange env letter body rest).map (edits ++ ·)

/-- Moves or copies a range behind another one. The edits are applied together; dot goes to the text
at its new place when they are applied now. -/
def transfer (collecting moving : Bool) (range : Selection) (target : Nat) :
    Run σ (List Replacement) := do
  if moving && range.start < target && target < range.stop then
    throw (.address (.moveInside range))
  let text ← textOf range
  let length := range.length
  let insertion : Replacement := ⟨.point target, text⟩
  let deletion : Replacement := ⟨range, []⟩
  let landed : Selection :=
    if moving && range.stop ≤ target then ⟨target - length, target⟩
    else ⟨target, target + length⟩
  -- Replacements at one place are applied in the order in which they stand here.
  let edits :=
    if !moving then [insertion]
    else if range.stop ≤ target then [deletion, insertion]
    else [insertion, deletion]
  let edits ← release collecting edits
  if !collecting then setDot landed
  return edits

/-- Runs a command that uses the shell. -/
def pipe (env : Environment σ) (collecting : Bool) (kind : Pipe) (range : Address)
    (command : String) : Run σ (List Replacement) := do
  match kind with
  | .input =>
    match ← job env command [] with
    | none => return []
    | some output =>
      let sel ← evaluate range
      let (after, edits) ← put collecting ⟨sel, output⟩
      setDot after
      return edits
  | .output =>
    let sel ← evaluate range
    setDot sel
    let output ← job env command (← textOf sel)
    if output.any (!·.isEmpty) then print env (String.ofList (output.getD []))
    return []
  | .filter =>
    let sel ← evaluate range
    setDot sel
    match ← job env command (← textOf sel) with
    | none => return []
    | some output =>
      let (after, edits) ← put collecting ⟨sel, output⟩
      setDot after
      return edits

/-- Runs a command that uses a file. -/
def file (env : Environment σ) (collecting : Bool) (use : FileUse) (range : Address)
    (name : String) : Run σ (List Replacement) := do
  match use with
  | .edit =>
    match ← readFile env name with
    | none => return []
    | some text =>
      let size ← look (·.document.size)
      let (_, edits) ← put collecting ⟨⟨0, size⟩, text⟩
      setDot (.point 0)
      return edits
  | .read =>
    let sel ← evaluate range
    setDot sel
    match ← readFile env name with
    | none => return []
    | some text =>
      let (after, edits) ← put collecting ⟨sel, text⟩
      setDot after
      return edits
  | .write =>
    let sel ← evaluate range
    setDot sel
    let size ← look (·.document.size)
    -- An empty range stands for the whole text.
    writeFile env name (if sel.isEmpty then ⟨0, size⟩ else sel)
    return []

/-- Whether a pattern occurs in a range. -/
def occursIn (regex : Regex) (text : Source) (sel : Selection) : Bool :=
  (regex.matchAt text sel.start sel.stop .forward).isSome

mutual

/-- Runs a command, and gives the edits that it leaves to be collected. -/
def execute (env : Environment σ) (collecting : Bool) : Command → Run σ (List Replacement)
  | .goto range => do
    setDot (← evaluate range)
    return []
  | .place placement range _ text => do
    let sel ← evaluate range
    match placement with
    | .after => return (← put collecting ⟨.point sel.stop, text.toList⟩).2
    | .before => return (← put collecting ⟨.point sel.start, text.toList⟩).2
    | .instead =>
      let (after, edits) ← put collecting ⟨sel, text.toList⟩
      setDot after
      return edits
  | .delete range => do
    let sel ← evaluate range
    let (after, edits) ← put collecting ⟨sel, []⟩
    setDot after
    return edits
  | .substitute range nth _ regex replacement all => do
    let sel ← evaluate range
    let text ← look (·.document.source)
    -- All replacements are worked out before any is made, so a failure leaves no trace.
    let edits ← ExceptT.mk (pure (substitutions text sel nth regex replacement all))
    setDot sel
    release collecting edits
  | .transfer moving range target => do
    let sel ← evaluate range
    let behind ← evaluate target
    transfer collecting moving sel behind.stop
  | .print range => do
    let sel ← evaluate range
    setDot sel
    print env (String.ofList (← textOf sel))
    return []
  | .position range argument => do
    let sel ← evaluate range
    setDot sel
    printPosition env argument sel
    return []
  | .visit kind range _ regex body => do
    let sel ← evaluate range
    setDot sel
    let text ← look (·.document.source)
    match kind with
    | .ifFound =>
      if occursIn regex text sel then execute env collecting body else return []
    | .unlessFound =>
      if occursIn regex text sel then return [] else execute env collecting body
    | .eachMatch =>
      let found := regex.successive text sel.start sel.stop
      let edits ← eachRange env kind.letter (execute env true body) (found.map (·.range))
      release collecting (edits.getD [])
    | .eachGap =>
      let found := regex.successive text sel.start sel.stop
      let gaps := Captures.gaps sel.start sel.stop found
      let edits ← eachRange env kind.letter (execute env true body) gaps
      release collecting (edits.getD [])
  | .pipe kind range command => pipe env collecting kind range command
  | .file use range name => file env collecting use range name
  | .block range commands => do
    let sel ← evaluate range
    let edits ← withDot sel (executeAll env commands)
    release collecting edits

/-- Runs the commands of a block, and collects their edits. -/
def executeAll (env : Environment σ) : List Command → Run σ (List Replacement)
  | [] => return []
  | command :: rest => do
    let edits ← execute env true command
    return edits ++ (← executeAll env rest)

end

end Run

/-- Reads a program and runs it. A program that cannot be read changes nothing. -/
def Session.interpret (env : Environment σ) (program : String) (session : Session σ) :
    Except EditError Unit × Session σ :=
  match Command.parse program with
  | .error error => (.error error, session)
  | .ok command =>
    let dot := session.dot.clamp session.document.size
    let (result, after) := Run.execute env false command { session with dot, fresh := true }
    (result.map fun _ => (), after)

end Emend
