import Emend.Shell.Characters
import Emend.Shell.Concatenation
import Emend.Shell.Format
import Emend.Shell.Names
import Emend.Shell.Syntax
import Emend.Text.Property
import Emend.Text.Quoted

/-!
# Running shell scripts

A script runs in a directory. Its commands share one input, which is used up by the first command
that reads it, and write to two channels. A script that ends with a status other than zero has
failed. Scripts in brackets and in words run inside others; `depth` bounds how deep they are nested.
-/

namespace Emend.Shell

/-- Where a channel of a command leads. -/
inductive Destination where
  /-- To a channel of the pipeline. -/
  | channel (channel : Nat)
  /-- To the end of a file. -/
  | file (path : String)
  /-- Nowhere. -/
  | nowhere
  deriving DecidableEq, Repr

/-- The state of a running script. -/
structure State where
  /-- The files. -/
  files : FileSystem
  /-- What is left of the input. -/
  input : List UInt8
  /-- What was written, each piece with its channel. -/
  written : List (Nat × List UInt8) := []
  /-- The status of the last command. -/
  status : Nat := 0
  /-- The values of the variables, the newest ones first. -/
  assigned : List (String × String) := []
  /-- Whether the script is at its end. -/
  ended : Bool := false

namespace State

/-- The value of a parameter. -/
def parameter (state : State) (name : String) : String :=
  match name with
  | "?" => toString state.status
  | "#" => "0"
  | "0" => "sh"
  | name => (state.assigned.lookup name).getD ""

/-- Fails with a message of the shell. -/
def fail (state : State) (message : String) : State :=
  { state with
    written := state.written ++ [(2, bytesOf (shellMessage message ++ "\n"))]
    status := 2 }

end State

/-- The bytes of a channel. -/
def channelBytes (channel : Nat) (written : List (Nat × List UInt8)) : List UInt8 :=
  (written.filter (·.1 == channel)).flatMap (·.2)

/-- The file that swallows everything. -/
def nullPath : String :=
  "/dev/null"

/-- Where the channels of a command lead, and the input that it is given instead of the usual
one. -/
structure Wiring where
  /-- The files, of which some were emptied. -/
  files : FileSystem
  /-- Where the output leads. -/
  output : Destination
  /-- Where the messages lead. -/
  messages : Destination
  /-- The input, if it is a file. -/
  input : Option (List UInt8)

namespace Wiring

/-- Where a channel leads. -/
def destination (wiring : Wiring) (channel : Nat) : Destination :=
  if channel = 1 then wiring.output else if channel = 2 then wiring.messages else .nowhere

/-- Lets a channel lead elsewhere. -/
def lead (wiring : Wiring) (channel : Nat) (destination : Destination) : Wiring :=
  if channel = 1 then { wiring with output := destination }
  else if channel = 2 then { wiring with messages := destination }
  else wiring

/-- Applies a redirection to what `target` names. A failure gives its message. -/
def redirect (directory : String) (wiring : Wiring) (channel : Nat) (kind : RedirectionKind)
    (target : String) : Except String Wiring :=
  let path := Path.join directory target
  match kind with
  | .duplicate => .ok (wiring.lead channel (wiring.destination (target.toNat?.getD 0)))
  | .read =>
    if target = nullPath then .ok { wiring with input := some [] }
    else
      match wiring.files.readBytes path with
      | .ok bytes => .ok { wiring with input := some bytes }
      | .error .isADirectory => .ok { wiring with input := some [] }
      | .error _ => .error ("cannot open " ++ target ++ ": No such file")
  | kind =>
    if target = nullPath then .ok (wiring.lead channel .nowhere)
    else
      let before := if kind = .append then (wiring.files.readBytes path).toOption.getD [] else []
      match wiring.files.writeBytes path before with
      | .ok files => .ok ({ wiring with files }.lead channel (.file path))
      | .error .isADirectory => .error ("cannot create " ++ target ++ ": Is a directory")
      | .error _ => .error ("cannot create " ++ target ++ ": Directory nonexistent")

/-- Sends a piece of output where its channel leads. -/
def send (wiring : Wiring) (piece : Nat × List UInt8) :
    Wiring × List (Nat × List UInt8) :=
  match wiring.destination piece.1 with
  | .channel channel => (wiring, [(channel, piece.2)])
  | .nowhere => (wiring, [])
  | .file path =>
    let before := (wiring.files.readBytes path).toOption.getD []
    match wiring.files.writeBytes path (before ++ piece.2) with
    | .ok files => ({ wiring with files }, [])
    | .error _ => (wiring, [])

/-- Sends pieces of output where their channels lead. -/
def sendAll (wiring : Wiring) : List (Nat × List UInt8) → Wiring × List (Nat × List UInt8)
  | [] => (wiring, [])
  | piece :: rest =>
    let (wiring, sent) := wiring.send piece
    let (wiring, others) := wiring.sendAll rest
    (wiring, sent ++ others)

end Wiring

/-- What a utility does, and whether it ends the script. -/
def perform (files : FileSystem) (directory : String) (input : List UInt8) (status : Nat) :
    List String → Effect × Bool
  | [] => (.silent status, false)
  | name :: arguments =>
    match name with
    | "cat" => (cat files directory input arguments, false)
    | "tr" => (tr input arguments, false)
    | "printf" => (printf arguments, false)
    | "echo" => (echo arguments, false)
    | "true" => (.silent 0, false)
    | ":" => (.silent 0, false)
    | "false" => (.silent 1, false)
    | "exit" => (exit status arguments, true)
    | _ => (.failure (shellMessage (name ++ ": not found")) 127, false)

/-- The variable that a word sets, and the word for its value. -/
def assignment? (name : String) : Word → Option (String × Word)
  | .text characters false :: rest =>
    if characters = "=" then if name.isEmpty then none else some (name, rest)
    else if characters.toList.all fun c =>
        isNameChar c && (!name.isEmpty || beginsName c) then
      assignment? (name ++ characters) rest
    else none
  | _ => none

/-- What a part of a word has become. -/
structure Piece where
  /-- The characters. -/
  characters : String
  /-- Whether they are quoted. -/
  isQuoted : Bool
  /-- Whether they are never taken apart. -/
  isWhole : Bool

/-- The characters of pieces. -/
def textOfPieces (pieces : List Piece) : String :=
  "".intercalate (pieces.map (·.characters))

/-- Whether a word holds the output of a script. -/
def holdsOutput (word : Word) : Bool :=
  word.any fun
    | .output _ _ => true
    | _ => false

/-- The words that a word has become: the characters of `pieces`, of which those of a script or of a
parameter are taken apart at blanks unless they are quoted. `current` is the word read so far. -/
def fields (current : Option (List WordChar)) : List Piece → List (List WordChar)
  | [] => current.toList
  | piece :: rest =>
    let chars := piece.characters.toList
    if piece.isWhole then
      fields (some (current.getD [] ++ chars.map (·, piece.isQuoted))) rest
    else
      let (found, current) := chars.foldl (fun (found, current) c =>
        if isBlank c || c = '\n' then (found ++ Option.toList current, none)
        else (found, some (current.getD [] ++ [(c, false)]))) ([], current)
      found ++ fields current rest

/-- The output of a script as it stands in a word: without the line ends at its end. -/
def outputText (bytes : List UInt8) : String :=
  String.ofList (((Utf8.decodeLossy bytes).reverse.dropWhile (· = '\n')).reverse.filter
    (· != '\x00'))

mutual

/-- Replaces the parts of a word. -/
def expandParts (depth : Nat) (directory : String) (state : State) : Word → List Piece × State
  | [] => ([], state)
  | part :: rest =>
    let (piece, state) : Piece × State :=
      match part with
      | .text characters isQuoted => (⟨characters, isQuoted, true⟩, state)
      | .parameter name isQuoted => (⟨state.parameter name, isQuoted, isQuoted⟩, state)
      | .output script isQuoted =>
        match depth with
        | 0 => (⟨"", isQuoted, isQuoted⟩, state)
        | depth + 1 =>
          let inner := runText depth directory { state with written := [] } script
          (⟨outputText (channelBytes 1 inner.written), isQuoted, isQuoted⟩,
            { state with
              files := inner.files
              input := inner.input
              written := state.written ++ inner.written.filter (·.1 != 1)
              status := inner.status })
    let (pieces, state) := expandParts depth directory state rest
    (piece :: pieces, state)
termination_by parts => (depth, 0, parts.length)

/-- Replaces a list of words by the words that they become. -/
def expandWords (depth : Nat) (directory : String) (state : State) :
    List Word → List String × State
  | [] => ([], state)
  | word :: rest =>
    let (pieces, state) := expandParts depth directory state word
    let (others, state) := expandWords depth directory state rest
    ((fields none pieces).flatMap (textsOfWord state.files directory) ++ others, state)
termination_by words => (depth, 1, words.length)

/-- Applies redirections. A failure gives its message. -/
def redirectAll (depth : Nat) (directory : String) (state : State) (wiring : Wiring) :
    List Redirection → Except String Wiring × State
  | [] => (.ok wiring, state)
  | redirection :: rest =>
    let (pieces, state) := expandParts depth directory state redirection.target
    let target := textOfPieces pieces
    match wiring.redirect directory redirection.channel redirection.kind target with
    | .ok wiring => redirectAll depth directory state wiring rest
    | .error message => (.error message, state)
termination_by redirections => (depth, 1, redirections.length)

/-- Sets variables to the values of their words. -/
def assign (depth : Nat) (directory : String) (state : State) : List (String × Word) → State
  | [] => state
  | (name, word) :: rest =>
    let (pieces, state) := expandParts depth directory state word
    let assigned := (name, textOfPieces pieces) :: state.assigned
    assign depth directory { state with assigned } rest
termination_by assignments => (depth, 1, assignments.length)

/-- Runs a command. -/
def runCommand (depth : Nat) (directory : String) (state : State) (command : Command) : State :=
  match command with
  | .simple words redirections =>
    let assignments := (words.map (assignment? "")).takeWhile Option.isSome
    let (found, expanded) :=
      expandWords depth directory state (words.drop assignments.length)
    -- Without a utility, the status is that of the last script in a word.
    let before := if found.isEmpty && !(words.any holdsOutput) then 0 else expanded.status
    let wiring : Wiring := ⟨expanded.files, .channel 1, .channel 2, none⟩
    match redirectAll depth directory expanded wiring redirections with
    | (.error message, state) =>
      -- Some utilities belong to the shell itself, which ends with them.
      { state.fail message with ended := found.head? == some ":" || found.head? == some "exit" }
    | (.ok wiring, state) =>
      let input := wiring.input.getD state.input
      let (effect, ended) := perform wiring.files directory input before found
      let (wired, sent) := wiring.sendAll effect.written
      let after : State :=
        { state with
          files := wired.files
          input := if effect.readsInput && wiring.input.isNone then [] else state.input
          written := state.written ++ sent
          status := effect.status
          ended }
      if found.isEmpty then
        assign depth directory after (assignments.filterMap id)
      else after
  | .block isIsolated pipelines redirections =>
    let wiring : Wiring := ⟨state.files, .channel 1, .channel 2, none⟩
    match redirectAll depth directory state wiring redirections with
    | (.error message, state) => state.fail message
    | (.ok wiring, state) =>
      match depth with
      | 0 => state
      | depth + 1 =>
        let inner := runScript depth directory
          { state with
            files := wiring.files
            input := wiring.input.getD state.input
            written := [] } pipelines
        let (wired, sent) := { wiring with files := inner.files }.sendAll inner.written
        { files := wired.files
          input := if wiring.input.isNone then inner.input else state.input
          written := state.written ++ sent
          status := inner.status
          assigned := if isIsolated then state.assigned else inner.assigned
          ended := inner.ended && !isIsolated }
termination_by (depth, 2, 0)

/-- Runs the commands of a pipeline after its first one, each on the output of the one before. -/
def runPiped (depth : Nat) (directory : String) (state : State) : List Command → State
  | [] => state
  | command :: rest =>
    let piped :=
      { state with
        input := channelBytes 1 state.written
        written := state.written.filter (·.1 != 1) }
    runPiped depth directory (runCommand depth directory piped command) rest
termination_by commands => (depth, 3, commands.length)

/-- Runs a pipeline. Only a command that stands alone changes variables or ends the script. -/
def runPipeline (depth : Nat) (directory : String) (state : State) (commands : List Command) :
    State :=
  match commands with
  | [] => state
  | [command] => runCommand depth directory state command
  | command :: rest =>
    let first := runCommand depth directory { state with written := [] } command
    let last := runPiped depth directory first rest
    { last with
      -- What the first command has left of the input is there for the next pipeline.
      input := first.input
      written := state.written ++ last.written
      assigned := state.assigned
      ended := false }
termination_by (depth, 4, 0)

/-- Runs a script. -/
def runScript (depth : Nat) (directory : String) (state : State) : Script → State
  | [] => state
  | (joint, isNegated, commands) :: rest =>
    let runs := match joint with
      | .always => true
      | .onSuccess => state.status == 0
      | .onFailure => state.status != 0
    let after :=
      if runs then
        let after := runPipeline depth directory state commands
        if isNegated && !after.ended then
          { after with status := if after.status = 0 then 1 else 0 }
        else after
      else state
    if after.ended then after else runScript depth directory after rest
termination_by script => (depth, 5, script.length)

/-- Runs the script that a text writes. -/
def runText (depth : Nat) (directory : String) (state : State) (text : String) : State :=
  match Script.ofText text with
  | .ok script => runScript depth directory state script
  | .error error => state.fail error.message
termination_by (depth, 6, 0)

end

/-- Runs a script as a job: gives its output, or a message if it failed. -/
def runJob (files : FileSystem) (directory script : String) (input : List Char) :
    Except String (List Char) × FileSystem :=
  if script.contains '\x00' then
    (.error ("couldn't start " ++ quoted script ++ ": nul byte found in provided data"), files)
  else
    let start : State := { files, input := Utf8.encode input }
    let state := runText script.length directory start script
    let output := Utf8.decodeLossy (channelBytes 1 state.written)
    if state.status = 0 then (.ok output, state.files)
    else
      let messages := String.ofList (Utf8.decodeLossy (channelBytes 2 state.written))
      (.error (quoted script ++ s!" exited with exit status: {state.status}: " ++
        trimEnd messages), state.files)
where
  /-- A text without the white space at its end. -/
  trimEnd (text : String) : String :=
    String.ofList (text.toList.reverse.dropWhile isWhiteSpace).reverse

end Emend.Shell
