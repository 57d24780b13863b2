/-!
# Options

A command line names a file, programs, and options. Arguments are read from left to right. An option
that takes a value takes the rest of its argument, or the next argument; what it takes is only
checked when the next option or the end of the line is reached, and an argument that is not known is
reported before that.
-/

namespace Emend

/-- What a command line asks for. -/
structure Options where
  /-- The file. -/
  file : Option String := none
  /-- The programs, in order. -/
  programs : List String := []
  /-- The address of the first range. -/
  address : Option String := none
  /-- Whether the file may be missing. -/
  create : Bool := false
  /-- Whether the result is written to the file. -/
  write : Bool := false
  /-- Whether a report is printed. -/
  json : Bool := false
  /-- The file of the settings. -/
  config : Option String := none
  deriving DecidableEq, Repr

/-- A reason why a command line is not followed. -/
inductive OptionError where
  /-- There is no program. -/
  | noProgram
  /-- This argument is not known. -/
  | unknown (argument : String)
  /-- A value is missing, or is empty where it must not be. -/
  | missingValue
  /-- An option occurs twice that may occur once. -/
  | repeated
  /-- An option is given a value that takes none. -/
  | unneededValue
  /-- Help is asked for. -/
  | helpWanted
  /-- The version is asked for. -/
  | versionWanted
  deriving DecidableEq, Repr

/-- What takes a value. -/
inductive ValueSlot where
  /-- The file. -/
  | file
  /-- A further program. -/
  | program
  /-- The address. -/
  | address
  /-- The file of the settings. -/
  | config
  deriving DecidableEq, Repr

/-- An option. -/
inductive OptionName where
  /-- One that takes a value. -/
  | valued (slot : ValueSlot)
  /-- The file may be missing. -/
  | create
  /-- The result is written. -/
  | write
  /-- A report is printed. -/
  | json
  /-- Help is asked for. -/
  | help
  /-- The version is asked for. -/
  | version
  deriving DecidableEq, Repr

namespace OptionName

/-- The option with a long name. -/
def ofLong? : String → Option OptionName
  | "expr" => some (.valued .program)
  | "addr" => some (.valued .address)
  | "config" => some (.valued .config)
  | "create" => some .create
  | "write" => some .write
  | "json" => some .json
  | "help" => some .help
  | "version" => some .version
  | _ => none

/-- The option with a letter. -/
def ofLetter? : Char → Option OptionName
  | 'e' => some (.valued .program)
  | 'a' => some (.valued .address)
  | 'c' => some .create
  | 'w' => some .write
  | 'h' => some .help
  | 'V' => some .version
  | _ => none

end OptionName

namespace Options

/-- Sets a value. -/
def setValue (options : Options) (slot : ValueSlot) (value : String) :
    Except OptionError Options :=
  match slot with
  | .program => .ok { options with programs := options.programs ++ [value] }
  | .address =>
    if options.address.isSome then .error .repeated
    else .ok { options with address := some value }
  | .config =>
    if options.config.isSome then .error .repeated
    else if value.isEmpty then .error .missingValue
    else .ok { options with config := some value }
  | .file =>
    if value.isEmpty then .error .missingValue else .ok { options with file := some value }

/-- Follows an option that takes no value. -/
def setFlag (options : Options) : OptionName → Except OptionError Options
  | .create => if options.create then .error .repeated else .ok { options with create := true }
  | .write => if options.write then .error .repeated else .ok { options with write := true }
  | .json => if options.json then .error .repeated else .ok { options with json := true }
  | .help => .error .helpWanted
  | .version => .error .versionWanted
  | .valued _ => .error .missingValue

end Options

/-- How far a command line is read. -/
structure OptionReader where
  /-- What it asks for so far. -/
  options : Options := {}
  /-- The last slot, with its value if it has one, as long as it is not checked. -/
  pending : Option (ValueSlot × Option String) := none
  /-- Whether the file is named. -/
  hasFile : Bool := false
  /-- Whether no more options follow. -/
  onlyValues : Bool := false

namespace OptionReader

/-- Checks what is pending. -/
def settle (reader : OptionReader) : Except OptionError OptionReader :=
  match reader.pending with
  | none => .ok reader
  | some (_, none) => .error .missingValue
  | some (slot, some value) => do
    return { reader with options := ← reader.options.setValue slot value, pending := none }

/-- Reads an option with the value that is attached to it, if there is one. -/
def option (reader : OptionReader) (name : OptionName) (attached : Option String) :
    Except OptionError OptionReader := do
  match name, attached with
  | .valued slot, none => return { ← reader.settle with pending := some (slot, none) }
  | .valued slot, some value =>
    let reader ← reader.settle
    return { reader with options := ← reader.options.setValue slot value }
  -- This is noticed before what is pending is checked.
  | _, some _ => throw .unneededValue
  | name, none =>
    let reader ← reader.settle
    return { reader with options := ← reader.options.setFlag name }

/-- Reads an argument without its two leading hyphens. -/
def long (reader : OptionReader) (argument : List Char) : Except OptionError OptionReader :=
  let name := String.ofList (argument.takeWhile (· != '='))
  let attached := match argument.dropWhile (· != '=') with
    | [] => none
    | _ :: value => some (String.ofList value)
  match OptionName.ofLong? name with
  | some found => reader.option found attached
  | none => .error (.unknown (String.ofList ('-' :: '-' :: argument)))

/-- The value that is attached to a letter, if there is one. -/
def attachedValue : List Char → Option String
  | [] => none
  | '=' :: value => some (String.ofList value)
  | value => some (String.ofList value)

/-- Reads the letters of an argument after its hyphen. -/
def letters (reader : OptionReader) : List Char → Except OptionError OptionReader
  | [] => .ok reader
  | letter :: rest =>
    match OptionName.ofLetter? letter with
    | none => .error (.unknown (String.ofList ['-', letter]))
    | some (.valued slot) => reader.option (.valued slot) (attachedValue rest)
    | some name => do
      let reader ← reader.option name none
      reader.letters rest

/-- Reads an argument that is not an option. -/
def value (reader : OptionReader) (argument : String) : Except OptionError OptionReader :=
  if reader.hasFile then .error (.unknown argument)
  else do
    return { ← reader.settle with pending := some (.file, some argument), hasFile := true }

/-- Reads an argument. -/
def argument (reader : OptionReader) (text : String) : Except OptionError OptionReader :=
  if reader.onlyValues then reader.value text
  else
    match text.toList with
    | ['-', '-'] => .ok { reader with onlyValues := true }
    | '-' :: '-' :: name => reader.long name
    | '-' :: letter :: rest => reader.letters (letter :: rest)
    | _ =>
      match reader.pending with
      | some (slot, none) => .ok { reader with pending := some (slot, some text) }
      | _ => reader.value text

end OptionReader

/-- Reads a command line. -/
def Options.parse (arguments : List String) : Except OptionError Options := do
  let start : OptionReader := {}
  let reader ← arguments.foldlM OptionReader.argument start
  let options := (← reader.settle).options
  if options.programs.isEmpty then throw .noProgram else return options

/-- Where the text comes from. -/
inductive TaskInput where
  /-- From the standard input. -/
  | standard
  /-- From a file, which may be missing if `create` is set. -/
  | file (path : String) (create : Bool)
  deriving DecidableEq, Repr

/-- What becomes of the result. -/
inductive TaskOutput where
  /-- It is printed. -/
  | print
  /-- It is written to the file. -/
  | write
  /-- A report of it is printed. -/
  | report
  deriving DecidableEq, Repr

/-- What is to be done. -/
structure Task where
  /-- Where the text comes from. -/
  input : TaskInput
  /-- The programs, in order. -/
  programs : List String
  /-- The address of the first range. -/
  address : Option String
  /-- What becomes of the result. -/
  output : TaskOutput
  /-- The file of the settings, if it is not the usual one. -/
  config : Option String
  deriving DecidableEq, Repr

/-- A reason why options do not go together. -/
inductive TaskError where
  /-- The result is to be written, and there is no file. -/
  | writeWithoutFile
  /-- The result is to be both written and reported. -/
  | writeAndReport
  deriving DecidableEq, Repr

/-- How options that do not go together are reported. -/
def TaskError.message : TaskError → String
  | .writeWithoutFile => "--write needs a FILE"
  | .writeAndReport => "--write and --json are exclusive"

/-- What options ask to be done. -/
def Options.task (options : Options) : Except TaskError Task := do
  let input ← match options.file with
    | some path => pure (TaskInput.file path options.create)
    | none => if options.write then throw .writeWithoutFile else pure .standard
  let output ← match options.write, options.json with
    | true, true => throw .writeAndReport
    | true, false => pure TaskOutput.write
    | false, true => pure .report
    | false, false => pure .print
  return ⟨input, options.programs, options.address, output, options.config⟩

end Emend
