import Emend.Shell.Utilities

/-!
# Writing files one after the other

The utility `cat` writes the files that its arguments name. Options let it number lines, reduce runs
of empty lines, and show what cannot be seen.
-/

namespace Emend.Shell

/-- What `cat` is asked to do. -/
structure Concatenation where
  /-- Whether lines are numbered. -/
  numbersLines : Bool := false
  /-- Whether only lines that are not empty are numbered. -/
  numbersText : Bool := false
  /-- Whether runs of empty lines are reduced to one. -/
  squeezes : Bool := false
  /-- Whether a dollar sign shows the end of each line. -/
  showsEnds : Bool := false
  /-- Whether tabs are shown. -/
  showsTabs : Bool := false
  /-- Whether other bytes without a shape are shown. -/
  showsOthers : Bool := false

namespace Concatenation

/-- Follows the option with a letter. -/
def withLetter? (asked : Concatenation) : Char → Option Concatenation
  | 'A' => some { asked with showsOthers := true, showsEnds := true, showsTabs := true }
  | 'b' => some { asked with numbersText := true }
  | 'e' => some { asked with showsOthers := true, showsEnds := true }
  | 'E' => some { asked with showsEnds := true }
  | 'n' => some { asked with numbersLines := true }
  | 's' => some { asked with squeezes := true }
  | 't' => some { asked with showsOthers := true, showsTabs := true }
  | 'T' => some { asked with showsTabs := true }
  | 'u' => some asked
  | 'v' => some { asked with showsOthers := true }
  | _ => none

/-- The options with long names, and their letters. -/
def longOptions : List (String × Char) :=
  [("--number-nonblank", 'b'), ("--number", 'n'), ("--squeeze-blank", 's'),
    ("--show-nonprinting", 'v'), ("--show-ends", 'E'), ("--show-tabs", 'T'), ("--show-all", 'A')]

/-- Follows options with letters; fails with the first letter that is not known. -/
def withLetters (asked : Concatenation) : List Char → Except String Concatenation
  | [] => .ok asked
  | letter :: rest =>
    match asked.withLetter? letter with
    | some asked => asked.withLetters rest
    | none => .error ("cat: invalid option -- '" ++ shownLetter letter ++ "'" ++ helpHint "cat")

/-- Reads arguments: gives what is asked, and the names of the files. Options may stand after names,
but not after two hyphens. -/
def ofArguments (asked : Concatenation) :
    List String → Except String (Concatenation × List String)
  | [] => .ok (asked, [])
  | argument :: rest =>
    if argument = "--" then .ok (asked, rest)
    else if argument.startsWith "--" then do
      let letter ← longOption "cat" longOptions argument
      ((asked.withLetter? letter).getD asked).ofArguments rest
    else if argument.startsWith "-" && argument != "-" then do
      (← asked.withLetters (argument.toList.drop 1)).ofArguments rest
    else do
      let (asked, names) ← asked.ofArguments rest
      return (asked, argument :: names)

/-- How a byte below 128 is shown. -/
def shownLow (byte : UInt8) : List UInt8 :=
  if byte < 32 then [94, byte + 64] else if byte = 127 then [94, 63] else [byte]

/-- How a byte of a line is written. -/
def shown (asked : Concatenation) (byte : UInt8) : List UInt8 :=
  if byte = 9 then if asked.showsTabs then [94, 73] else [9]
  else if !asked.showsOthers then [byte]
  else if byte < 128 then shownLow byte
  else [77, 45] ++ shownLow (byte - 128)

/-- The number of a line with a tab after it. -/
def numberBytes (number : Nat) : List UInt8 :=
  let digits := bytesOf (toString number)
  List.replicate (6 - digits.length) 32 ++ digits ++ [9]

/-- The lines of a text: whether the line is ended, and its bytes. -/
def linesOf : List UInt8 → List (Bool × List UInt8)
  | [] => []
  | byte :: rest =>
    if byte = 10 then (true, []) :: linesOf rest
    else
      match linesOf rest with
      | (isEnded, line) :: others => (isEnded, byte :: line) :: others
      | [] => [(false, [byte])]

/-- Writes lines. `number` lines are numbered so far, and `afterEmpty` tells whether the line before
is empty. -/
def write (asked : Concatenation) (number : Nat) (afterEmpty : Bool) :
    List (Bool × List UInt8) → List UInt8
  | [] => []
  | (isEnded, line) :: rest =>
    let isEmpty := line.isEmpty
    if isEmpty && afterEmpty && asked.squeezes then asked.write number true rest
    else
      let isNumbered := if asked.numbersText then !isEmpty else asked.numbersLines
      let start := if isNumbered then numberBytes (number + 1) else []
      let (line, ending) : List UInt8 × List UInt8 :=
        if !isEnded then (line, [])
        else if !asked.showsEnds then (line, [10])
        else if line.getLast? = some 13 then (line.dropLast, [94, 77, 36, 10])
        else (line, [36, 10])
      start ++ line.flatMap asked.shown ++ ending ++
        asked.write (if isNumbered then number + 1 else number) isEmpty rest

/-- Writes bytes, after which others may come. -/
def writeBegun (asked : Concatenation) (bytes : List UInt8) : List UInt8 :=
  -- How a carriage return is shown depends on what comes after it.
  let isHeld := asked.showsEnds && !asked.showsOthers && bytes.getLast? == some 13
  asked.write 0 false (linesOf (if isHeld then bytes.dropLast else bytes))

/-- Whether nothing is asked but to write the bytes as they are. -/
def isPlain (asked : Concatenation) : Bool :=
  !(asked.numbersLines || asked.numbersText || asked.squeezes || asked.showsEnds ||
    asked.showsTabs || asked.showsOthers)

end Concatenation

/-- Whether a name has to be between quotes because of a byte at a place of it. -/
def needsQuotes (name : List UInt8) (byte : UInt8) (place : Nat) : Bool :=
  let c := Char.ofNat byte.toNat
  byte < 32 || 127 ≤ byte || " !\"$&'()*:;<=>?[\\^\x60|".contains c ||
    (place == 0 && (c == '#' || c == '~')) || (name.length == 1 && (c == '\x7b' || c == '\x7d'))

/-- Whether a byte stands for itself between double quotes. -/
def keepsInDoubleQuotes (byte : UInt8) : Bool :=
  32 ≤ byte && byte < 127 &&
    !"!\"#$&()*;<=>?[\\^\x60\x7b|\x7d~".contains (Char.ofNat byte.toNat)

/-- The bytes of a name between single quotes. A byte that does not show itself is an escape in
quotes with a dollar sign; `escaping` tells whether those are open. -/
def singleQuoted (escaping : Bool) : List UInt8 → String
  | [] => "'"
  | byte :: rest =>
    if byte = 39 then "'\\''" ++ singleQuoted false rest
    else
      match if byte = 92 then none else escapeOf? byte with
      | some shown => (if escaping then "" else "'$'") ++ shown ++ singleQuoted true rest
      | none =>
        (if escaping then "''" else "") ++ (Char.ofNat byte.toNat).toString ++
          singleQuoted false rest

/-- A name as a message shows it: between quotes if the shell would take it apart. -/
def shownName (name : String) : String :=
  let bytes := bytesOf name
  if !bytes.isEmpty && !bytes.zipIdx.any fun (byte, place) => needsQuotes bytes byte place then
    name
  else if bytes.contains 39 && bytes.all keepsInDoubleQuotes then "\"" ++ name ++ "\""
  else "'" ++ singleQuoted false bytes

/-- Writes the files that its arguments name, or its input. -/
def cat (files : FileSystem) (directory : String) (input : List UInt8) (arguments : List String) :
    Effect :=
  match Concatenation.ofArguments {} arguments with
  | .error message => .failure message 1
  | .ok (asked, names) =>
    let names := if names.isEmpty then ["-"] else names
    let piece (name : String) : Nat × List UInt8 :=
      if name = "-" then (1, input)
      else
        match (if name.isEmpty then .error .notFound
          else files.readBytes (Path.join directory name)) with
        | .ok bytes => (1, bytes)
        | .error error =>
          let reason := match error with
            | .notADirectory => "Not a directory"
            | .isADirectory => "Is a directory"
            | .nameTooLong => "File name too long"
            | .tooManyLinks => "Too many levels of symbolic links"
            | _ => "No such file or directory"
          (2, bytesOf ("cat: " ++ shownName name ++ ": " ++ reason ++ "\n"))
    -- The input is there once only.
    let pieces := (names.zipIdx).map fun (name, place) =>
      if name = "-" && (names.take place).contains "-" then (1, []) else piece name
    let bytesUpTo (place : Nat) : List UInt8 :=
      ((pieces.take place).filter (·.1 == 1)).flatMap (·.2)
    let all := asked.write 0 false (Concatenation.linesOf (bytesUpTo pieces.length))
    let shown := pieces.zipIdx.map fun ((channel, bytes), place) =>
      if channel = 1 then
        -- Lines go on from one file to the next.
        let before := asked.writeBegun (bytesUpTo place)
        (1, (asked.writeBegun (bytesUpTo (place + 1))).drop before.length)
      else (channel, bytes)
    let begun := asked.writeBegun (bytesUpTo pieces.length)
    let written :=
      if asked.isPlain then pieces else shown ++ [(1, all.drop begun.length)]
    ⟨written, if pieces.any (·.1 == 2) then 1 else 0, names.contains "-"⟩

end Emend.Shell
