import Emend.Storage.FileSystem

/-!
# Shell utilities

The utilities that scripts may use. A utility gets its arguments, the bytes of its input, and the
files; it gives what it writes to the two channels, in order, and a status, which is zero if all
went well.
-/

namespace Emend.Shell

/-- What a utility does. -/
structure Effect where
  /-- What is written, each piece with its channel. -/
  written : List (Nat × List UInt8)
  /-- The status. -/
  status : Nat
  /-- Whether the input is used up. -/
  readsInput : Bool

/-- The bytes of a text. -/
def bytesOf (text : String) : List UInt8 :=
  Utf8.encode text.toList

namespace Effect

/-- Only a status. -/
def silent (status : Nat) : Effect :=
  ⟨[], status, false⟩

/-- Output of a utility that does not read its input. -/
def output (bytes : List UInt8) : Effect :=
  ⟨[(1, bytes)], 0, false⟩

/-- A failure with a message. -/
def failure (message : String) (status : Nat) : Effect :=
  ⟨[(2, bytesOf (message ++ "\n"))], status, false⟩

end Effect

/-- A message of the shell itself. -/
def shellMessage (text : String) : String :=
  "sh: 1: " ++ text

/-- A hint for whoever uses a utility in a wrong way. -/
def helpHint (utility : String) : String :=
  "\nTry '" ++ utility ++ " --help' for more information."

/-- A letter of an option as a message shows it. Of a character beyond ASCII only the first byte is
the letter, and no text has that byte alone. -/
def shownLetter (letter : Char) : String :=
  if letter.toNat < 128 then letter.toString else "\uFFFD"

/-- The letter of the long option that an argument writes. Of a name, the beginning is enough that
no other name has. -/
def longOption (utility : String) (options : List (String × Char)) (argument : String) :
    Except String Char :=
  let written := argument.toList.takeWhile (· != '=')
  let matching := options.filter fun (name, _) => written.isPrefixOf name.toList
  let chosen := match matching.find? fun (name, _) => name.toList == written with
    | some option => [option]
    | none => matching
  match chosen with
  | [(name, letter)] =>
    if written.length = argument.length then .ok letter
    else
      .error (utility ++ ": option '" ++ name ++ "' doesn't allow an argument" ++ helpHint utility)
  | [] => .error (utility ++ ": unrecognized option '" ++ argument ++ "'" ++ helpHint utility)
  | several =>
    .error (utility ++ ": option '" ++ argument ++ "' is ambiguous; possibilities:" ++
      "".intercalate (several.map fun (name, _) => " '" ++ name ++ "'") ++ helpHint utility)

/-- Reads up to `most` octal digits: gives their value, and how many there are. -/
def readOctal : (most value : Nat) → List Char → Nat × Nat
  | most + 1, value, c :: rest =>
    if '0' ≤ c && c ≤ '7' then
      let (value, count) := readOctal most (8 * value + (c.toNat - '0'.toNat)) rest
      (value, count + 1)
    else (value, 0)
  | _, value, _ => (value, 0)

/-- The byte that a letter names after a backslash. -/
def escapedByte? : Char → Option UInt8
  | 'a' => some 7
  | 'b' => some 8
  | 'f' => some 12
  | 'n' => some 10
  | 'r' => some 13
  | 't' => some 9
  | 'v' => some 11
  | '\\' => some 92
  | _ => none

/-- The escape that shows a byte, if the byte does not show itself. -/
def escapeOf? (byte : UInt8) : Option String :=
  match "abfnrtv\\".toList.find? (escapedByte? · == some byte) with
  | some letter => some ("\\" ++ letter.toString)
  | none => if 32 ≤ byte && byte < 127 then none else some (octalEscape byte)
where
  /-- A backslash and three octal digits. -/
  octalEscape (byte : UInt8) : String :=
    let digit (value : Nat) : Char := Nat.digitChar (value % 8)
    let code := byte.toNat
    String.ofList ['\\', digit (code / 64), digit (code / 8), digit code]

/-- Bytes with escapes for those that do not show themselves. -/
def shownBytes (bytes : List UInt8) : String :=
  "".intercalate (bytes.map fun byte =>
    (escapeOf? byte).getD (Char.ofNat byte.toNat).toString)

/-- A text as a message quotes it. -/
def quotedText (text : String) : String :=
  let shown := (shownBytes (bytesOf text)).toList.flatMap fun c =>
    if c = '\'' then ['\\', c] else [c]
  "'" ++ String.ofList shown ++ "'"

/-- The byte that a backslash before a text stands for, and how many characters of the text belong
to it. A backslash that means nothing stands for itself. -/
def escape (rest : List Char) : UInt8 × Nat :=
  match rest.head?.bind fun letter => if letter = 'e' then some 27 else escapedByte? letter with
  | some byte => (byte, 1)
  | none =>
    match readOctal 3 0 rest with
    | (_, 0) => (92, 0)
    | (code, count) => (UInt8.ofNat code, count)

/-- A text with its escapes replaced, and whether output ends with it. Of octal digits, there are up
to three after a zero. `skip` characters are already read. -/
def unescape (skip : Nat) : List Char → List UInt8 × Bool
  | [] => ([], false)
  | c :: rest =>
    match skip with
    | skip + 1 => unescape skip rest
    | 0 =>
      if c = '\\' then
        if rest.head? = some 'c' then ([], true)
        else
          let (byte, count) :=
            if rest.head? = some '0' then
              let (code, digits) := readOctal 4 0 rest
              (UInt8.ofNat code, digits)
            else escape rest
          let (bytes, ends) := unescape count rest
          (byte :: bytes, ends)
      else
        let (bytes, ends) := unescape 0 rest
        (Utf8.encode [c] ++ bytes, ends)

/-- Writes its arguments with spaces between them. -/
def echo (arguments : List String) : Effect :=
  let (newline, arguments) := match arguments with
    | "-n" :: rest => (false, rest)
    | all => (true, all)
  let (bytes, ends) := unescape 0 (" ".intercalate arguments).toList
  .output (bytes ++ if newline && !ends then [10] else [])

/-- The largest number that is taken for a status. -/
def largestStatus : Nat := 2147483647

/-- Ends the script with a status: the one given, or the one before. -/
def exit (before : Nat) (arguments : List String) : Effect :=
  match arguments with
  | [] => .silent before
  | argument :: _ =>
    let status := argument.toList.foldl (fun value digit =>
      10 * value + (digit.toNat - '0'.toNat)) 0
    if !argument.isEmpty && argument.all Char.isDigit && status ≤ largestStatus then
      .silent (status % 256)
    else .failure (shellMessage ("exit: Illegal number: " ++ argument)) 2

end Emend.Shell
