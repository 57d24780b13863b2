import Emend.Address.Parser
import Emend.Command.Syntax

/-!
# Reading programs

A program is one command. A command is an address followed by a letter and what that letter takes;
an address without a letter ends at the end of the program or before a closing brace. What a
command itself is made of is read first, and then the commands inside it.
-/

namespace Emend

/-- The pattern of a loop that is written without one: every line. -/
def linesPattern : String :=
  ".*\n|.+"

/-- A command as far as it can be read without the commands inside it. -/
inductive CommandHead where
  /-- A command that holds no other. -/
  | whole (command : Command)
  /-- A command that still wants its body. -/
  | visit (kind : Visit) (range : Address) (delimiter : Option Char) (regex : Regex)
  /-- A block that still wants its commands. -/
  | block (range : Address)

namespace Command

/-- Whether a character is the letter of a command. -/
def isLetter (c : Char) : Bool :=
  "acidsmtp=xygv<>|erw\x7b".contains c

/-- Whether a character can delimit a text. -/
def canDelimit (c : Char) : Bool :=
  !isAlphanumeric c && !isWhiteSpace c && c != '\x7b'

/-- Text without the white space at its ends. -/
def trim (chars : List Char) : List Char :=
  ((chars.dropWhile isWhiteSpace).reverse.dropWhile isWhiteSpace).reverse

/-- Reads the rest of the line. -/
def readTail (chars : List Char) : String × List Char :=
  let chars := chars.dropWhile isInlineBlank
  (String.ofList (trim (chars.takeWhile (· != '\n'))), chars.dropWhile (· != '\n'))

/-- Lifts a reader of a piece to a reader of a program. -/
def reading {α : Type} (result : Except ParseError α) : Except EditError α :=
  result.mapError .parse

/-- Compiles the pattern of a command. -/
def compilePattern (pattern : String) : Except EditError Regex :=
  (Regex.compile pattern true false).mapError .pattern

/-- The character that delimits the texts of the command with this letter. -/
def readDelimiter (letter : Char) : List Char → Except EditError (Char × List Char)
  | [] => .error (.parse (.missingArgument letter))
  | c :: rest =>
    if canDelimit c then .ok (c, rest) else .error (.parse (.badArgument letter c))

/-- Reads a command that puts a text somewhere. -/
def readPlacement (placement : Placement) (range : Address) (chars : List Char) :
    Except EditError (CommandHead × List Char) := do
  let (delimiter, rest) ← readDelimiter placement.letter (chars.dropWhile isBlank)
  let (text, rest) ← reading (readDelimited delimiter true rest)
  return (.whole (.place placement range delimiter text), rest.dropWhile isBlank)

/-- Reads a substitution: its number, pattern and replacement, and any letters `g`. -/
def readSubstitution (range : Address) (chars : List Char) :
    Except EditError (CommandHead × List Char) := do
  let (number, rest) ← reading (readNumber (chars.dropWhile isBlank))
  let (delimiter, rest) ← readDelimiter 's' (rest.dropWhile isBlank)
  let (pattern, rest) ← reading (readDelimited delimiter false rest)
  let (replacement, rest) ← reading (readDelimited delimiter false rest)
  let rest := rest.dropWhile isBlank
  let all := rest.head? == some 'g'
  -- The letter may be repeated; once is as good as twice.
  let rest := (rest.dropWhile (· == 'g')).dropWhile isBlank
  let regex ← compilePattern pattern
  return (.whole (.substitute range (number.getD 0) delimiter regex replacement all), rest)

/-- Reads a move or a copy, whose target is an address on the same line. -/
def readTransfer (moving : Bool) (range : Address) (chars : List Char) :
    Except EditError (CommandHead × List Char) := do
  let (tokens, rest) ← reading (AddressToken.readAll isInlineBlank (chars.dropWhile isBlank))
  let target ← (Address.ofTokens tokens).mapError .pattern
  return (.whole (.transfer moving range target), rest)

/-- Reads the pattern of a visit. A loop over matches may be written without one. -/
def readVisit (kind : Visit) (range : Address) (chars : List Char) :
    Except EditError (CommandHead × List Char) := do
  let chars := chars.dropWhile isBlank
  if kind = .eachMatch && !(chars.head?.any canDelimit) then
    let regex ← compilePattern linesPattern
    return (.visit kind range none regex, chars)
  else
    let (delimiter, rest) ← readDelimiter kind.letter chars
    let (pattern, rest) ← reading (readDelimited delimiter false rest)
    let regex ← compilePattern pattern
    return (.visit kind range (some delimiter) regex, rest.dropWhile isBlank)

/-- Reads a command whose argument is the rest of its line. -/
def readLine (make : String → Command) (chars : List Char) : CommandHead × List Char :=
  let (tail, rest) := readTail chars
  (.whole (make tail), rest)

/-- Reads what the command with this letter is made of. -/
def readArguments (letter : Char) (range : Address) (chars : List Char) :
    Except EditError (CommandHead × List Char) :=
  match letter with
  | 'a' => readPlacement .after range chars
  | 'c' => readPlacement .instead range chars
  | 'i' => readPlacement .before range chars
  | 'd' => .ok (.whole (.delete range), chars.dropWhile isBlank)
  | 'p' => .ok (.whole (.print range), chars.dropWhile isBlank)
  | 's' => readSubstitution range chars
  | 'm' => readTransfer true range chars
  | 't' => readTransfer false range chars
  | 'x' => readVisit .eachMatch range chars
  | 'y' => readVisit .eachGap range chars
  | 'g' => readVisit .ifFound range chars
  | 'v' => readVisit .unlessFound range chars
  | '=' => .ok (readLine (.position range) chars)
  | '<' => .ok (readLine (.pipe .input range) chars)
  | '>' => .ok (readLine (.pipe .output range) chars)
  | '|' => .ok (readLine (.pipe .filter range) chars)
  | 'e' => .ok (readLine (.file .edit range) chars)
  | 'r' => .ok (readLine (.file .read range) chars)
  | 'w' => .ok (readLine (.file .write range) chars)
  | '\x7b' => .ok (.block range, chars)
  | _ => .error (.parse (.unknownCommand letter))

/-- Reads a command as far as it goes without the commands inside it. -/
def readHead (chars : List Char) : Except EditError (CommandHead × List Char) := do
  let (tokens, rest) ← reading (AddressToken.readAll isBlank chars)
  match rest with
  | [] => return (.whole (.goto (← (Address.ofTokens tokens).mapError .pattern)), [])
  | c :: after =>
    if c = '\x7d' then
      return (.whole (.goto (← (Address.ofTokens tokens).mapError .pattern)), rest)
    else if isLetter c then
      let range ← (Address.ofTokens tokens).mapError .pattern
      readArguments c range after
    else throw (.parse (.unknownCommand c))

mutual

/-- Reads a command with those inside it. Of two rounds that follow each other at least one takes a
character, so twice as many rounds as there are characters, and two more, suffice. -/
def readCommand : Nat → List Char → Except EditError (Command × List Char)
  | 0, _ => .error (.parse .unclosedBlock)
  | rounds + 1, chars => do
    let (head, rest) ← readHead chars
    match head with
    | .whole command => return (command, rest)
    | .visit kind range delimiter regex =>
      let (body, rest) ← readCommand rounds rest
      return (.visit kind range delimiter regex body, rest)
    | .block range =>
      let (commands, rest) ← readBlock rounds rest
      return (.block range commands, rest)

/-- Reads the commands of a block up to the brace that closes it. -/
def readBlock : Nat → List Char → Except EditError (List Command × List Char)
  | 0, _ => .error (.parse .unclosedBlock)
  | rounds + 1, chars =>
    match chars.dropWhile isBlank with
    | [] => .error (.parse .unclosedBlock)
    | '\x7d' :: rest => .ok ([], rest)
    | chars => do
      let (command, rest) ← readCommand rounds chars
      let (commands, rest) ← readBlock rounds rest
      return (command :: commands, rest)

end

/-- Reads a whole program. -/
def parse (program : String) : Except EditError Command := do
  let chars := program.toList
  let (command, rest) ← readCommand (2 * chars.length + 2) chars
  match rest.dropWhile isBlank with
  | [] => return command
  | rest => throw (.parse (.trailingText (String.ofList rest) program))

end Command

end Emend
