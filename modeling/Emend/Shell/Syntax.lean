/-!
# Shell scripts

A script is a list of pipelines. A pipeline stands alone, or runs only if the one before it
succeeded or failed; the commands in it hand their output on from left to right. A command is a list
of words with redirections, or a script in brackets. Quotes and backslashes keep characters from
ending a word, and a dollar sign begins a part of a word that is replaced when the command runs.
-/

namespace Emend.Shell

/-- A part of a word. A quoted part is never taken apart into several words. -/
inductive WordPart where
  /-- Characters that stand for themselves. -/
  | text (characters : String) (isQuoted : Bool)
  /-- The value of a parameter. -/
  | parameter (name : String) (isQuoted : Bool)
  /-- The output of a script. -/
  | output (script : String) (isQuoted : Bool)
  deriving DecidableEq, Repr

/-- A word. -/
abbrev Word := List WordPart

/-- When a pipeline runs. -/
inductive Joint where
  /-- In any case. -/
  | always
  /-- If the pipeline before it succeeded. -/
  | onSuccess
  /-- If the pipeline before it failed. -/
  | onFailure
  deriving DecidableEq, Repr

/-- What a redirection does with a channel. -/
inductive RedirectionKind where
  /-- It writes to a file, which is emptied. -/
  | write
  /-- It writes to the end of a file. -/
  | append
  /-- It reads from a file. -/
  | read
  /-- It goes where another channel goes. -/
  | duplicate
  deriving DecidableEq, Repr

/-- A redirection of a channel. -/
structure Redirection where
  /-- The channel: zero is the input, one the output, and two the messages. -/
  channel : Nat
  /-- What is done with it. -/
  kind : RedirectionKind
  /-- The file or the other channel. -/
  target : Word
  deriving DecidableEq, Repr

/-- A command with its redirections. -/
inductive Command where
  /-- The name of a utility and its arguments. -/
  | simple (words : List Word) (redirections : List Redirection)
  /-- Pipelines in brackets, each with its joint, and whether its status is negated. What isolated
  ones change has no effect after them. -/
  | block (isIsolated : Bool) (pipelines : List (Joint × Bool × List Command))
      (redirections : List Redirection)

/-- A script: pipelines, each with its joint, and whether its status is negated. -/
abbrev Script := List (Joint × Bool × List Command)

/-- A reason why a text is not a script. -/
inductive SyntaxError where
  /-- A quotation is not closed. -/
  | openQuotation
  /-- A backquote has no other one. -/
  | openBackquote
  /-- A brace after a dollar sign is not closed. -/
  | openBrace
  /-- What is in braces after a dollar sign is no parameter. -/
  | badParameter
  /-- A sign stands where it does not belong, and maybe another one was due. -/
  | unexpected (found : String) (due : Option String)
  deriving DecidableEq, Repr

/-- How the error is reported. -/
def SyntaxError.message : SyntaxError → String
  | .openQuotation => "Syntax error: Unterminated quoted string"
  | .openBackquote => "Syntax error: EOF in backquote substitution"
  | .openBrace => "Syntax error: Missing '\x7d'"
  | .badParameter => "Bad substitution"
  | .unexpected found none => "Syntax error: " ++ found ++ " unexpected"
  | .unexpected found (some due) =>
    "Syntax error: " ++ found ++ " unexpected (expecting " ++ due ++ ")"

/-- How the end of a script is called. -/
def endName : String :=
  "end of file"

/-- A blank between words. -/
def isBlank (c : Char) : Bool :=
  c == ' ' || c == '\t'

/-- A character that ends a word outside quotes. -/
def endsWord (c : Char) : Bool :=
  isBlank c || "\n;&|<>()".contains c

/-- A character that may begin the name of a variable. -/
def beginsName (c : Char) : Bool :=
  c.isAlpha || c == '_'

/-- A character that may be in the name of a variable. -/
def isNameChar (c : Char) : Bool :=
  beginsName c || c.isDigit

/-- What encloses a place of a text. -/
inductive Enclosure where
  /-- Round brackets. -/
  | brackets
  /-- Single quotes. -/
  | single
  /-- Double quotes. -/
  | double
  deriving DecidableEq, Repr

/-- The text up to the bracket that closes it. `within` are the enclosures that are open in the
text, the innermost one first, and `before` is the last character unless it was escaped. -/
def bracketed? (within : List Enclosure) (before : Option Char) :
    List Char → Option (List Char)
  | [] => none
  | c :: rest =>
    let isEscaped := before == some '\\' && within.head? != some .single
    let more (within : List Enclosure) : Option (List Char) :=
      (bracketed? within (if isEscaped then none else some c) rest).map (c :: ·)
    if isEscaped then more within
    else
      match within, c with
      | .single :: outer, '\'' => more outer
      | .single :: _, _ => more within
      | .double :: outer, '"' => more outer
      | .double :: _, '(' => more (if before = some '$' then .brackets :: within else within)
      | .double :: _, _ => more within
      | _, '\'' => more (.single :: within)
      | _, '"' => more (.double :: within)
      | _, '(' => more (.brackets :: within)
      | .brackets :: outer, ')' => more outer
      | [], ')' => some []
      | _, _ => more within

/-- The text up to a backquote, in which a backslash stands before backquotes and backslashes that
belong to the text; and how many characters are read, the backquote included. -/
def backquoted? : List Char → Option (List Char × Nat)
  | [] => none
  | '\x60' :: _ => some ([], 1)
  | '\\' :: c :: rest =>
    (backquoted? rest).map fun (text, count) =>
      (if "\x60\\$".contains c then (c :: text, count + 2) else ('\\' :: c :: text, count + 2))
  | c :: rest => (backquoted? rest).map fun (text, count) => (c :: text, count + 1)

/-- What a dollar sign before a text stands for, and how many characters of the text belong to it. A
dollar sign may also stand for itself. -/
def dollar? (isQuoted : Bool) : List Char → Except SyntaxError (Option (WordPart × Nat))
  | '(' :: rest =>
    match bracketed? [] none rest with
    | some text => .ok (some (.output (String.ofList text) isQuoted, text.length + 2))
    | none => .error (.unexpected endName (some "\")\""))
  | '\x7b' :: rest =>
    let name := rest.takeWhile (· != '\x7d')
    if name.length = rest.length then .error .openBrace
    else if (name.head?.any beginsName && name.all isNameChar) ||
        (name.length = 1 && name.all ("?#@*-$!0123456789".contains ·)) then
      .ok (some (.parameter (String.ofList name) isQuoted, name.length + 2))
    else .error .badParameter
  | c :: rest =>
    if beginsName c then
      let name := c :: rest.takeWhile isNameChar
      .ok (some (.parameter (String.ofList name) isQuoted, name.length))
    else if "?#@*-$!0123456789".contains c then
      .ok (some (.parameter c.toString isQuoted, 1))
    else .ok none
  | [] => .ok none

/-- The parts of a word, and how many characters belong to it. `skip` characters of the text are
already read. -/
def wordParts (inDouble : Bool) (skip : Nat) : List Char → Except SyntaxError (Word × Nat)
  | [] => if inDouble then .error .openQuotation else .ok ([], 0)
  | c :: rest =>
    let more (part : Word) (inDouble : Bool) (skip : Nat) : Except SyntaxError (Word × Nat) :=
      (wordParts inDouble skip rest).map fun (word, count) => (part ++ word, count + 1)
    match skip with
    | skip + 1 => more [] inDouble skip
    | 0 =>
      if c = '"' then more [.text "" true] (!inDouble) 0
      else if c = '\'' && !inDouble then
        let inside := rest.takeWhile (· != '\'')
        if inside.length = rest.length then .error .openQuotation
        else more [.text (String.ofList inside) true] false (inside.length + 1)
      else if c = '\\' then
        match rest with
        | [] => if inDouble then .error .openQuotation else more [.text "\\" true] false 0
        | next :: _ =>
          if next = '\n' then more [] inDouble 1
          else if inDouble && !"$\x60\"\\".contains next then
            more [.text (String.ofList [c, next]) true] true 1
          else more [.text next.toString true] inDouble 1
      else if c = '$' then
        match dollar? inDouble rest with
        | .error error => .error error
        | .ok none => more [.text "$" inDouble] inDouble 0
        | .ok (some (part, count)) => more [part] inDouble count
      else if c = '\x60' then
        match backquoted? rest with
        | none => .error .openBackquote
        | some (text, count) => more [.output (String.ofList text) inDouble] inDouble count
      else if !inDouble && endsWord c then .ok ([], 0)
      else more [.text c.toString inDouble] inDouble 0

/-- A token of a script. -/
inductive Token where
  /-- A word. -/
  | word (word : Word)
  /-- The sign of a redirection. -/
  | redirection (channel : Nat) (kind : RedirectionKind)
  /-- What stands between two pipelines, with its spelling. -/
  | joint (joint : Joint) (spelling : String)
  /-- The bar between two commands. -/
  | bar
  /-- Two semicolons, which stand in no script. -/
  | doubleSemicolon
  /-- The end of a line. -/
  | newline
  /-- An opening round bracket. -/
  | openRound
  /-- A closing round bracket. -/
  | closeRound
  deriving DecidableEq, Repr

namespace Token

/-- A word that is not quoted, and has nothing to be replaced. -/
def plain? : Token → Option String
  | .word parts =>
    parts.foldl (fun spelling part =>
      match spelling, part with
      | some spelling, .text characters false => some (spelling ++ characters)
      | _, _ => none) (some "")
  | _ => none

/-- How a token is called in a message. -/
def name : Token → String
  | .word _ => "word"
  | .redirection _ _ => "redirection"
  | .joint _ spelling => "\"" ++ spelling ++ "\""
  | .bar => "\"|\""
  | .doubleSemicolon => "\";;\""
  | .newline => "newline"
  | .openRound => "\"(\""
  | .closeRound => "\")\""

/-- The sign at the beginning of a text, and its length. Longer signs come before shorter ones. The
usual channel of a redirection is replaced by `channel`. -/
def sign? (channel : Option Nat) : List Char → Option (Token × Nat)
  | '\n' :: _ => some (.newline, 1)
  | ';' :: ';' :: _ => some (.doubleSemicolon, 2)
  | ';' :: _ => some (.joint .always ";", 1)
  | '&' :: '&' :: _ => some (.joint .onSuccess "&&", 2)
  | '&' :: _ => some (.joint .always "&", 1)
  | '|' :: '|' :: _ => some (.joint .onFailure "||", 2)
  | '|' :: _ => some (.bar, 1)
  | '(' :: _ => some (.openRound, 1)
  | ')' :: _ => some (.closeRound, 1)
  | '>' :: '>' :: _ => some (.redirection (channel.getD 1) .append, 2)
  | '>' :: '&' :: _ => some (.redirection (channel.getD 1) .duplicate, 2)
  | '>' :: '|' :: _ => some (.redirection (channel.getD 1) .write, 2)
  | '>' :: _ => some (.redirection (channel.getD 1) .write, 1)
  | '<' :: '&' :: _ => some (.redirection (channel.getD 0) .duplicate, 2)
  | '<' :: _ => some (.redirection (channel.getD 0) .read, 1)
  | _ => none

/-- A digit directly before the sign of a redirection, which names the channel; with the sign and
the length of both. -/
def numbered? : List Char → Option (Token × Nat)
  | digit :: sign :: rest =>
    if digit.isDigit && (sign == '<' || sign == '>') then
      (sign? (some (digit.toNat - '0'.toNat)) (sign :: rest)).map fun (token, count) =>
        (token, count + 1)
    else none
  | _ => none

/-- The tokens of a text, of which `skip` characters are already read. -/
def ofText (skip : Nat) : List Char → Except SyntaxError (List Token)
  | [] => .ok []
  | c :: rest =>
    match skip with
    | skip + 1 => ofText skip rest
    | 0 =>
      if isBlank c then ofText 0 rest
      else if c = '#' then ofText (rest.takeWhile (· != '\n')).length rest
      else if c = '\\' && rest.head? = some '\n' then ofText 1 rest
      else
        match (sign? none (c :: rest)).or (numbered? (c :: rest)) with
        | some (token, count) => (ofText (count - 1) rest).map (token :: ·)
        | none => do
          let (found, count) ← wordParts false 0 (c :: rest)
          return .word found :: (← ofText (count - 1) rest)

end Token

/-- What is read from tokens, and the tokens after it, fewer than there were. -/
abbrev Parsed (α : Type) (tokens : List Token) :=
  Except SyntaxError (α × { rest : List Token // rest.length < tokens.length })

/-- What is read from tokens, and the tokens after it. -/
abbrev ParsedAny (α : Type) (tokens : List Token) :=
  Except SyntaxError (α × { rest : List Token // rest.length ≤ tokens.length })

/-- The error that the tokens begin with one that does not belong there. -/
def unexpected (due : Option String) (tokens : List Token) : SyntaxError :=
  .unexpected ((tokens.head?.map Token.name).getD endName) due

/-- Reads the words and redirections of a command. -/
def simpleParts : (tokens : List Token) → ParsedAny (List Word × List Redirection) tokens
  | .word word :: rest => do
    let ((words, redirections), ⟨rest', h⟩) ← simpleParts rest
    return ((word :: words, redirections), ⟨rest', Nat.le_succ_of_le h⟩)
  | .redirection channel kind :: .word target :: rest => do
    let ((words, redirections), ⟨rest', h⟩) ← simpleParts rest
    return ((words, ⟨channel, kind, target⟩ :: redirections),
      ⟨rest', Nat.le_succ_of_le (Nat.le_succ_of_le h)⟩)
  | .redirection _ _ :: rest => .error (unexpected none rest)
  | tokens => .ok (([], []), ⟨tokens, Nat.le_refl _⟩)

/-- Reads the redirections after a bracket. -/
def redirectionsAfter (tokens : List Token) : ParsedAny (List Redirection) tokens := do
  let ((words, redirections), rest) ← simpleParts tokens
  if words.isEmpty then return (redirections, rest) else throw (unexpected none tokens)

/-- Skips line ends. -/
def skipNewlines : (tokens : List Token) → { rest : List Token // rest.length ≤ tokens.length }
  | .newline :: rest =>
    let ⟨rest', h⟩ := skipNewlines rest
    ⟨rest', Nat.le_succ_of_le h⟩
  | tokens => ⟨tokens, Nat.le_refl _⟩

/-- Whether tokens begin with the end of a script in brackets, or are at their end. -/
def atEnd : List Token → Bool
  | [] => true
  | token :: _ => token == .closeRound || token.plain? == some "\x7d"

/-- A script in curly brackets with redirections. Those of a single script in round brackets inside
are replaced by them. -/
def Command.braced (script : Script) (redirections : List Redirection) : Command :=
  match script with
  | [(_, false, [.block true inner own])] =>
    .block true inner (if redirections.isEmpty then own else redirections)
  | _ => .block false script redirections

mutual

/-- Reads a command. -/
def Command.parse (tokens : List Token) : Parsed Command tokens :=
  match tokens with
  | [] => .error (unexpected none [])
  | .openRound :: rest => do
    let (script, ⟨rest₁, h₁⟩) ← Script.parse rest
    match rest₁, h₁ with
    | .closeRound :: rest₂, h₁ => do
      let (redirections, ⟨rest₃, h₃⟩) ← redirectionsAfter rest₂
      return (.block true script redirections,
        ⟨rest₃, by simp only [List.length_cons] at *; omega⟩)
    | rest₁, _ => .error (unexpected (some "\")\"") rest₁)
  | token :: rest =>
    if token.plain? = some "\x7b" then do
      let (script, ⟨rest₁, h₁⟩) ← Script.parse rest
      match rest₁, h₁ with
      | closing :: rest₂, h₁ =>
        if closing.plain? = some "\x7d" then do
          let (redirections, ⟨rest₃, h₃⟩) ← redirectionsAfter rest₂
          return (Command.braced script redirections,
            ⟨rest₃, by simp only [List.length_cons] at *; omega⟩)
        else .error (unexpected (some "\"\x7d\"") (closing :: rest₂))
      | [], _ => .error (unexpected (some "\"\x7d\"") [])
    else do
      let ((words, redirections), ⟨rest', _⟩) ← simpleParts (token :: rest)
      if h : rest'.length < (token :: rest).length then
        return (.simple words redirections, ⟨rest', h⟩)
      else throw (unexpected none (token :: rest))
termination_by (tokens.length, 0)

/-- Reads commands with bars between them. -/
def commands (tokens : List Token) : Parsed (List Command) tokens := do
  let (command, ⟨rest₁, h₁⟩) ← Command.parse tokens
  match rest₁, h₁ with
  | .bar :: rest₂, h₁ => do
    have h₂ : rest₂.length < tokens.length := Nat.lt_of_succ_lt h₁
    let ⟨rest₃, h₃⟩ := skipNewlines rest₂
    let (others, ⟨rest₄, h₄⟩) ← commands rest₃
    return (command :: others, ⟨rest₄, by omega⟩)
  | rest₁, h₁ => return ([command], ⟨rest₁, h₁⟩)
termination_by (tokens.length, 1)

/-- Reads a pipeline, with whether its status is negated. -/
def pipeline (tokens : List Token) : Parsed (Bool × List Command) tokens :=
  match tokens with
  | [] => .error (unexpected none [])
  | token :: rest =>
    if token.plain? = some "!" then do
      let (found, ⟨rest', h⟩) ← commands rest
      return ((true, found), ⟨rest', Nat.lt_succ_of_lt h⟩)
    else do
      let (found, ⟨rest', h⟩) ← commands (token :: rest)
      return ((false, found), ⟨rest', h⟩)
termination_by (tokens.length, 2)

/-- Reads the pipelines up to a closing bracket or the end. -/
def Script.parse (tokens : List Token) : ParsedAny Script tokens := do
  let ⟨rest₁, h₁⟩ := skipNewlines tokens
  if atEnd rest₁ then return ([], ⟨rest₁, h₁⟩)
  else do
    let (first, ⟨rest₂, h₂⟩) ← pipeline rest₁
    let (others, ⟨rest₃, h₃⟩) ← furtherPipelines rest₂
    return ((.always, first) :: others, ⟨rest₃, by omega⟩)
termination_by (tokens.length, 3)
decreasing_by
  · simp only [Prod.lex_def]
    omega
  · simp only [Prod.lex_def]
    omega

/-- Reads the pipelines after a first one. -/
def furtherPipelines (tokens : List Token) : ParsedAny Script tokens :=
  match tokens with
  | .joint joint _ :: rest => do
    let ⟨rest₁, h₁⟩ := skipNewlines rest
    -- Only a joint that stands for no condition may be the last one.
    if joint = .always && atEnd rest₁ then return ([], ⟨rest₁, Nat.le_succ_of_le h₁⟩)
    else do
      let (next, ⟨rest₂, h₂⟩) ← pipeline rest₁
      let (others, ⟨rest₃, h₃⟩) ← furtherPipelines rest₂
      return ((joint, next) :: others, ⟨rest₃, by simp only [List.length_cons]; omega⟩)
  | .newline :: rest => do
    let (script, ⟨rest', h⟩) ← Script.parse rest
    return (script, ⟨rest', Nat.le_succ_of_le h⟩)
  | tokens => return ([], ⟨tokens, Nat.le_refl _⟩)
termination_by (tokens.length, 0)

end

/-- The script that a text writes. -/
def Script.ofText (text : String) : Except SyntaxError Script := do
  let tokens ← Token.ofText 0 text.toList
  let (script, ⟨rest, _⟩) ← Script.parse tokens
  if rest.isEmpty then return script else throw (unexpected none rest)

end Emend.Shell
