import Emend.Address.Syntax

/-!
# Commands

A command acts on the range that its address names. Some commands take texts or a pattern between
delimiters, some take the rest of their line, and some take other commands: the body of a loop or a
guard, and the commands of a block.
-/

namespace Emend

/-- Where a command puts its text. -/
inductive Placement where
  /-- After the range, written `a`. -/
  | after
  /-- In place of the range, written `c`. -/
  | instead
  /-- Before the range, written `i`. -/
  | before
  deriving DecidableEq, Repr

/-- When a command runs its body. -/
inductive Visit where
  /-- For each match of the pattern in the range, written `x`. -/
  | eachMatch
  /-- For each stretch between matches, written `y`. -/
  | eachGap
  /-- Once if the pattern occurs in the range, written `g`. -/
  | ifFound
  /-- Once if it does not, written `v`. -/
  | unlessFound
  deriving DecidableEq, Repr

/-- How a command uses the shell. -/
inductive Pipe where
  /-- The output of a job replaces the range, written `<`. -/
  | input
  /-- The range is the input of a job, written `>`. -/
  | output
  /-- Both, written `|`. -/
  | filter
  deriving DecidableEq, Repr

/-- How a command uses a file. -/
inductive FileUse where
  /-- The file replaces the whole text, written `e`. -/
  | edit
  /-- The file replaces the range, written `r`. -/
  | read
  /-- The range is written to the file, written `w`. -/
  | write
  deriving DecidableEq, Repr

/-- A command with the address of the range that it acts on. -/
inductive Command where
  /-- Makes the range the new dot. -/
  | goto (range : Address)
  /-- Puts a text at the range. -/
  | place (placement : Placement) (range : Address) (delimiter : Char) (text : String)
  /-- Removes the range. -/
  | delete (range : Address)
  /-- Replaces the matches of a pattern in the range: the one with the number `nth`, or all of them
  if that is zero or `all` is set. -/
  | substitute (range : Address) (nth : Nat) (delimiter : Char) (regex : Regex)
      (replacement : String) (all : Bool)
  /-- Puts the text of the range behind another range, and removes it where it was if `moving` is
  set. -/
  | transfer (moving : Bool) (range target : Address)
  /-- Prints the range. -/
  | print (range : Address)
  /-- Prints where the range lies, in the form that the argument asks for. -/
  | position (range : Address) (argument : String)
  /-- Runs a body as often as a pattern tells. -/
  | visit (kind : Visit) (range : Address) (delimiter : Option Char) (regex : Regex)
      (body : Command)
  /-- Runs a job of the shell. -/
  | pipe (kind : Pipe) (range : Address) (job : String)
  /-- Reads or writes a file. -/
  | file (use : FileUse) (range : Address) (name : String)
  /-- Runs commands on one range, each as if it were alone. -/
  | block (range : Address) (commands : List Command)
  deriving Repr

/-- The letter of a placement. -/
def Placement.letter : Placement → Char
  | .after => 'a'
  | .instead => 'c'
  | .before => 'i'

/-- The letter of a visit. -/
def Visit.letter : Visit → Char
  | .eachMatch => 'x'
  | .eachGap => 'y'
  | .ifFound => 'g'
  | .unlessFound => 'v'

/-- The letter of a use of the shell. -/
def Pipe.letter : Pipe → Char
  | .input => '<'
  | .output => '>'
  | .filter => '|'

/-- The letter of a use of a file. -/
def FileUse.letter : FileUse → Char
  | .edit => 'e'
  | .read => 'r'
  | .write => 'w'

namespace Command

/-- The letter of a command; a space stands for the command that has none. -/
def letter : Command → Char
  | .goto _ => ' '
  | .place placement _ _ _ => placement.letter
  | .delete _ => 'd'
  | .substitute _ _ _ _ _ _ => 's'
  | .transfer moving _ _ => if moving then 'm' else 't'
  | .print _ => 'p'
  | .position _ _ => '='
  | .visit kind _ _ _ _ => kind.letter
  | .pipe kind _ _ => kind.letter
  | .file use _ _ => use.letter
  | .block _ _ => '\x7b'

/-- The address of the range that a command acts on. -/
def range : Command → Address
  | .goto range | .place _ range _ _ | .delete range | .substitute range _ _ _ _ _
  | .transfer _ range _ | .print range | .position range _ | .visit _ range _ _ _
  | .pipe _ range _ | .file _ range _ | .block range _ => range

/-- Which match a command is limited to, or zero. -/
def number : Command → Nat
  | .substitute _ nth _ _ _ _ => nth
  | _ => 0

/-- The texts written between delimiters. A visit of lines is written without one. -/
def arguments : Command → List String
  | .place _ _ _ text => [text]
  | .substitute _ _ _ regex replacement _ => [regex.pattern, replacement]
  | .visit _ _ (some _) regex _ => [regex.pattern]
  | _ => []

/-- The character that delimits the texts. -/
def delimiter? : Command → Option Char
  | .place _ _ delimiter _ | .substitute _ _ delimiter _ _ _ => some delimiter
  | .visit _ _ delimiter _ _ => delimiter
  | _ => none

/-- Whether every match is replaced whatever the number says. -/
def all : Command → Bool
  | .substitute _ _ _ _ _ all => all
  | _ => false

/-- The address of the range behind which a text is put. -/
def target? : Command → Option Address
  | .transfer _ _ target => some target
  | _ => none

/-- The argument that ends with the line. -/
def tail : Command → String
  | .position _ argument => argument
  | .pipe _ _ job => job
  | .file _ _ name => name
  | _ => ""

/-- The pattern of a command. -/
def regex? : Command → Option Regex
  | .substitute _ _ _ regex _ _ | .visit _ _ _ regex _ => some regex
  | _ => none

/-- The command that a visit runs. -/
def body? : Command → Option Command
  | .visit _ _ _ _ body => some body
  | _ => none

/-- The commands of a block. -/
def children : Command → List Command
  | .block _ commands => commands
  | _ => []

/-- One item of a listing. -/
def item (name text : String) : String :=
  " " ++ name ++ "<" ++ text ++ ">"

/-- What the listing of a command shows before other commands. -/
def renderHead (command : Command) : String :=
  "Range<" ++ command.range.render ++ "> Cmd<" ++ command.letter.toString ++ ">" ++
    (if command.number = 0 then "" else item "Num" (toString command.number)) ++
    String.join (command.arguments.map (item "Arg")) ++
    (if command.all then item "Flags" "1" else "") ++
    (match command.target? with | none => "" | some target => item "Addr" target.render)

mutual

/-- The listing of a command. -/
def render (command : Command) : String :=
  match command with
  | .visit _ _ _ _ body => command.renderHead ++ item "Body" body.render
  | .block _ commands =>
    command.renderHead ++
      (match renderAll commands with
      | [] => ""
      | listings => item "Body" (", ".intercalate listings))
  | _ => command.renderHead ++ (if command.tail.isEmpty then "" else item "Body" command.tail)

/-- The listings of several commands. -/
def renderAll : List Command → List String
  | [] => []
  | command :: rest => command.render :: renderAll rest

end

end Command

end Emend
