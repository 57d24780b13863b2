import Emend.Text.Selection

/-!
# Reports

A report tells how a document looks when all programs are done. It is written as JSON, one field a
line, indented by two blanks.
-/

namespace Emend

/-- The final state of a document. -/
structure Report where
  /-- The name of the document. -/
  name : String
  /-- The last range. -/
  dot : Selection
  /-- Whether the document differs from its file. -/
  modified : Bool
  /-- How many entries of the history are applied. -/
  undoPosition : Nat
  /-- What went wrong on the way. -/
  warnings : List String
  /-- What the programs printed. -/
  printed : String
  /-- The text. -/
  content : String
  deriving DecidableEq, Repr

/-- The escape of a control character. -/
def controlEscape (code : Nat) : List Char :=
  ['\\', 'u', '0', '0', Nat.digitChar (code / 16), Nat.digitChar (code % 16)]

/-- A character in a JSON text. -/
def jsonChar (c : Char) : List Char :=
  if c = '"' then ['\\', '"']
  else if c = '\\' then ['\\', '\\']
  else if c = '\n' then ['\\', 'n']
  else if c = '\r' then ['\\', 'r']
  else if c = '\t' then ['\\', 't']
  else if c = '\x08' then ['\\', 'b']
  else if c = '\x0c' then ['\\', 'f']
  else if c < ' ' then controlEscape c.toNat
  else [c]

/-- A JSON text. -/
def jsonText (text : String) : String :=
  String.ofList ('"' :: (text.toList.flatMap jsonChar ++ ['"']))

/-- Lines of a JSON collection between its brackets. -/
def jsonLines (opening closing indent : String) (lines : List String) : String :=
  if lines.isEmpty then opening ++ closing
  else
    opening ++ "\n" ++ ",\n".intercalate (lines.map (indent ++ "  " ++ ·)) ++ "\n" ++ indent ++
      closing

namespace Report

/-- A list of values on lines of their own, inside a field. -/
def list (items : List String) : String :=
  jsonLines "[" "]" "  " items

/-- The fields with their values, in order. -/
def fields (report : Report) : List (String × String) := [
  ("name", jsonText report.name),
  ("dot", list [toString report.dot.start, toString report.dot.stop]),
  ("modified", if report.modified then "true" else "false"),
  ("undo_position", toString report.undoPosition),
  ("warnings", list (report.warnings.map jsonText)),
  ("printed", jsonText report.printed),
  ("content", jsonText report.content)]

/-- The report as JSON. -/
def render (report : Report) : String :=
  jsonLines "\x7b" "\x7d" "" (report.fields.map fun (name, value) => jsonText name ++ ": " ++ value)

end Report

end Emend
