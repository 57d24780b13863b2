import Emend.Yaml.Place

/-!
# YAML values

What a YAML text holds: scalars, sequences, and mappings from values to values. A value is written
on one line, with brackets around sequences and braces around mappings.
-/

namespace Emend.Yaml

/-- A YAML value. -/
inductive Value where
  /-- A text. One that is written without quotes may stand for something other than text. -/
  | scalar (text : String) (plain : Bool)
  /-- Values in order. -/
  | sequence (items : List Value)
  /-- Values under keys, in order; a key may occur more than once. -/
  | mapping (entries : List (Value × Value))
  deriving Inhabited

/-- What stands where nothing is written. -/
def Value.empty : Value :=
  .scalar "" true

/-- The last `width` hexadecimal digits of a number. -/
def paddedHex (width number : Nat) : List Char :=
  (List.range width).reverse.map fun place => Nat.digitChar ((number >>> (4 * place)) % 16)

/-- Whether a character is written as itself between double quotes. -/
def needsNoEscape (c : Char) : Bool :=
  isPrintable c && ' ' ≤ c && c != '\u0085' && !isBreakChar c && c != byteOrderMark

/-- A character between double quotes. -/
def escapedChar (c : Char) : List Char :=
  if c = '"' || c = '\\' then ['\\', c]
  else if needsNoEscape c then [c]
  else '\\' :: 'U' :: paddedHex 8 c.toNat

/-- A text between double quotes. -/
def doubleQuoted (text : String) : String :=
  String.ofList ('"' :: (text.toList.flatMap escapedChar ++ ['"']))

namespace Value

mutual

/-- How a value is written. -/
def render : Value → String
  | .scalar text plain => if plain then text else doubleQuoted text
  | .sequence items => "[" ++ ", ".intercalate (renderAll items) ++ "]"
  | .mapping entries => "\x7b" ++ ", ".intercalate (renderEntries entries) ++ "\x7d"

/-- How the items of a sequence are written. -/
def renderAll : List Value → List String
  | [] => []
  | item :: rest => item.render :: renderAll rest

/-- How the entries of a mapping are written. -/
def renderEntries : List (Value × Value) → List String
  | [] => []
  | (key, value) :: rest => (key.render ++ ": " ++ value.render) :: renderEntries rest

end

end Value

end Emend.Yaml
