import Emend.Yaml.Value
import Emend.Yaml.Scalar

/-!
# YAML values as numbers, texts and records

What a scalar stands for depends on what is asked of it: any scalar is a text, but only one without
quotes is a number or a truth value. A record is a mapping with known keys; nothing at all stands
for the empty one.
-/

namespace Emend.Yaml

/-- The largest number that is read. -/
def largestNatural : Nat :=
  UInt64.size - 1

/-- The number that digits of a base write. -/
def digitsIn? (base : Nat) (digits : List Char) : Option Nat :=
  if digits.isEmpty then none
  else
    digits.foldlM (fun value digit => do
      let next ← hexValue? digit
      if next < base then return base * value + next else none) 0

/-- The number that a text writes: in decimal digits without needless zeros, or in digits of another
base after a mark. A plus sign may stand before it. -/
def naturalOf? (chars : List Char) : Option Nat :=
  let number := match (if chars.head? = some '+' then chars.drop 1 else chars) with
    | '0' :: 'x' :: digits => digitsIn? 16 digits
    | '0' :: 'o' :: digits => digitsIn? 8 digits
    | '0' :: 'b' :: digits => digitsIn? 2 digits
    -- A zero before other digits is no decimal number.
    | ['0'] => some 0
    | '0' :: _ => none
    | digits => digitsIn? 10 digits
  number.filter (· ≤ largestNatural)

namespace Value

/-- The number that a value stands for. -/
def natural? : Value → Option Nat
  | .scalar text true => naturalOf? text.toList
  | _ => none

/-- The truth value that a value stands for. -/
def bool? : Value → Option Bool
  | .scalar text true =>
    if ["true", "True", "TRUE"].contains text then some true
    else if ["false", "False", "FALSE"].contains text then some false
    else none
  | _ => none

/-- The text that a value stands for. -/
def text? : Value → Option String
  | .scalar text _ => some text
  | _ => none

/-- The character that a value stands for. -/
def char? : Value → Option Char
  | .scalar text _ =>
    match text.toList with
    | [c] => some c
    | _ => none
  | _ => none

/-- Whether nothing is written. -/
def isEmpty : Value → Bool
  | .scalar text plain => plain && text.isEmpty
  | _ => false

/-- Whether a value stands for the absence of one. -/
def isNull : Value → Bool
  | .scalar text plain => plain && ["", "null", "Null", "NULL", "~"].contains text
  | _ => false

/-- What a value that may be absent stands for. -/
def optional? {α : Type} (read : Value → Option α) (value : Value) : Option (Option α) :=
  if value.isNull then some none else (read value).map some

/-- The values of a sequence. -/
def list? {α : Type} (read : Value → Option α) : Value → Option (List α)
  | .sequence items => items.mapM read
  | value => if value.isEmpty then some [] else none

/-- The values of the fields of a record, by name; those of unknown names do not count, and a known
name occurs at most once. -/
def fields? (names : List String) : Value → Option (List (String × Value))
  | .mapping entries => do
    let named ← entries.mapM fun (key, value) => key.text?.map (·, value)
    let known := named.filter (names.contains ·.1)
    if (known.map (·.1)).Nodup then some known else none
  | value => if value.isEmpty then some [] else none

/-- The value of a field that must be there. -/
def required? {α : Type} (fields : List (String × Value)) (name : String)
    (read : Value → Option α) : Option α :=
  (fields.lookup name).bind read

/-- The value of a field that has another value if it is not there. -/
def optionalOr? {α : Type} (fields : List (String × Value)) (name : String) (other : α)
    (read : Value → Option α) : Option α :=
  match fields.lookup name with
  | none => some other
  | some value => read value

/-- A number. -/
def ofNat (number : Nat) : Value :=
  .scalar (toString number) true

/-- A truth value. -/
def ofBool (value : Bool) : Value :=
  .scalar (if value then "true" else "false") true

/-- A text. -/
def ofText (text : String) : Value :=
  .scalar text false

/-- A record with the values of its fields, by name. -/
def ofFields (fields : List (String × Value)) : Value :=
  .mapping (fields.map fun (name, value) => (ofText name, value))

/-- The absence of a value. -/
def null : Value :=
  .scalar "null" true

end Value

end Emend.Yaml
