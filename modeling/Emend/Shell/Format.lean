import Emend.Shell.Utilities

/-!
# Formatted output

The utility `printf` writes its arguments in a format: characters that stand for themselves,
escapes, and directives, each of which takes up an argument. The format is used again as long as
arguments are left.
-/

namespace Emend.Shell

/-- A number that a directive may have. -/
inductive FormatNumber where
  /-- It is left out. -/
  | none
  /-- It is written in the format. -/
  | written (number : Nat)
  /-- It is the next argument. -/
  | argument
  deriving DecidableEq, Repr

/-- A directive of a format. -/
structure Directive where
  /-- The signs after the percent sign. -/
  flags : List Char
  /-- How wide the text is at least. -/
  width : FormatNumber
  /-- How long the text is at most, or how many digits there are at least. -/
  precision : FormatNumber
  /-- The letter at the end. -/
  letter : Option Char
  /-- How the directive is written. -/
  spelling : List Char
  deriving DecidableEq, Repr

/-- The number that decimal digits write. -/
def decimal (digits : List Char) : Nat :=
  digits.foldl (fun value digit => 10 * value + (digit.toNat - '0'.toNat)) 0

/-- Reads a number of a directive: gives it, and what follows it. -/
def FormatNumber.read : List Char → FormatNumber × List Char
  | '*' :: rest => (.argument, rest)
  | rest =>
    let digits := rest.takeWhile Char.isDigit
    (if digits.isEmpty then .none else .written (decimal digits), rest.drop digits.length)

/-- The directive that begins after a percent sign. -/
def Directive.read (rest : List Char) : Directive :=
  let isFlag (c : Char) : Bool := "#-+ 0".contains c
  let flags := rest.takeWhile isFlag
  let (width, afterWidth) := FormatNumber.read (rest.drop flags.length)
  let (precision, after) :=
    if afterWidth.head? = some '.' then
      -- A point alone stands for zero.
      match FormatNumber.read (afterWidth.drop 1) with
      | (.none, after) => (.written 0, after)
      | found => found
    else (.none, afterWidth)
  let length := rest.length - after.length
  ⟨flags, width, precision, after.head?, rest.take (length + 1)⟩

/-- What `printf` has written so far. -/
structure Printing where
  /-- The arguments that are left. -/
  arguments : List String
  /-- What is written, each piece with its channel. -/
  written : List (Nat × List UInt8)
  /-- The status. -/
  status : Nat
  /-- Whether nothing more is written. -/
  ended : Bool

namespace Printing

/-- Writes bytes. -/
def put (state : Printing) (bytes : List UInt8) : Printing :=
  { state with written := state.written ++ [(1, bytes)] }

/-- Writes a message, and goes on. -/
def complain (state : Printing) (message : String) : Printing :=
  { state with
    written := state.written ++ [(2, bytesOf (shellMessage ("printf: " ++ message ++ "\n")))]
    status := 1 }

/-- Writes a message, and ends. -/
def fail (state : Printing) (message : String) : Printing :=
  { state.complain message with status := 2, ended := true }

/-- Takes up an argument. -/
def take (state : Printing) : Option String × Printing :=
  (state.arguments.head?, { state with arguments := state.arguments.drop 1 })

end Printing

/-- The number that digits of a base write at the beginning of a text, and what follows them. -/
def readDigits (base : Nat) (chars : List Char) : Nat × List Char :=
  let valueOf (c : Char) : Nat :=
    if c.isDigit then c.toNat - '0'.toNat
    else if 'a' ≤ c && c ≤ 'f' then c.toNat - 'a'.toNat + 10
    else if 'A' ≤ c && c ≤ 'F' then c.toNat - 'A'.toNat + 10
    else base
  let digits := chars.takeWhile (valueOf · < base)
  (digits.foldl (fun value digit => base * value + valueOf digit) 0, chars.drop digits.length)

/-- The number that an argument writes in decimal, octal or hexadecimal digits, and what follows it.
Blanks and a sign may stand before it. -/
def readInteger (argument : List Char) : Int × List Char :=
  let unspaced := argument.dropWhile (" \t\n\x0b\x0c\r".contains ·)
  let (isNegative, unsigned) := match unspaced with
    | '-' :: rest => (true, rest)
    | '+' :: rest => (false, rest)
    | rest => (false, rest)
  let (number, after) := match unsigned with
    | '0' :: x :: digit :: rest =>
      if (x = 'x' || x = 'X') && (readDigits 16 [digit]).2.isEmpty then
        readDigits 16 (digit :: rest)
      else readDigits 8 unsigned
    | '0' :: _ => readDigits 8 unsigned
    | _ => readDigits 10 unsigned
  -- Where there is no digit, nothing is read.
  if after.length = unsigned.length then (0, argument)
  else (if isNegative then -(number : Int) else number, after)

/-- Takes up an argument as a number between two bounds; one below `lowest` counts as `least`. What
is not a number counts as zero, with a message. -/
def Printing.takeInteger (state : Printing) (lowest least greatest : Int) : Int × Printing :=
  match state.take with
  | (none, state) => (0, state)
  | (some argument, state) =>
    let chars := argument.toList
    if chars.head? = some '\'' || chars.head? = some '"' then
      -- After a quote, the number of the byte there is meant.
      (((bytesOf argument)[1]?.getD 0).toNat, state)
    else
      let (number, after) := readInteger chars
      let held := if number < lowest then least else min greatest number
      if !after.isEmpty then
        let reason :=
          if after.length = chars.length then ": expected numeric value"
          else ": not completely converted"
        (held, state.complain (argument ++ reason))
      else if held ≠ number then
        (held, state.complain (argument ++ ": Numerical result out of range"))
      else (held, state)

/-- The least number of 64 bits with a sign. -/
def leastSigned : Int := -9223372036854775808

/-- The greatest number of 64 bits with a sign. -/
def greatestSigned : Int := 9223372036854775807

/-- The greatest number of 64 bits without a sign. -/
def greatestUnsigned : Int := 18446744073709551615

/-- The greatest length that a text may be given. -/
def greatestLength : Nat := 2147483647

/-- Makes a text as wide as asked. -/
def widened (left : Bool) (width : Nat) (bytes : List UInt8) : List UInt8 :=
  let blanks := List.replicate (width - bytes.length) 32
  if left then bytes ++ blanks else blanks ++ bytes

/-- A number in the digits of a base, after a sign or a mark, as a directive asks. -/
def formattedNumber (flags : List Char) (width : Nat) (precision : Option Nat) (start : String)
    (digits : List Char) : List UInt8 :=
  let left := flags.contains '-'
  let shown := if precision = some 0 && digits = ['0'] then [] else digits
  let least := match precision with
    | some least => least
    | none => if flags.contains '0' && !left then width - start.length else 0
  let zeros := List.replicate (least - shown.length) '0'
  widened left width (bytesOf start ++ Utf8.encode (zeros ++ shown))

/-- Writes what a directive asks for. -/
def Printing.follow (state : Printing) (directive : Directive) : Printing :=
  let number (state : Printing) : FormatNumber → Option Int × Printing
    | .none => (none, state)
    | .written number => (some number, state)
    | .argument =>
      -- Only 32 bits of the argument count.
      let (number, state) := state.takeInteger leastSigned leastSigned greatestSigned
      (some (number.bmod 4294967296), state)
  let (asked, state) := number state directive.width
  let (precise, state) := number state directive.precision
  -- A negative width stands for a hyphen, and a negative precision for none.
  let flags := if asked.any (· < 0) then '-' :: directive.flags else directive.flags
  let width := (asked.getD 0).natAbs
  let precision := (precise.filter (0 ≤ ·)).map Int.toNat
  let left := flags.contains '-'
  if greatestLength < width || greatestLength < precision.getD 0 then
    state.fail "xvsnprintf failed"
  else
  let cut (bytes : List UInt8) : List UInt8 :=
    widened left width (match precision with
      | some most => bytes.take most
      | none => bytes)
  match directive.letter with
  | none => state.fail "missing format character"
  | some 's' =>
    let (argument, state) := state.take
    state.put (cut (bytesOf (argument.getD "")))
  | some 'b' =>
    let (argument, state) := state.take
    let (bytes, ends) := unescape 0 (argument.getD "").toList
    { state.put (cut bytes) with ended := ends }
  | some 'c' =>
    let (argument, state) := state.take
    state.put (widened left width [(bytesOf (argument.getD "")).head?.getD 0])
  | some letter =>
    if letter = 'd' || letter = 'i' then
      let (number, state) := state.takeInteger leastSigned leastSigned greatestSigned
      let start :=
        if number < 0 then "-"
        else if flags.contains '+' then "+"
        else if flags.contains ' ' then " "
        else ""
      state.put (formattedNumber flags width precision start (Nat.toDigits 10 number.natAbs))
    else if "ouxX".contains letter then
      -- Negative numbers count from the greatest one down, and those too small count as that one.
      let (number, state) :=
        state.takeInteger (-greatestUnsigned) greatestUnsigned greatestUnsigned
      let code := (number % (greatestUnsigned + 1)).toNat
      let base := if letter = 'o' then 8 else if letter = 'u' then 10 else 16
      let digits := Nat.toDigits base code
      let marked := flags.contains '#' && code ≠ 0
      let start :=
        if marked && letter = 'x' then "0x" else if marked && letter = 'X' then "0X" else ""
      let digits := if marked && letter = 'o' then '0' :: digits else digits
      let digits := if letter = 'X' then digits.map Char.toUpper else digits
      state.put (formattedNumber flags width precision start digits)
    else
      state.fail ("%" ++ String.ofList (directive.spelling.dropLast) ++ shownLetter letter ++
        ": invalid directive")

/-- Writes a format once. `skip` characters of it are already read. -/
def Printing.once (state : Printing) (skip : Nat) : List Char → Printing
  | [] => state
  | c :: rest =>
    match skip with
    | skip + 1 => state.once skip rest
    | 0 =>
      if state.ended then state
      else if c = '\\' then
        let (byte, count) := escape rest
        (state.put [byte]).once count rest
      else if c = '%' then
        if rest.head? = some '%' then (state.put [37]).once 1 rest
        else
          let directive := Directive.read rest
          (state.follow directive).once directive.spelling.length rest
      else (state.put (Utf8.encode [c])).once 0 rest

/-- Writes a format again and again, as long as it takes up arguments that are left. -/
def Printing.all (state : Printing) (format : List Char) : Printing :=
  let after := state.once 0 format
  if after.arguments.length < state.arguments.length && !after.arguments.isEmpty &&
      !after.ended then
    after.all format
  else after
termination_by state.arguments.length
decreasing_by simp_all [after]

/-- Writes its arguments in a format. -/
def printf (arguments : List String) : Effect :=
  let start : Printing := ⟨[], [], 0, false⟩
  let failed (message : String) : Effect := ⟨(start.fail message).written, 2, false⟩
  let formatted (arguments : List String) : Effect :=
    match arguments with
    | [] => failed "usage: printf format [arg ...]"
    | format :: arguments =>
      let state := { start with arguments }.all format.toList
      -- The output is held back until the end.
      let messages := state.written.filter (·.1 == 2)
      ⟨messages ++ state.written.filter (·.1 != 2), state.status, false⟩
  match arguments with
  | "--" :: rest => formatted rest
  | format :: rest =>
    match format.toList with
    | '-' :: letter :: _ => failed ("Illegal option -" ++ shownLetter letter)
    | _ => formatted (format :: rest)
  | [] => formatted []

end Emend.Shell
