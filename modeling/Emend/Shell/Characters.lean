import Emend.Shell.Utilities

/-!
# Replacing bytes

The utility `tr` replaces, deletes or squeezes the bytes of its input. Its arguments write lists of
bytes: bytes, ranges, named classes, and repeated bytes.
-/

namespace Emend.Shell

/-- The bytes of the class with a name, in order. -/
def byteClass? (name : String) : Option (List UInt8) :=
  let having (p : Char → Bool) : List UInt8 :=
    ((List.range 128).filter fun code => p (Char.ofNat code)).map UInt8.ofNat
  match name with
  | "alpha" => some (having Char.isAlpha)
  | "digit" => some (having Char.isDigit)
  | "alnum" => some (having Char.isAlphanum)
  | "lower" => some (having Char.isLower)
  | "upper" => some (having Char.isUpper)
  | "space" => some [9, 10, 11, 12, 13, 32]
  | "blank" => some [9, 32]
  | "punct" => some (having fun c => '!' ≤ c && c ≤ '~' && !c.isAlphanum)
  | "print" => some (having fun c => ' ' ≤ c && c ≤ '~')
  | "graph" => some (having fun c => '!' ≤ c && c ≤ '~')
  | "cntrl" => some (having fun c => c < ' ' || c == '\x7f')
  | "xdigit" => some (having fun c => c.isDigit || ('a' ≤ c && c ≤ 'f') || ('A' ≤ c && c ≤ 'F'))
  | _ => none

/-- The bytes from one up to another. -/
def byteRange (first last : UInt8) : List UInt8 :=
  (List.range' first.toNat (last.toNat + 1 - first.toNat)).map UInt8.ofNat

/-- A byte of an argument, and whether it is written with a backslash, which keeps it from having a
meaning of its own. -/
structure ArgumentByte where
  /-- The byte. -/
  byte : UInt8
  /-- Whether it is written with a backslash. -/
  isEscaped : Bool
  /-- What is to be said about how it is written. -/
  warning : Option String := none

/-- Whether a byte is the character `c` with its own meaning. -/
def ArgumentByte.means (item : ArgumentByte) (c : Char) : Bool :=
  !item.isEscaped && item.byte.toNat == c.toNat

/-- The bytes of an argument, of which `skip` characters are already read. -/
def argumentBytes (skip : Nat) : List Char → List ArgumentByte
  | [] => []
  | c :: rest =>
    match skip with
    | skip + 1 => argumentBytes skip rest
    | 0 =>
      if c = '\\' then
        match rest with
        | [] => [⟨92, false, none⟩]
        | next :: _ =>
          match escapedByte? next with
          | some byte => ⟨byte, true, none⟩ :: argumentBytes 1 rest
          | none =>
            match readOctal 3 0 rest with
            | (_, 0) => (Utf8.encode [next]).map (⟨·, true, none⟩) ++ argumentBytes 1 rest
            | (code, count) =>
              -- A third digit that makes the number too large does not belong to it.
              if code < 256 then ⟨UInt8.ofNat code, true, none⟩ :: argumentBytes count rest
              else
                let warning := "tr: warning: the ambiguous octal escape \\" ++
                  String.ofList (rest.take 3) ++ " is being\n\tinterpreted as the 2-byte " ++
                  "sequence \\0" ++ String.ofList (rest.take 2) ++ ", " ++
                  String.ofList ((rest.take 3).drop 2)
                ⟨UInt8.ofNat (code / 8), true, some warning⟩ :: argumentBytes (count - 1) rest
      else (Utf8.encode [c]).map (⟨·, false, none⟩) ++ argumentBytes 0 rest

/-- A member of a list of bytes. -/
inductive ByteItem where
  /-- A byte. -/
  | one (byte : UInt8)
  /-- The bytes from one up to another. -/
  | range (first last : UInt8)
  /-- The bytes of a class. -/
  | named (name : String)
  /-- A byte in brackets with equality signs. -/
  | equal (byte : UInt8)
  /-- A byte many times; without a number, as often as needed. -/
  | repeated (byte : UInt8) (count : Option Nat)
  deriving DecidableEq, Repr

namespace ByteItem

/-- The bytes that an item stands for. -/
def bytes : ByteItem → List UInt8
  | .one byte => [byte]
  | .range first last => byteRange first last
  | .named name => (byteClass? name).getD []
  | .equal byte => [byte]
  | .repeated byte count => List.replicate (count.getD 0) byte

/-- The text of bytes that stand for ASCII characters. -/
def textOf (bytes : List ArgumentByte) : String :=
  String.ofList (bytes.map fun item => Char.ofNat item.byte.toNat)

/-- The bytes of an argument as a message shows them. -/
def shownItems (bytes : List ArgumentByte) : String :=
  shownBytes (bytes.map (·.byte))

/-- A byte at the end of a range as a message shows it. -/
def shownEnd (item : ArgumentByte) : String :=
  if 32 ≤ item.byte && item.byte < 127 then textOf [item]
  else escapeOf?.octalEscape item.byte

/-- The bytes up to the first `mark` before a closing bracket. -/
def enclosed? (mark : Char) : List ArgumentByte → Option (List ArgumentByte)
  | first :: second :: rest =>
    if first.means mark && second.means ']' then some []
    else (enclosed? mark (second :: rest)).map (first :: ·)
  | _ => none

/-- The number of times that digits before a closing bracket ask for, and how many digits there are.
After a zero they are octal, and zero stands for no number. -/
def readCount (digits : List ArgumentByte) : Except String (Option Nat) :=
  let chars := (textOf digits).toList
  let base := if chars.head? = some '0' then 8 else 10
  if chars.all fun c => c.isDigit && c.toNat - '0'.toNat < base then
    match chars.foldl (fun value digit => base * value + (digit.toNat - '0'.toNat)) 0 with
    | 0 => .ok none
    | count => .ok (some count)
  else .error ("tr: invalid repeat count " ++ quotedText (shownItems digits) ++
    " in [c*n] construct")

/-- The repeated byte that bytes after an opening bracket write, and how many bytes belong to it. -/
def repeated? : List ArgumentByte → Option (Except String (ByteItem × Nat))
  | byte :: star :: rest =>
    let digits := rest.takeWhile (!·.means ']')
    if star.means '*' && digits.length < rest.length then
      some ((readCount digits).map fun count => (.repeated byte.byte count, digits.length + 3))
    else none
  | _ => none

/-- Whether bytes begin with a star, and only digits stand between it and a closing bracket. -/
def beginsCount (bytes : List ArgumentByte) : Bool :=
  match bytes with
  | star :: rest =>
    let digits := rest.takeWhile fun item => (Char.ofNat item.byte.toNat).isDigit
    star.means '*' && (rest.drop digits.length).head?.any (·.means ']')
  | [] => false

/-- The item in brackets that bytes after an opening bracket write, and how many bytes belong to
it. -/
def bracketed? (bytes : List ArgumentByte) : Except String (Option (ByteItem × Nat)) :=
  let mark? := match bytes with
    | mark :: _ => if mark.means ':' then some ':' else if mark.means '=' then some '=' else none
    | [] => none
  let inside := mark?.bind fun mark => (enclosed? mark (bytes.drop 1)).map (mark, ·)
  let counted : Except String (Option (ByteItem × Nat)) :=
    match repeated? bytes with
    | none => .ok none
    | some found => found.map some
  match inside with
  | none => counted
  | some (':', name) =>
    if name.isEmpty then .error "tr: missing character class name '[::]'"
    else if (byteClass? (textOf name)).isSome then
      .ok (some (.named (textOf name), name.length + 3))
    else if beginsCount (bytes.drop 1) then counted
    else .error ("tr: invalid character class " ++ quotedText (shownItems name))
  | some (_, [byte]) => .ok (some (.equal byte.byte, 4))
  | some (_, bytes') =>
    if bytes'.isEmpty then .error "tr: missing equivalence class character '[==]'"
    else if beginsCount (bytes.drop 1) then counted
    else
      .error ("tr: " ++ shownItems bytes' ++
        ": equivalence class operand must be a single character")

/-- The items that bytes write, of which `skip` are already read. -/
def ofBytes (skip : Nat) : List ArgumentByte → Except String (List ByteItem)
  | [] => .ok []
  | item :: rest =>
    match skip with
    | skip + 1 => ofBytes skip rest
    | 0 => do
      let found ← if item.means '[' && 2 ≤ rest.length then bracketed? rest else .ok none
      match found with
      | some (found, count) => return found :: (← ofBytes count rest)
      | none =>
        match rest with
        | hyphen :: last :: _ =>
          if hyphen.means '-' then
            if last.byte < item.byte then
              throw ("tr: range-endpoints of '" ++ shownEnd item ++ "-" ++ shownEnd last ++
                "' are in reverse collating sequence order")
            else return .range item.byte last.byte :: (← ofBytes 2 rest)
          else return .one item.byte :: (← ofBytes 0 rest)
        | _ => return .one item.byte :: (← ofBytes 0 rest)

/-- Whether an item is the class of lowercase or that of uppercase letters. -/
def isCase (item : ByteItem) : Bool :=
  item == .named "lower" || item == .named "upper"

/-- Whether an item is a byte as often as needed. -/
def isUnlimited : ByteItem → Bool
  | .repeated _ none => true
  | _ => false

/-- Whether an item is a class. -/
def isNamed : ByteItem → Bool
  | .named _ => true
  | _ => false

/-- Whether an item is a byte with equality signs. -/
def isEqual : ByteItem → Bool
  | .equal _ => true
  | _ => false

end ByteItem

/-- Items in which a byte as often as needed fills the list up to a length. -/
def filledUpTo (length : Nat) (items : List ByteItem) : List ByteItem :=
  let others := items.flatMap ByteItem.bytes
  items.map fun item =>
    match item with
    | .repeated byte none => .repeated byte (some (length - others.length))
    | item => item

/-- Bytes with each run of the same byte of a set reduced to one. -/
def squeeze (set : List UInt8) : List UInt8 → List UInt8
  | first :: second :: rest =>
    if first = second && set.contains first then squeeze set (second :: rest)
    else first :: squeeze set (second :: rest)
  | bytes => bytes

/-- What `tr` is asked to do. -/
structure Replacing where
  /-- Whether the first list stands for all other bytes. -/
  complements : Bool := false
  /-- Whether the bytes of the first list are deleted. -/
  deletes : Bool := false
  /-- Whether runs are reduced. -/
  squeezes : Bool := false
  /-- Whether the first list is cut to the length of the second one. -/
  truncates : Bool := false
  /-- The arguments that write lists. -/
  lists : List String := []

namespace Replacing

/-- Follows the option with a letter. -/
def withLetter? (asked : Replacing) : Char → Option Replacing
  | 'A' => some asked
  | 'c' => some { asked with complements := true }
  | 'C' => some { asked with complements := true }
  | 'd' => some { asked with deletes := true }
  | 's' => some { asked with squeezes := true }
  | 't' => some { asked with truncates := true }
  | _ => none

/-- The options with long names, and their letters. -/
def longOptions : List (String × Char) :=
  [("--complement", 'c'), ("--delete", 'd'), ("--squeeze-repeats", 's'), ("--truncate-set1", 't')]

/-- Follows options with letters; fails with the first letter that is not known. -/
def withLetters (asked : Replacing) : List Char → Except String Replacing
  | [] => .ok asked
  | letter :: rest =>
    match asked.withLetter? letter with
    | some asked => asked.withLetters rest
    | none => .error ("tr: invalid option -- '" ++ shownLetter letter ++ "'" ++ helpHint "tr")

/-- Reads arguments. Options stand before the lists. -/
def ofArguments (asked : Replacing) : List String → Except String Replacing
  | [] => .ok asked
  | argument :: rest =>
    if argument = "--" then .ok { asked with lists := rest }
    else if argument.startsWith "--" then do
      let letter ← longOption "tr" longOptions argument
      ((asked.withLetter? letter).getD asked).ofArguments rest
    else if argument.startsWith "-" && argument != "-" then do
      (← asked.withLetters (argument.toList.drop 1)).ofArguments rest
    else .ok { asked with lists := argument :: rest }

/-- How many lists there are at least and at most. -/
def listCounts (asked : Replacing) : Nat × Nat :=
  match asked.deletes, asked.squeezes with
  | false, false => (2, 2)
  | true, false => (1, 1)
  | false, true => (1, 2)
  | true, true => (2, 2)

/-- Checks how many lists there are. -/
def checkLists (asked : Replacing) : Except String Unit :=
  let (least, most) := asked.listCounts
  match asked.lists.drop most with
  | extra :: _ =>
    let reason :=
      if asked.lists.length = 2 then
        "\nOnly one string may be given when deleting without squeezing repeats."
      else ""
    .error ("tr: extra operand " ++ quotedText extra ++ reason ++ helpHint "tr")
  | [] =>
    if least ≤ asked.lists.length then .ok ()
    else
      match asked.lists.getLast? with
      | none => .error ("tr: missing operand" ++ helpHint "tr")
      | some last =>
        let reason :=
          if asked.squeezes then
            "Two strings must be given when both deleting and squeezing repeats."
          else "Two strings must be given when translating."
        .error ("tr: missing operand after " ++ quotedText last ++ "\n" ++ reason ++ helpHint "tr")

/-- The bytes of the first list. -/
def source (asked : Replacing) (items : List ByteItem) : List UInt8 :=
  let bytes := items.flatMap ByteItem.bytes
  if asked.complements then ((List.range 256).map UInt8.ofNat).filter (!bytes.contains ·)
  else bytes

/-- For each byte of the first list, the class of letters that begins with it. -/
def caseStarts (items : List ByteItem) : List (Option ByteItem) :=
  items.flatMap fun item =>
    match item.bytes with
    | [] => []
    | _ :: rest => (if item.isCase then some item else none) :: List.replicate rest.length none

/-- Whether each class of letters in the second list stands where the first list has one. -/
def casesMatch (starts : List (Option ByteItem)) : List ByteItem → Bool
  | [] => true
  | second :: seconds =>
    (!second.isCase || (starts.head?.getD none).isSome) &&
      -- What stands beyond the end of the first list does not matter.
      (starts.length < second.bytes.length ||
        casesMatch (starts.drop second.bytes.length) seconds)

/-- Checks whether lists may be used for replacing. -/
def checkReplacing (asked : Replacing) (firsts seconds : List ByteItem) : Except String Unit := do
  let source := asked.source firsts
  let filled := filledUpTo source.length seconds
  let target := filled.flatMap ByteItem.bytes
  if seconds.any ByteItem.isEqual then
    throw "tr: [=c=] expressions may not appear in string2 when translating"
  if seconds.any fun item => item.isNamed && !item.isCase then
    throw ("tr: when translating, the only character classes that may appear in\n" ++
      "string2 are 'upper' and 'lower'")
  if !asked.complements && !casesMatch (caseStarts firsts) (filled.filter (!·.bytes.isEmpty)) then
    throw "tr: misaligned [:upper:] and/or [:lower:] construct"
  -- An empty list has no byte to put in the place of another.
  if target.isEmpty && !source.isEmpty && !asked.truncates then
    throw "tr: when not truncating set1, string2 must be non-empty"
  if target.length < source.length && !asked.truncates &&
      (seconds.getLast?.any ByteItem.isNamed) then
    throw ("tr: when translating with string1 longer than string2,\nthe latter string must not " ++
      "end with a character class")
  if asked.complements && firsts.any ByteItem.isNamed &&
      !(target.eraseDups.length ≤ 1 && (target.length = source.length || !asked.truncates)) then
    throw ("tr: when translating with complemented character classes,\n" ++
      "string2 must map all characters in the domain to one")

/-- Checks whether bytes as often as needed stand where they may. -/
def checkUnlimited (asked : Replacing) (firsts : List ByteItem)
    (seconds : Option (List ByteItem)) : Except String Unit := do
  if firsts.any ByteItem.isUnlimited then
    throw "tr: the [c*] repeat construct may not appear in string1"
  let unlimited := ((seconds.getD []).filter ByteItem.isUnlimited).length
  if 1 < unlimited then throw "tr: only one [c*] repeat construct may appear in string2"
  if unlimited = 1 && asked.deletes then
    throw "tr: the [c*] construct may appear in string2 only when translating"

/-- What replaces a byte: the byte at the last place where the first list has it, or the last byte
of the second list if that is shorter. -/
def replacement (asked : Replacing) (source target : List UInt8) (byte : UInt8) : UInt8 :=
  let filled := target ++ List.replicate (source.length - target.length) (target.getLast?.getD 0)
  let pairs := source.zip (if asked.truncates then target else filled)
  (pairs.reverse.lookup byte).getD byte

end Replacing

/-- Replaces, deletes or squeezes bytes. -/
def tr (input : List UInt8) (arguments : List String) : Effect :=
  match Replacing.ofArguments {} arguments with
  | .error message => .failure message 1
  | .ok asked =>
    match asked.checkLists with
    | .error message => .failure message 1
    | .ok () =>
      let lists := asked.lists.map (argumentBytes 0 ·.toList)
      let first := ByteItem.ofBytes 0 (lists.headD [])
      -- The second list is looked at only after the first one.
      let read := if first.toBool then lists else lists.take 1
      let warnings := (read.flatMap fun bytes => bytes.filterMap (·.warning)).map fun warning =>
        (2, bytesOf (warning ++ "\n"))
      let done : Except String (List UInt8) := do
        let firsts ← first
        let seconds ← lists[1]?.mapM (ByteItem.ofBytes 0)
        asked.checkUnlimited firsts seconds
        let source := asked.source firsts
        let target := (filledUpTo source.length (seconds.getD [])).flatMap ByteItem.bytes
        if asked.deletes then
          let kept := input.filter (!source.contains ·)
          return if asked.squeezes then squeeze target kept else kept
        else
          match seconds with
          | none => return squeeze source input
          | some seconds => do
            asked.checkReplacing firsts seconds
            let replaced := input.map (asked.replacement source target)
            return if asked.squeezes then squeeze target replaced else replaced
      match done with
      | .ok bytes => ⟨warnings ++ [(1, bytes)], 0, true⟩
      | .error message => ⟨warnings ++ [(2, bytesOf (message ++ "\n"))], 1, false⟩

end Emend.Shell
