import Emend.Storage.FileSystem

/-!
# Words that stand for names of files

A word in which a star, a question mark or square brackets stand outside quotes is a pattern: it
stands for the paths that it matches, in order, and for itself if there are none.
-/

namespace Emend.Shell

/-- A character of a word, and whether it is quoted. -/
abbrev WordChar := Char × Bool

/-- The text of a word. -/
def textOfWord (word : List WordChar) : String :=
  String.ofList (word.map (·.1))

/-- Whether a character has a meaning of its own in patterns. -/
def isPatternSign (c : WordChar) : Bool :=
  !c.2 && (c.1 == '*' || c.1 == '?' || c.1 == '[')

/-- Whether a character is one of those that the inside of square brackets lists: characters, and
ranges with a hyphen. -/
def isListed (c : Char) : List WordChar → Bool
  | (first, _) :: ('-', false) :: (last, _) :: rest =>
    (first ≤ c && c ≤ last) || isListed c rest
  | (single, _) :: rest => single == c || isListed c rest
  | [] => false

/-- The inside of square brackets, which holds at least one character, and how many characters of
the pattern belong to it, the closing bracket included. -/
def bracketInside? (rest : List WordChar) : Option (List WordChar × Nat) :=
  let start := if rest.head?.any fun c => c == ('!', false) || c == ('^', false) then 2 else 1
  let inside := (rest.drop start).takeWhile (· != (']', false))
  if start + inside.length < rest.length then
    some (rest.take (start + inside.length), start + inside.length + 1)
  else none

/-- Whether a pattern matches a name. `skip` characters of the pattern are already read. -/
def matchesName (skip : Nat) : List WordChar → List Char → Bool
  | [], name => name.isEmpty
  | c :: rest, name =>
    match skip with
    | skip + 1 => matchesName skip rest name
    | 0 =>
      if c == ('*', false) then
        (List.range (name.length + 1)).any fun count => matchesName 0 rest (name.drop count)
      else
        match name with
        | [] => false
        | first :: others =>
          if c == ('?', false) then matchesName 0 rest others
          else
            match (if c == ('[', false) then bracketInside? rest else none) with
            | some (inside, count) =>
              let isNegated := inside.head?.any fun c => c == ('!', false) || c == ('^', false)
              let listed := isListed first (if isNegated then inside.drop 1 else inside)
              listed != isNegated && matchesName count rest others
            | none => c.1 == first && matchesName 0 rest others

/-- The names of a pattern of a path: what stands between slashes. -/
def patternNames : List WordChar → List (List WordChar)
  | [] => [[]]
  | c :: rest =>
    if c.1 = '/' then [] :: patternNames rest
    else
      match patternNames rest with
      | name :: others => (c :: name) :: others
      | [] => [[c]]

/-- The paths that the names of a pattern match. `start` is the part of the paths that is already
found. -/
def matchingPaths (files : FileSystem) (directory start : String) :
    List (List WordChar) → List String
  | [] => []
  | name :: rest =>
    let found :=
      if name.any isPatternSign then
        match files.find (Path.join directory (if start.isEmpty then "." else start)) with
        | .ok (place, .directory) =>
          let names := (files.children place).map (·.1)
          let visible := names.filter fun found =>
            (name.head?.any (·.1 == '.') || !found.startsWith ".") &&
              matchesName 0 name found.toList
          (visible.mergeSort fun a b => decide (a ≤ b)).map (start ++ ·)
        | _ => []
      else [start ++ textOfWord name]
    if rest.isEmpty then
      found.filter fun path => (files.find (Path.join directory path)).isOk
    else found.flatMap fun path => matchingPaths files directory (path ++ "/") rest

/-- The texts that a word stands for. -/
def textsOfWord (files : FileSystem) (directory : String) (word : List WordChar) : List String :=
  if word.any isPatternSign then
    match matchingPaths files directory "" (patternNames word) with
    | [] => [textOfWord word]
    | paths => paths
  else [textOfWord word]

end Emend.Shell
