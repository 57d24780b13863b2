/-!
# Paths

A path is a text of names separated by slashes. Empty names and single dots in it mean nothing, and
two dots mean the directory above.
-/

namespace Emend.Path

/-- Whether a path begins at the root of all files. -/
def isAbsolute (path : String) : Bool :=
  path.startsWith "/"

/-- The path of a name inside a directory. An absolute name is a path of its own. -/
def join (directory name : String) : String :=
  if isAbsolute name then name
  else if directory.isEmpty || directory.endsWith "/" then directory ++ name
  else directory ++ "/" ++ name

/-- The names and dots of a path: the steps to take one after the other. -/
def steps (path : String) : List String :=
  ((path.toList.splitOn '/').map String.ofList).filter (· != "")

/-- The names of a path that mean something, those of the directories above included. -/
def names (path : String) : List String :=
  (steps path).filter (· != ".")

/-- Whether a path can only be that of a directory, because a slash follows its last name. -/
def endsInSlash (path : String) : Bool :=
  path.endsWith "/"

/-- A reversed path without the slashes and the single dots at its end. -/
def trimEnd : List Char → List Char
  | '/' :: [] => ['/']
  | '/' :: rest => trimEnd rest
  | '.' :: '/' :: rest => trimEnd ('/' :: rest)
  | rest => rest

/-- The last name of a path, unless it means a directory without naming it. -/
def fileName? (path : String) : Option String :=
  let name := String.ofList ((trimEnd path.toList.reverse).takeWhile (· != '/')).reverse
  if name = "" || name = "." || name = ".." then none else some name

/-- The path of the directory that holds the last name. -/
def parent (path : String) : String :=
  String.ofList (trimEnd ((trimEnd path.toList.reverse).dropWhile (· != '/'))).reverse

end Emend.Path
