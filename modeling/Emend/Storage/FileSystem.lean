import Emend.Storage.Path
import Emend.Text.Encoding

/-!
# Files

A file system is a value: files, directories and links, each at the list of names that leads to it
from the working directory, or from the root of all files. Reading and writing follow the links on
the way; writing gives a new file system. What lies above the working directory is not known, except
that it is there.
-/

namespace Emend

/-- A reason why a file cannot be used. -/
inductive FileError where
  /-- There is no such file. -/
  | notFound
  /-- A name on the way is not that of a directory. -/
  | notADirectory
  /-- The file is a directory. -/
  | isADirectory
  /-- A name on the way is longer than names may be. -/
  | nameTooLong
  /-- Links lead on to links without an end. -/
  | tooManyLinks
  /-- The path contains a null character. -/
  | nullCharacter
  /-- The bytes are not UTF-8. -/
  | notUtf8
  deriving DecidableEq, Repr

/-- How the error is reported. -/
def FileError.message : FileError → String
  | .notFound => "No such file or directory (os error 2)"
  | .notADirectory => "Not a directory (os error 20)"
  | .isADirectory => "Is a directory (os error 21)"
  | .nameTooLong => "File name too long (os error 36)"
  | .tooManyLinks => "Too many levels of symbolic links (os error 40)"
  | .nullCharacter => "file name contained an unexpected NUL byte"
  | .notUtf8 => "stream did not contain valid UTF-8"

/-- What a name leads to. -/
inductive FileNode where
  /-- A file with its bytes. -/
  | file (bytes : List UInt8) (executable : Bool)
  /-- A directory. -/
  | directory
  /-- A link to another path. -/
  | link (target : String)
  deriving DecidableEq, Repr

/-- The place of a file: the names that lead to it from the working directory, or a slash and the
names that lead to it from the root. -/
abbrev FilePlace := List String

/-- The files that are known. -/
structure FileSystem where
  /-- What is at each place. -/
  nodes : List (FilePlace × FileNode)
  deriving Repr

namespace FileSystem

/-- A working directory with nothing in it. -/
def empty : FileSystem :=
  ⟨[]⟩

/-- So many links may be followed on the way to one file. -/
def linkLimit : Nat := 40

/-- A name may have so many bytes. -/
def nameLimit : Nat := 255

/-- A path must have fewer bytes than this. -/
def pathLimit : Nat := 4096

/-- The place of the directory above the working directory. -/
def above : FilePlace :=
  [".."]

/-- The place of the root. -/
def root : FilePlace :=
  ["/"]

/-- The directory of devices. -/
def devices : FilePlace :=
  root ++ ["dev"]

/-- The device that drops what is written to it. -/
def nullDevice : FilePlace :=
  devices ++ ["null"]

/-- What is at a place from the beginning: the directories that are known to exist, and the empty
device. -/
def standing? (place : FilePlace) : Option FileNode :=
  if place = [] || place = above || place = root || place = devices then some .directory
  else if place = nullDevice then some (.file [] false)
  else none

/-- What is at a place, if anything. -/
def node? (files : FileSystem) (place : FilePlace) : Option FileNode :=
  ((files.nodes.find? (·.1 == place)).map (·.2)).or (standing? place)

/-- Puts something at a place, instead of what was there. -/
def put (files : FileSystem) (place : FilePlace) (node : FileNode) : FileSystem :=
  ⟨files.nodes.filter (·.1 != place) ++ [(place, node)]⟩

/-- Removes what is at a place. -/
def erase (files : FileSystem) (place : FilePlace) : FileSystem :=
  ⟨files.nodes.filter (·.1 != place)⟩

/-- The place of the directory that holds a directory. -/
def parentPlace (place : FilePlace) : FilePlace :=
  if place = [] || place = above then above
  else if place = root then root
  else place.dropLast

/-- What is asked of a path. -/
inductive Purpose where
  /-- To read what is there. -/
  | reading
  /-- To write a file, which is created if need be. -/
  | writing
  deriving DecidableEq, Repr

/-- Where steps lead from a directory, following at most `links` links, and whether a slash follows
the last of them. What the last step leads to need not exist. Writing never goes on to a name that a
slash follows, since no directory is made for it. -/
def walk (files : FileSystem) (purpose : Purpose) (links : Nat) (here : FilePlace) (slash : Bool) :
    List String → Except FileError (FilePlace × Bool)
  | [] => .ok (here, slash)
  | name :: rest =>
    if name = "." then files.walk purpose links here slash rest
    else if name = ".." then files.walk purpose links (parentPlace here) slash rest
    else if rest.isEmpty && slash && purpose == .writing then .error .isADirectory
    else if nameLimit < name.utf8ByteSize then .error .nameTooLong
    else
      match files.node? (here ++ [name]) with
      | some .directory => files.walk purpose links (here ++ [name]) slash rest
      -- Only the last step may lead to a file.
      | some (.file _ _) =>
        if rest.isEmpty then .ok (here ++ [name], slash) else .error .notADirectory
      | none => if rest.isEmpty then .ok (here ++ [name], slash) else .error .notFound
      | some (.link target) =>
        match links with
        | 0 => .error .tooManyLinks
        | links + 1 =>
          files.walk purpose links (if Path.isAbsolute target then root else here)
            (slash || (rest.isEmpty && Path.endsInSlash target)) (Path.steps target ++ rest)
termination_by names => (links, names.length)

/-- The place from which a path leads. -/
def origin (path : String) : FilePlace :=
  if Path.isAbsolute path then root else []

/-- Where a path leads, and whether only a directory may be there. -/
def locate (files : FileSystem) (purpose : Purpose) (path : String) :
    Except FileError (FilePlace × Bool) :=
  if path.isEmpty then .error .notFound
  else if path.contains '\x00' then .error .nullCharacter
  else if pathLimit ≤ path.utf8ByteSize then .error .nameTooLong
  else files.walk purpose linkLimit (origin path) (Path.endsInSlash path) (Path.steps path)

/-- What a path leads to, and its place. -/
def find (files : FileSystem) (path : String) : Except FileError (FilePlace × FileNode) := do
  let (place, slash) ← files.locate .reading path
  match files.node? place with
  | none => throw .notFound
  | some (.file bytes executable) =>
    if slash then throw .notADirectory else return (place, .file bytes executable)
  | some node => return (place, node)

/-- What a path leads to. -/
def look (files : FileSystem) (path : String) : Except FileError FileNode :=
  (files.find path).map (·.2)

/-- The bytes of a file. -/
def readBytes (files : FileSystem) (path : String) : Except FileError (List UInt8) := do
  match ← files.look path with
  | .file bytes _ => return bytes
  | _ => throw .isADirectory

/-- The text of a file. -/
def readText (files : FileSystem) (path : String) : Except FileError (List Char) := do
  match Utf8.decode? (← files.readBytes path) with
  | some text => return text
  | none => throw .notUtf8

/-- Writes a file, which is created if need be. -/
def writeBytes (files : FileSystem) (path : String) (bytes : List UInt8) :
    Except FileError FileSystem := do
  let (place, _) ← files.locate .writing path
  match files.node? place with
  | some (.file _ executable) =>
    if place = nullDevice then return files else return files.put place (.file bytes executable)
  | some _ => throw .isADirectory
  | none => return files.put place (.file bytes false)

/-- Writes a text to a file. -/
def writeText (files : FileSystem) (path : String) (text : List Char) :
    Except FileError FileSystem :=
  files.writeBytes path (Utf8.encode text)

/-- Makes the directories on the way to a place that do not exist. -/
def makeParents (files : FileSystem) (place : FilePlace) : FileSystem :=
  (List.range place.length).foldl (fun files count =>
    if (files.node? (place.take count)).isSome then files
    else files.put (place.take count) .directory) files

/-- Puts something at a path, and makes the directories on the way. -/
def install (files : FileSystem) (path : String) (node : FileNode) : FileSystem :=
  let place := origin path ++ Path.names path
  (files.makeParents place).put place node

/-- The names in a directory with what each leads to. -/
def children (files : FileSystem) (directory : FilePlace) : List (String × FileNode) :=
  files.nodes.filterMap fun (place, node) =>
    match place.getLast? with
    | some name => if place.dropLast = directory then some (name, node) else none
    | none => none

/-- The path of a place. -/
def pathOf (place : FilePlace) : String :=
  if place.take 1 = root then "/" ++ "/".intercalate (place.drop 1) else "/".intercalate place

/-- The files that are neither directories nor links, at their places. -/
def contents (files : FileSystem) : List (FilePlace × List UInt8) :=
  files.nodes.filterMap fun (place, node) =>
    match node with
    | .file bytes _ => some (place, bytes)
    | _ => none

/-- The contents below the working directory, with their paths, in the order of the paths. -/
def regularFiles (files : FileSystem) : List (String × List UInt8) :=
  let below := files.contents.filter fun (place, _) => place.take 1 != above && place.take 1 != root
  (below.map fun (place, bytes) => (pathOf place, bytes)).mergeSort fun a b => decide (a.1 ≤ b.1)

/-- The contents that differ from those of an earlier file system, with their paths. -/
def changesSince (files earlier : FileSystem) : List (String × List UInt8) :=
  let known := earlier.contents
  (files.contents.filter (!known.contains ·)).map fun (place, bytes) => (pathOf place, bytes)

end FileSystem

end Emend
