import Emend.Storage.FileSystem

/-!
# Opening files as text

A path is opened as the text of its file, or as a listing if it is a directory. Files that are too
large or look binary are refused; of other files, what is not UTF-8 is replaced.
-/

namespace Emend

/-- A reason why a document cannot be opened or written. -/
inductive StorageError where
  /-- The directory of the document is no directory. -/
  | notADirectory (path : String)
  /-- There is no such file or directory. -/
  | notFound (path : String)
  /-- The file has more bytes than allowed. -/
  | tooLarge (size : Nat)
  /-- The file looks binary. -/
  | binary
  /-- The file cannot be used. -/
  | file (error : FileError)
  deriving DecidableEq, Repr

/-- How the error is reported. -/
def StorageError.message : StorageError → String
  | .notADirectory path => "not a directory: " ++ path
  | .notFound path => "file doesn't exist: " ++ path
  | .tooLarge size => s!"refusing to open a file of {size} bytes"
  | .binary => "can not open binary file"
  | .file error => error.message

/-- What a path leads to, as text. -/
inductive Loaded where
  /-- The text of a file. -/
  | text (text : List Char)
  /-- The listing of a directory. -/
  | listing (text : List Char)
  /-- Nothing. -/
  | missing
  deriving DecidableEq, Repr

/-- So many bytes at the beginning of a file decide whether it looks binary. -/
def binaryProbe : Nat := 1024

/-- How many characters a piece adds to the good side, and how many to the bad side: null and
replacement characters are bad, and so is each byte that belongs to no character. -/
def Utf8Piece.weight : Utf8Piece → Nat × Nat
  | .char c => if c = '\x00' || c = replacementChar then (0, 1) else (1, 0)
  | .broken count => (0, count)

/-- Whether bytes look binary: their beginning holds more bad than good. -/
def isBinary (bytes : List UInt8) : Bool :=
  let (good, bad) := (Utf8.pieces (bytes.take binaryProbe)).foldl (fun (good, bad) piece =>
    (good + piece.weight.1, bad + piece.weight.2)) (0, 0)
  good < bad

namespace FileSystem

/-- How a name is listed: directories, links and executable files are marked at the end. -/
def listedName (name : String) : FileNode → String
  | .directory => name ++ "/"
  | .link _ => name ++ "@"
  | .file _ true => name ++ "*"
  | .file _ false => name

/-- The listing of a directory: the names that do not begin with a dot, in order, with tabs between
them. -/
def listing (files : FileSystem) (directory : FilePlace) : String :=
  let names := (files.children directory).filterMap fun (name, node) =>
    if name.startsWith "." then none else some (listedName name node)
  "\t".intercalate (names.mergeSort fun a b => decide (a ≤ b))

/-- Opens a path as text, unless its file has more than `limit` bytes. -/
def load (files : FileSystem) (path : String) (limit : Nat) : Except StorageError Loaded :=
  match files.find path with
  | .error .notFound => .ok .missing
  | .error error => .error (.file error)
  | .ok (_, .file bytes _) =>
    if limit < bytes.length then .error (.tooLarge bytes.length)
    else if isBinary bytes then .error .binary
    else .ok (.text (Utf8.decodeLossy bytes))
  | .ok (place, _) => .ok (.listing (files.listing place).toList)

/-- Checks that a path leads to a directory. -/
def checkDirectory (files : FileSystem) (path : String) : Except StorageError Unit :=
  match files.look path with
  | .ok .directory => .ok ()
  | .ok _ => .error (.notADirectory path)
  | .error _ => .error (.notFound path)

end FileSystem

end Emend
