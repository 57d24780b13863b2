import Emend.CommandLine.Run
import Emend.CommandLine.Usage

/-!
# The command line

Reads the files below the working directory and those that the arguments name, does what the
arguments ask for, and writes back the files that have changed.
-/

namespace Emend

/-- Adds a file to those that are known, if it can be read. -/
def readInto (files : FileSystem) (path : String) : IO FileSystem := do
  try
    let bytes ← IO.FS.readBinFile path
    return files.install path (.file bytes.toList false)
  catch _ => return files

/-- Whether a path leads to a directory. -/
def isDirectory (path : String) : IO Bool := do
  try (← IO.FS.realPath path).isDir
  catch _ => return false

/-- Adds a file that is named by its path from the root, and the directory that it is in. -/
def readNamed (files : FileSystem) (path : String) : IO FileSystem := do
  let parent := Path.parent path
  let files := if ← isDirectory parent then files.install parent .directory else files
  readInto files path

/-- Adds what is in a directory, and in those below it, to the files that are known. -/
partial def readTree (files : FileSystem) (entry : IO.FS.DirEntry) (path : String) :
    IO FileSystem := do
  if ← entry.path.isDir then
    let mut files := files.install path .directory
    for inner in ← entry.path.readDir do
      files ← readTree files inner (Path.join path inner.fileName)
    return files
  else readInto files path

/-- The files below the working directory. -/
def readWorkingDirectory : IO FileSystem := do
  let mut files := FileSystem.empty
  for entry in ← (← IO.currentDir).readDir do
    files ← readTree files entry entry.fileName
  return files

/-- The directory with the settings of programs. -/
def configurationDirectory : IO String := do
  match ← IO.getEnv "XDG_CONFIG_HOME" with
  | some directory => return directory
  | none => return Path.join ((← IO.getEnv "HOME").getD ".") ".config"

/-- Does what a task asks for, on real files. -/
def Task.runOnFiles (task : Task) : IO UInt32 := do
  let configuration ← configurationDirectory
  let below ← readWorkingDirectory
  let files ← ((task.paths configuration).filter Path.isAbsolute).foldlM readNamed below
  let input ← match task.input with
    | .standard => (← IO.getStdin).readBinToEnd
    | .file _ _ => pure .empty
  let result := task.run files configuration input.toList
  for (path, bytes) in result.files.changesSince files do
    IO.FS.writeBinFile path ⟨bytes.toArray⟩
  IO.print result.output
  IO.eprint result.errors
  match result.failure with
  | none => return 0
  | some failure =>
    IO.eprintln ("Error: " ++ failure.message)
    return 1

end Emend

/-- Follows a command line. -/
def main (arguments : List String) : IO UInt32 := do
  match Emend.Options.parse arguments with
  | .error .helpWanted =>
    IO.print Emend.usage
    return 0
  | .error .versionWanted =>
    IO.println Emend.version
    return 0
  | .error error =>
    IO.eprintln ("error: " ++ error.message)
    return 2
  | .ok options =>
    match options.task with
    | .error error =>
      IO.eprintln ("Error: " ++ error.message)
      return 1
    | .ok task => task.runOnFiles
