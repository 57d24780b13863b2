import Emend.CommandLine.Options

/-!
# What a command line is answered

The texts that explain the program to someone who calls it: how it is used, which version it is,
and what is wrong with a command line that cannot be followed.
-/

namespace Emend

/-- How the program is used. -/
def usage : String :=
  "Structural regular-expression editor\n\n" ++
  "Usage: structedit [OPTIONS] --expr <PROGRAM> [FILE]\n\n" ++
  "Arguments:\n" ++
  "  [FILE]  File or directory to edit; stdin is read when omitted\n\n" ++
  "Options:\n" ++
  "  -e, --expr <PROGRAM>  Program to run (repeatable, runs in order)\n" ++
  "  -a, --addr <ADDRESS>  Address evaluated to set the initial dot\n" ++
  "  -c, --create          Start from an empty buffer if FILE does not exist\n" ++
  "  -w, --write           Write the result back to FILE instead of printing it\n" ++
  "      --json            Print a JSON report instead of the text\n" ++
  "      --config <PATH>   Alternative config file\n" ++
  "  -h, --help            Print help\n" ++
  "  -V, --version         Print version\n"

/-- The name and the version of the program. -/
def version : String :=
  "structedit 0.1.0"

/-- What is wrong with a command line, in words. -/
def OptionError.message : OptionError → String
  | .noProgram => "the following required arguments were not provided: --expr <PROGRAM>"
  | .unknown argument => "unexpected argument '" ++ argument ++ "' found"
  | .missingValue => "a value is required"
  | .repeated => "an argument cannot be used multiple times"
  | .unneededValue => "unexpected value"
  | .helpWanted => usage
  | .versionWanted => version

end Emend
