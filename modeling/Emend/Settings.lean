import Emend.Highlight.Rules

/-!
# Settings

What can be set for the engine, with the values that hold where nothing is set.
-/

namespace Emend

/-- The settings of the engine. -/
structure Settings where
  /-- Characters typed within this many milliseconds of each other are undone together. -/
  typingInterval : Nat := 2000
  /-- Files with more bytes than this are refused. -/
  maxFileSize : Nat := 10 * 1024 * 1024
  /-- The words of a document are collected on loading if it has fewer characters than this. -/
  wordsLimit : Nat := 1024 * 1024
  /-- The languages that are highlighted. -/
  languages : List LanguageRules := LanguageRules.known
  /-- Whether every command of a program is logged. -/
  traceEdits : Bool := false
  deriving DecidableEq, Repr

end Emend
