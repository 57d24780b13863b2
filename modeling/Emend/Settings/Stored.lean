import Emend.Settings
import Emend.Storage.FileSystem
import Emend.Yaml.Reader
import Emend.Yaml.Typed

/-!
# Settings in a file

Settings are kept in a YAML file. What the file leaves out has its usual value, and a file that is
missing or cannot be understood counts as empty.
-/

namespace Emend

open Yaml (Value)

namespace RegionKind

/-- The kind that a value names. -/
def ofValue? (value : Value) : Option RegionKind :=
  value.text?.bind RegionKind.ofName?

end RegionKind

namespace RegionRule

/-- The names of the fields. -/
def fieldNames : List String :=
  ["start", "end", "regex", "escape", "kind"]

/-- The rule that a value describes. -/
def ofValue? (value : Value) : Option RegionRule := do
  let fields ← value.fields? fieldNames
  let opening ← Value.required? fields "start" Value.text?
  let closing ← Value.required? fields "end" Value.text?
  let isPattern ← Value.optionalOr? fields "regex" false Value.bool?
  let escape ← Value.optionalOr? fields "escape" none (Value.optional? Value.char?)
  let kind ← Value.required? fields "kind" RegionKind.ofValue?
  return { opening, closing, isPattern, escape, kind }

/-- The rule as a value. -/
def toValue (rule : RegionRule) : Value :=
  .ofFields [
    ("start", .ofText rule.opening),
    ("end", .ofText rule.closing),
    ("regex", .ofBool rule.isPattern),
    ("escape", match rule.escape with
      | some c => .ofText c.toString
      | none => .null),
    ("kind", .ofText rule.kind.name)]

end RegionRule

namespace LanguageRules

/-- The names of the fields. -/
def fieldNames : List String :=
  ["name_pattern", "regions"]

/-- The rules that a value describes. -/
def ofValue? (value : Value) : Option LanguageRules := do
  let fields ← value.fields? fieldNames
  let namePattern ← Value.required? fields "name_pattern" Value.text?
  let regions ← Value.required? fields "regions" (Value.list? RegionRule.ofValue?)
  return { namePattern, regions }

/-- The rules as a value. -/
def toValue (rules : LanguageRules) : Value :=
  .ofFields [
    ("name_pattern", .ofText rules.namePattern),
    ("regions", .sequence (rules.regions.map RegionRule.toValue))]

end LanguageRules

namespace Settings

/-- The names of the fields. -/
def fieldNames : List String :=
  ["typing_interval_ms", "max_file_size", "words_limit", "highlight", "trace_edits"]

/-- The settings that a value describes. -/
def ofValue? (value : Value) : Option Settings := do
  let standard : Settings := {}
  let fields ← value.fields? fieldNames
  let typingInterval ←
    Value.optionalOr? fields "typing_interval_ms" standard.typingInterval Value.natural?
  let maxFileSize ← Value.optionalOr? fields "max_file_size" standard.maxFileSize Value.natural?
  let wordsLimit ← Value.optionalOr? fields "words_limit" standard.wordsLimit Value.natural?
  let languages ←
    Value.optionalOr? fields "highlight" standard.languages (Value.list? LanguageRules.ofValue?)
  let traceEdits ← Value.optionalOr? fields "trace_edits" standard.traceEdits Value.bool?
  return { typingInterval, maxFileSize, wordsLimit, languages, traceEdits }

/-- The settings as a value. -/
def toValue (settings : Settings) : Value :=
  .ofFields [
    ("typing_interval_ms", .ofNat settings.typingInterval),
    ("max_file_size", .ofNat settings.maxFileSize),
    ("words_limit", .ofNat settings.wordsLimit),
    ("highlight", .sequence (settings.languages.map LanguageRules.toValue)),
    ("trace_edits", .ofBool settings.traceEdits)]

/-- The settings in a text, or the usual ones if it cannot be understood. -/
def ofText (text : List Char) : Settings :=
  ((Value.read? text).bind ofValue?).getD {}

/-- The settings as a text. -/
def toText (settings : Settings) : List Char :=
  settings.toValue.render.toList ++ ['\n']

/-- The settings in a file. -/
def load (files : FileSystem) (path : String) : Settings :=
  match files.readText path with
  | .ok text => ofText text
  | .error _ => {}

/-- Writes the settings to a file, and makes the directories on the way to it. -/
def save (settings : Settings) (files : FileSystem) (path : String) :
    Except FileError FileSystem :=
  (files.makeParents (FileSystem.origin path ++ Path.names path)).writeText path settings.toText

/-- The path of the file in the directory that holds the configuration of programs. -/
def filePath (configuration : String) : String :=
  Path.join (Path.join configuration "structedit") "config.yaml"

end Settings

end Emend
