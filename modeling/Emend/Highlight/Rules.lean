import Emend.Pattern.Regex

/-!
# Rules for highlighting

A language is recognised by the name of a file, and described by regions: strings, comments and
headers, each opened and closed by a delimiter. Every kind of region has a tag, which the
characters of the region receive.
-/

namespace Emend

/-- The tag of text outside all regions. -/
def plainTag : Nat := 1

/-- What a region is. -/
inductive RegionKind where
  /-- A string. -/
  | string
  /-- A comment. -/
  | comment
  /-- The head of a section or a definition. -/
  | header
  deriving DecidableEq, Repr

/-- The tag of a region of this kind. -/
def RegionKind.tag : RegionKind → Nat
  | .string => 2
  | .comment => 3
  | .header => 4

/-- How a kind is written. -/
def RegionKind.name : RegionKind → String
  | .string => "string"
  | .comment => "comment"
  | .header => "header"

/-- The kind with this name. -/
def RegionKind.ofName? : String → Option RegionKind
  | "string" => some .string
  | "comment" => some .comment
  | "header" => some .header
  | _ => none

/-- What opens and what closes a region. The delimiters are texts, or patterns; those of patterns
are tagged as plain text. -/
structure RegionRule where
  /-- The delimiter that opens the region. -/
  opening : String
  /-- The delimiter that closes it. -/
  closing : String
  /-- Whether the delimiters are patterns. -/
  isPattern : Bool
  /-- A character that keeps the next one from closing the region. -/
  escape : Option Char
  /-- What the region is. -/
  kind : RegionKind
  deriving DecidableEq, Repr

namespace RegionRule

/-- A string between two texts. -/
def string (opening closing : String) (escape : Option Char) : RegionRule :=
  ⟨opening, closing, false, escape, .string⟩

/-- A comment between two texts. -/
def comment (opening closing : String) : RegionRule :=
  ⟨opening, closing, false, none, .comment⟩

/-- A region between two patterns. -/
def pattern (opening closing : String) (kind : RegionKind) : RegionRule :=
  ⟨opening, closing, true, none, kind⟩

end RegionRule

/-- The regions of a language, and the pattern that the names of its files match. -/
structure LanguageRules where
  /-- The pattern for names. -/
  namePattern : String
  /-- The regions; at each place the first that opens there wins. -/
  regions : List RegionRule
  deriving DecidableEq, Repr

namespace LanguageRules

/-- Strings and comments as C has them. -/
def likeC (namePattern : String) : LanguageRules where
  namePattern
  regions := [
    .string "\"" "\"" (some '\\'),
    .string "'" "'" (some '\\'),
    .comment "/*" "*/",
    .comment "//" "\n"]

/-- The rules for languages that are known without any configuration. -/
def known : List LanguageRules := [
  { namePattern := "\\.go$"
    regions := [
      .string "\x60" "\x60" none,
      .string "\"" "\"" (some '\\'),
      .string "'" "'" (some '\\'),
      .comment "/*" "*/",
      .comment "//" "\n",
      .pattern "^(func|type)\\s+(\\([^\\)]+\\)\\s+)?" "\\W" .header] },
  likeC "\\.(?:c|h|cpp|java|js|rs)$",
  { namePattern := "\\.(?:py|star)$"
    regions := [
      .string "\"\"\"" "\"\"\"" none,
      .string "\"" "\"" (some '\\'),
      .string "'" "'" (some '\\'),
      .comment "#" "\n"] },
  { namePattern := "\\.lua$"
    regions := [
      .string "\"" "\"" (some '\\'),
      .string "'" "'" (some '\\'),
      .comment "--" "\n"] },
  { namePattern := "\\.(?:diff|patch)$"
    regions := [
      .pattern "^\\+" "\\n" .header,
      .pattern "^-" "\\n" .string] }]

end LanguageRules

end Emend
