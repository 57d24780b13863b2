import Emend.Proofs.Command.Keeping
import Emend.Proofs.Pattern.Search

/-!
# The patterns of a program

Every pattern in a program that can be read is compiled for searching forward: `patternsMeet_parse`.
The readers are taken one by one with `Yields`, which says of a result that it meets a property if
there is one. So the matches of a program's patterns lie in the range in which they are looked for
(`bounds_of_mem_successive`). A loop that is written without a pattern has the one for lines
(`defaultsMeet_parse`).
-/

namespace Emend

variable {α β : Type}

/-- If there is a result, it meets `Q`. -/
def Yields (Q : α → Prop) (result : Except EditError α) : Prop :=
  ∀ value, result = .ok value → Q value

section Yields

variable {Q : α → Prop} {R : β → Prop} {result : Except EditError α}

/-- A value yields itself. -/
theorem Yields.ok {value : α} (h : Q value) : Yields Q (.ok value) := by
  intro other hok
  cases hok
  exact h

/-- A failure yields nothing. -/
theorem Yields.error {error : EditError} : Yields Q (.error error) := by
  intro value hok
  cases hok

/-- Nothing need be said of a result. -/
theorem Yields.any : Yields (fun _ => True) result :=
  fun _ _ => trivial

/-- What comes after a result depends on it. -/
theorem Yields.bind {next : α → Except EditError β} (h : Yields Q result)
    (hnext : ∀ value, Q value → Yields R (next value)) : Yields R (result >>= next) := by
  cases result with
  | error error => exact .error
  | ok value => exact hnext value (h value rfl)

/-- A step whose result does not matter. -/
theorem Yields.after {next : α → Except EditError β} (hnext : ∀ value, Yields R (next value)) :
    Yields R (result >>= next) :=
  Yields.any.bind fun value _ => hnext value

end Yields

/-- The pattern is compiled for searching forward. -/
def Regex.Searches (regex : Regex) : Prop :=
  ∃ pattern, Regex.compile pattern true false = .ok regex

/-- The text of the pattern is kept, so it can be compiled again. -/
theorem Regex.Searches.compile {regex : Regex} (h : regex.Searches) :
    Regex.compile regex.pattern true false = .ok regex := by
  obtain ⟨pattern, hcompile⟩ := h
  obtain ⟨node, _, rfl⟩ := node_of_compile hcompile
  exact hcompile

namespace Command

mutual

/-- What meets `p` may meet more. -/
theorem PatternsMeet.mono {p q : Regex → Prop} (himp : ∀ regex, p regex → q regex) :
    (command : Command) → command.PatternsMeet p → command.PatternsMeet q
  | .goto _, _ | .place _ _ _ _, _ | .delete _, _ | .transfer _ _ _, _ | .print _, _
  | .position _ _, _ | .pipe _ _ _, _ | .file _ _ _, _ => by
    unfold PatternsMeet
    trivial
  | .substitute _ _ _ regex _ _, h => by
    unfold PatternsMeet at h ⊢
    exact himp regex h
  | .visit _ _ _ regex body, h => by
    unfold PatternsMeet at h ⊢
    exact ⟨himp regex h.1, PatternsMeet.mono himp body h.2⟩
  | .block _ commands, h => by
    unfold PatternsMeet at h ⊢
    exact PatternsOfAllMeet.mono himp commands h

/-- What the patterns of several commands meet may be weakened. -/
theorem PatternsOfAllMeet.mono {p q : Regex → Prop} (himp : ∀ regex, p regex → q regex) :
    (commands : List Command) → PatternsOfAllMeet p commands → PatternsOfAllMeet q commands
  | [], _ => by
    unfold PatternsOfAllMeet
    trivial
  | command :: rest, h => by
    unfold PatternsOfAllMeet at h ⊢
    exact ⟨PatternsMeet.mono himp command h.1, PatternsOfAllMeet.mono himp rest h.2⟩

end

mutual

/-- In every loop of a command that is written without a pattern, the pattern meets `p`. -/
def DefaultsMeet (p : Regex → Prop) : Command → Prop
  | .visit _ _ delimiter regex body => (delimiter = none → p regex) ∧ body.DefaultsMeet p
  | .block _ commands => DefaultsOfAllMeet p commands
  | .goto _ | .place _ _ _ _ | .delete _ | .substitute _ _ _ _ _ _ | .transfer _ _ _ | .print _
  | .position _ _ | .pipe _ _ _ | .file _ _ _ => True

/-- The same for several commands. -/
def DefaultsOfAllMeet (p : Regex → Prop) : List Command → Prop
  | [] => True
  | command :: rest => command.DefaultsMeet p ∧ DefaultsOfAllMeet p rest

end

/-- The pattern for lines, compiled for searching forward. -/
def FindsLines (regex : Regex) : Prop :=
  Regex.compile linesPattern true false = .ok regex

/-- How the patterns of a command are compiled. -/
structure Compiled (command : Command) : Prop where
  /-- Each is compiled for searching forward. -/
  patterns : command.PatternsMeet Regex.Searches
  /-- Those that are not written find lines. -/
  defaults : command.DefaultsMeet FindsLines

/-- How the patterns of several commands are compiled. -/
structure AllCompiled (commands : List Command) : Prop where
  /-- Each is compiled for searching forward. -/
  patterns : PatternsOfAllMeet Regex.Searches commands
  /-- Those that are not written find lines. -/
  defaults : DefaultsOfAllMeet FindsLines commands

/-- How the patterns read so far are compiled. -/
def HeadCompiled : CommandHead → Prop
  | .whole command => command.Compiled
  | .visit _ _ delimiter regex => regex.Searches ∧ (delimiter = none → FindsLines regex)
  | .block _ => True

/-- A pattern that a program gives is compiled as it stands. -/
theorem yields_compilePattern (pattern : String) :
    Yields (Regex.compile pattern true false = .ok ·) (compilePattern pattern) := by
  intro regex hok
  unfold compilePattern at hok
  cases hcompile : Regex.compile pattern true false with
  | error error =>
    rw [hcompile] at hok
    cases hok
  | ok compiled =>
    rw [hcompile] at hok
    cases hok
    rfl

/-- The arguments of an insertion hold no pattern. -/
theorem yields_readPlacement (placement : Placement) (range : Address) (chars : List Char) :
    Yields (HeadCompiled ·.1) (readPlacement placement range chars) := by
  unfold readPlacement
  exact .after fun delimiter => .after fun text => .ok ⟨trivial, trivial⟩

/-- The pattern of a substitution is compiled. -/
theorem yields_readSubstitution (range : Address) (chars : List Char) :
    Yields (HeadCompiled ·.1) (readSubstitution range chars) := by
  unfold readSubstitution
  refine .after fun number => .after fun delimiter => .after fun pattern => .after fun text => ?_
  exact (yields_compilePattern _).bind fun regex hregex => .ok ⟨⟨_, hregex⟩, trivial⟩

/-- The arguments of a transfer hold no pattern. -/
theorem yields_readTransfer (moving : Bool) (range : Address) (chars : List Char) :
    Yields (HeadCompiled ·.1) (readTransfer moving range chars) := by
  unfold readTransfer
  exact .after fun tokens => .after fun target => .ok ⟨trivial, trivial⟩

/-- The pattern of a loop is compiled, or is the default one. -/
theorem yields_readVisit (kind : Visit) (range : Address) (chars : List Char) :
    Yields (HeadCompiled ·.1) (readVisit kind range chars) := by
  unfold readVisit
  dsimp only
  split
  · exact (yields_compilePattern _).bind fun regex hregex => .ok ⟨⟨_, hregex⟩, fun _ => hregex⟩
  · refine .after fun delimiter => .after fun pattern => ?_
    exact (yields_compilePattern _).bind fun regex hregex => .ok ⟨⟨_, hregex⟩, nofun⟩

/-- Whatever pattern the arguments of a letter hold is compiled. -/
theorem yields_readArguments (letter : Char) (range : Address) (chars : List Char) :
    Yields (HeadCompiled ·.1) (readArguments letter range chars) := by
  unfold readArguments
  split
  -- The letters with a reader of their own; what is left are commands without a pattern.
  all_goals first
    | exact yields_readPlacement _ range chars
    | exact yields_readVisit _ range chars
    | exact yields_readTransfer _ range chars
    | exact yields_readSubstitution range chars
    | exact .error
    | exact .ok trivial
    | exact .ok ⟨trivial, trivial⟩

/-- The pattern of a command read without its body is compiled. -/
theorem yields_readHead (chars : List Char) : Yields (HeadCompiled ·.1) (readHead chars) := by
  have hgoto : ∀ (range : Address), HeadCompiled (.whole (.goto range)) :=
    fun range => ⟨trivial, trivial⟩
  unfold readHead
  refine .after fun ⟨tokens, rest⟩ => ?_
  cases rest with
  | nil => exact .after fun range => .ok (hgoto range)
  | cons c after =>
    dsimp only
    split
    · exact .after fun range => .ok (hgoto range)
    · split
      · exact .after fun range => yields_readArguments c range after
      · exact .error

mutual

/-- All patterns of a command that is read are compiled. -/
theorem yields_readCommand : (rounds : Nat) → (chars : List Char) →
    Yields (·.1.Compiled) (readCommand rounds chars)
  | 0, _ => by
    rw [readCommand]
    exact .error
  | rounds + 1, chars => by
    rw [readCommand]
    refine (yields_readHead chars).bind fun ⟨head, rest⟩ hhead => ?_
    cases head with
    | whole command => exact .ok hhead
    | visit kind range delimiter regex =>
      refine (yields_readCommand rounds rest).bind fun ⟨body, rest⟩ hbody => .ok ?_
      exact ⟨⟨hhead.1, hbody.patterns⟩, ⟨hhead.2, hbody.defaults⟩⟩
    | block range =>
      refine (yields_readBlock rounds rest).bind fun ⟨commands, rest⟩ hcommands => .ok ?_
      exact ⟨hcommands.patterns, hcommands.defaults⟩

/-- All patterns of a block that is read are compiled. -/
theorem yields_readBlock : (rounds : Nat) → (chars : List Char) →
    Yields (AllCompiled ·.1) (readBlock rounds chars)
  | 0, _ => by
    rw [readBlock]
    exact .error
  | rounds + 1, chars => by
    rw [readBlock]
    split
    · exact .error
    · exact .ok ⟨trivial, trivial⟩
    · refine (yields_readCommand rounds _).bind fun ⟨command, rest⟩ hcommand => ?_
      refine (yields_readBlock rounds rest).bind fun ⟨commands, rest⟩ hcommands => .ok ?_
      exact ⟨⟨hcommand.patterns, hcommands.patterns⟩, ⟨hcommand.defaults, hcommands.defaults⟩⟩

end

/-- All patterns of a program are compiled. -/
theorem compiled_parse {program : String} {command : Command}
    (h : parse program = .ok command) : command.Compiled := by
  have hyields : Yields Compiled (parse program) := by
    unfold parse
    refine (yields_readCommand _ _).bind fun ⟨command, rest⟩ hcommand => ?_
    dsimp only
    split
    · exact .ok hcommand
    · exact .error
  exact hyields command h

/-- **Every pattern of a program is compiled for searching forward.** -/
theorem patternsMeet_parse {program : String} {command : Command}
    (h : parse program = .ok command) : command.PatternsMeet Regex.Searches :=
  (compiled_parse h).patterns

/-- **A loop that is written without a pattern has the one for lines.** -/
theorem defaultsMeet_parse {program : String} {command : Command}
    (h : parse program = .ok command) : command.DefaultsMeet FindsLines :=
  (compiled_parse h).defaults

/-- The pattern of a substitution is compiled for searching forward. -/
theorem searches_of_parse {program replacement : String} {range : Address} {nth : Nat}
    {delimiter : Char} {regex : Regex} {all : Bool}
    (h : parse program = .ok (.substitute range nth delimiter regex replacement all)) :
    regex.Searches := by
  have hpatterns := patternsMeet_parse h
  unfold PatternsMeet at hpatterns
  exact hpatterns

end Command

/-! ## Where the matches of a program's patterns lie -/

/-- The successive matches of a pattern in a range lie in that range. -/
theorem bounds_of_mem_successive {regex : Regex} (h : regex.Searches) {text : Source}
    {position stop : Nat} (hstop : stop ≤ text.size) {found : Captures}
    (hfound : found ∈ regex.successive text position stop) :
    position ≤ found.start ∧ found.start ≤ found.stop ∧ found.stop ≤ stop := by
  obtain ⟨pattern, hcompile⟩ := h
  -- Every search begins where the one before says, never before its own match.
  fun_induction Regex.successive regex text position stop with
  | case1 => cases hfound
  | case2 position hle first hfirst hresume ih =>
    obtain ⟨_, hstart, hfirstLe, hfirstStop, _⟩ := leftmost_of_matchAt hcompile hle hstop hfirst
    rcases List.mem_cons.1 hfound with rfl | hlater
    · exact ⟨hstart, hfirstLe, hfirstStop⟩
    · obtain ⟨hposition, hbounds⟩ := ih hlater
      exact ⟨Nat.le_trans (Nat.le_of_lt hresume) hposition, hbounds⟩
  | case3 position hle first hfirst hresume =>
    obtain ⟨_, hstart, hfirstLe, hfirstStop, _⟩ := leftmost_of_matchAt hcompile hle hstop hfirst
    rw [List.mem_singleton.1 hfound]
    exact ⟨hstart, hfirstLe, hfirstStop⟩
  | case4 => cases hfound

namespace Run

/-- What takes the place of a match of a program's pattern lies in the text. -/
theorem matchesMeet_isWithin {regex : Regex} (h : regex.Searches) (doc : Document) :
    MatchesMeet (fun other _ => other = doc) (·.range.IsWithin doc.size) regex := by
  rintro _ _ sel rfl hsel found hfound text
  have hwithin : sel.IsWithin _ := hsel.whole []
  obtain ⟨_, hle, hstop⟩ := bounds_of_mem_successive h hwithin.2 hfound
  exact ⟨hle, Nat.le_trans hstop hwithin.2⟩

end Run

end Emend
