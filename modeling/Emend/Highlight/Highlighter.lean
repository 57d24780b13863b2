import Emend.Highlight.Region

/-!
# Highlighters

A highlighter gives a tag to every character of a text. The one for regions scans the text, and
remembers where the scan was at some places, so that a later request need not begin at the
beginning of the text. It is told where the text was altered, and forgets what it remembers from
there on.
-/

namespace Emend

/-- A scan for regions with the states that are remembered. -/
structure RegionHighlighter where
  /-- The regions. -/
  regions : List Region
  /-- States at distances along the text, the furthest first. -/
  syncs : List ScanState
  /-- The state after the token at which the last request began. -/
  resume : ScanState
  deriving DecidableEq, Repr

namespace RegionHighlighter

/-- Two remembered states lie more than this many characters apart. -/
def syncDistance : Nat := 128

/-- A highlighter for these regions. -/
def ofRegions (regions : List Region) : RegionHighlighter :=
  ⟨regions, [.origin], .origin⟩

/-- The highlighter that rules describe. -/
def ofRules (rules : List RegionRule) : Except RegexError RegionHighlighter :=
  (rules.mapM Region.ofRule).map ofRegions

/-- The remembered states before a position. -/
def syncsBefore (highlighter : RegionHighlighter) (position : Nat) : List ScanState :=
  highlighter.syncs.dropWhile (position ≤ ·.position)

/-- Where to begin the scan for a position, and whether the scan then passes the furthest
remembered state, so that further ones may be added. -/
def startFor (highlighter : RegionHighlighter) (position : Nat) : ScanState × Bool :=
  if position = highlighter.resume.position then
    (highlighter.resume, highlighter.syncs.head?.all (· == highlighter.resume))
  else
    match highlighter.syncsBefore position with
    -- States before the furthest one are not followed by new ones.
    | sync :: rest => (sync, rest.length + 1 == highlighter.syncs.length)
    | [] => (.origin, highlighter.syncs.isEmpty)

/-- Remembers a state if it lies far enough from the furthest one. -/
def remember (highlighter : RegionHighlighter) (state : ScanState) : RegionHighlighter :=
  if highlighter.syncs.head?.all (syncDistance < state.position - ·.position) then
    { highlighter with syncs := state :: highlighter.syncs }
  else highlighter

/-- Scans on from a state up to `stop`, and gives the tags of the positions from `start` on. -/
def paint (highlighter : RegionHighlighter) (text : Source) (start stop : Nat) (extending : Bool)
    (state : ScanState) : RegionHighlighter × List Nat :=
  if _ : state.position < stop then
    let token := state.next highlighter.regions text
    let next := token.1
    let resumed :=
      if state.position ≤ start && start < next.position && start ≤ stop then
        { highlighter with resume := next }
      else highlighter
    let tags :=
      List.replicate (min next.position stop - max state.position start) token.2
    if stop < next.position then (resumed, tags)
    else
      let extended := if extending then resumed.remember next else resumed
      let (final, more) := extended.paint text start stop extending next
      (final, tags ++ more)
  else (highlighter, [])
termination_by stop - state.position
decreasing_by
  have := ScanState.lt_next highlighter.regions text state
  omega

/-- The tags of the positions from `start` up to `stop`. -/
def highlight (highlighter : RegionHighlighter) (text : Source) (start stop : Nat) :
    RegionHighlighter × List Nat :=
  let (state, extending) := highlighter.startFor start
  highlighter.paint text start (min stop text.size) extending state

/-- Scans on from a state for the end of the region that begins at `start`. `before` is the tag of
the position before `start`, and `inside` that of `start`, each once it is known. -/
def seekEnd (regions : List Region) (text : Source) (start : Nat) (before inside : Option Nat)
    (state : ScanState) : Option Nat :=
  if _ : state.position < text.size then
    let token := state.next regions text
    let next := token.1
    let tag := token.2
    -- The tag of the region has ended with the token before this one.
    if inside.any (· != tag) then some (state.position - 1)
    else
      let before := if state.position < start && start ≤ next.position then some tag else before
      if state.position ≤ start && start < next.position then
        -- With the same tag on both sides no region begins here.
        if before = some tag then none else seekEnd regions text start before (some tag) next
      else seekEnd regions text start before inside next
  else none
termination_by text.size - state.position
decreasing_by
  all_goals
    have := ScanState.lt_next regions text state
    omega

/-- The last position with the tag of the region that begins at a position, if one begins there and
another tag follows. -/
def regionEnd? (highlighter : RegionHighlighter) (text : Source) (start : Nat) : Option Nat :=
  let state := match start with
    | 0 => ScanState.origin
    | position + 1 => (highlighter.startFor position).1
  seekEnd highlighter.regions text start none none state

/-- Forgets what is remembered from a position on. -/
def alter (highlighter : RegionHighlighter) (position : Nat) : RegionHighlighter where
  regions := highlighter.regions
  syncs :=
    -- The nearest state before the change goes too: its last token may have looked ahead.
    match (highlighter.syncsBefore position).tail with
    | [] => [.origin]
    | syncs => syncs
  resume := if position ≤ highlighter.resume.position then .origin else highlighter.resume

end RegionHighlighter

/-- A way to give tags to the characters of a text. -/
inductive Highlighter where
  /-- Everything is plain. -/
  | plain
  /-- The tags are given, and everything after them is plain. -/
  | fixed (tags : List Nat)
  /-- The tags follow from regions. -/
  | regions (highlighter : RegionHighlighter)
  deriving DecidableEq, Repr

namespace Highlighter

/-- The highlighter for a file with this name: that of the last language whose pattern the name
matches. -/
def forName (languages : List LanguageRules) (name : String) : Except RegexError Highlighter := do
  let chosen ← languages.foldlM (fun chosen language => do
    let regex ← Regex.compile language.namePattern true false
    return if (regex.find (.ofList name.toList) 0).isSome then some language else chosen) none
  match chosen with
  | some (language : LanguageRules) =>
    return .regions (← RegionHighlighter.ofRules language.regions)
  | none => return .plain

/-- The tags of the positions from `start` up to `stop`. -/
def highlight (highlighter : Highlighter) (text : Source) (start stop : Nat) :
    Highlighter × List Nat :=
  match highlighter with
  | .plain => (.plain, List.replicate (stop - start) plainTag)
  | .fixed tags =>
    let known := (tags.drop start).take (stop - start)
    (.fixed tags, known ++ List.replicate (stop - max start tags.length) plainTag)
  | .regions scanner =>
    let (scanner, tags) := scanner.highlight text start stop
    (.regions scanner, tags)

/-- The last position of the region that begins at a position, if one begins there. -/
def regionEnd? (text : Source) (position : Nat) : Highlighter → Option Nat
  | .regions scanner => scanner.regionEnd? text position
  | _ => none

/-- Forgets what was computed from a position on. -/
def alter (position : Nat) : Highlighter → Highlighter
  | .plain => .plain
  | .fixed tags => .fixed (tags.take position)
  | .regions scanner => .regions (scanner.alter position)

end Highlighter

end Emend
