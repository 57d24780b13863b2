import Emend.Yaml.Scalar

/-!
# The tokens of a YAML text

A text is cut into scalars, the marks between them, and the brackets around collections. Collections
in brackets and braces, the flow collections, have brackets of their own. Around the others, the
block collections, the columns of their first key or dash give them brackets: the collection is open
as long as no token stands to the left of that column.

Whether something is a key is known at the colon after it only. So where a key may begin, a
candidate is kept, with the place in the tokens at which the mark of a key would have to be. A
candidate is given up when the line ends, or after 1024 bytes.
-/

namespace Emend.Yaml

/-- A token of a YAML text. -/
inductive Token where
  /-- A scalar. -/
  | scalar (text : String) (plain : Bool)
  /-- The mark before a key. -/
  | key
  /-- The mark between a key and its value. -/
  | value
  /-- The dash before an item of a block sequence. -/
  | dash
  /-- A comma in a flow collection. -/
  | comma
  /-- The beginning of a flow sequence. -/
  | openSequence
  /-- The end of a flow sequence. -/
  | closeSequence
  /-- The beginning of a flow mapping. -/
  | openMapping
  /-- The end of a flow mapping. -/
  | closeMapping
  /-- The beginning of a block sequence. -/
  | openBlockSequence
  /-- The beginning of a block mapping. -/
  | openBlockMapping
  /-- The end of a block collection. -/
  | closeBlock
  /-- The mark before a document. -/
  | documentStart
  /-- The mark after a document. -/
  | documentEnd
  deriving DecidableEq, Repr

/-- Something that is a key if a colon follows it. -/
structure KeyCandidate where
  /-- Where it begins. -/
  place : Place
  /-- Whether nothing but a key may stand there: it is in the column of the collection around it. -/
  required : Bool
  /-- How many tokens stand before it. -/
  index : Nat
  deriving Repr

/-- A key has so many bytes at most, up to its colon. -/
def keyLimit : Nat := 1024

/-- Whether a key that begins with the candidate may still have its colon at a place. -/
def KeyCandidate.reaches (candidate : KeyCandidate) (place : Place) : Bool :=
  candidate.place.line == place.line && place.offset ≤ candidate.place.offset + keyLimit

/-- What remains of a candidate when the text has gone on to a place. It fails if the candidate has
to be a key and cannot be one anymore. -/
def keepCandidate (place : Place) : Option KeyCandidate → Option (Option KeyCandidate)
  | none => some none
  | some candidate =>
    if candidate.reaches place then some (some candidate)
    else if candidate.required then none
    else some none

/-- What is known of a text up to some place in it. -/
structure Scanner where
  /-- The tokens. -/
  tokens : Array Token := #[]
  /-- The columns of the open block collections, the innermost one first. -/
  columns : List Nat := []
  /-- Whether a key may begin here. Outside flow collections, that goes for dashes too. -/
  keyAllowed : Bool := true
  /-- What may still become a key. -/
  candidate : Option KeyCandidate := none
  /-- What may still become a key around each open flow collection, the innermost one first. -/
  outer : List (Option KeyCandidate) := []

namespace Scanner

/-- Whether the text is inside a flow collection. -/
def inFlow (state : Scanner) : Bool :=
  !state.outer.isEmpty

/-- The column of the innermost block collection, and zero outside all of them. -/
def parent (state : Scanner) : Nat :=
  state.columns.head?.getD 0

/-- Adds a token. -/
def push (state : Scanner) (token : Token) : Scanner :=
  { state with tokens := state.tokens.push token }

/-- Ends the block collections whose columns are to the right of `column`. -/
def closeBlocks (column : Nat) (state : Scanner) : Scanner :=
  if state.inFlow then state
  else
    let closed := (state.columns.takeWhile (column < ·)).length
    { state with
      tokens := state.tokens ++ Array.replicate closed Token.closeBlock
      columns := state.columns.drop closed }

/-- Begins a block collection in a column if none is there; its first token is at `index`. -/
def openBlock (column : Nat) (token : Token) (index : Nat) (state : Scanner) : Scanner :=
  if state.inFlow || column ≤ state.parent then state
  else
    { state with
      tokens := state.tokens.insertIdxIfInBounds index token
      columns := column :: state.columns }

/-- Gives up the candidate, which fails if it has to be a key. -/
def dropCandidate (state : Scanner) : Option Scanner :=
  if state.candidate.any (·.required) then none else some { state with candidate := none }

/-- Takes what begins at a place as the candidate, if a key may begin there. -/
def propose (place : Place) (state : Scanner) : Option Scanner :=
  if state.keyAllowed then
    let required := !state.inFlow && state.parent == place.column
    (dropCandidate state).map fun state =>
      { state with candidate := some ⟨place, required, state.tokens.size⟩ }
  else some state

/-- Goes on to a token at a place. -/
def arrive (place : Place) (state : Scanner) : Option Scanner := do
  let candidate ← keepCandidate place state.candidate
  let outer ← state.outer.mapM (keepCandidate place)
  return closeBlocks place.column { state with candidate, outer }

/-- Skips blanks, comments and empty lines, and gives whether a key may begin after them. A tab
before a possible key is not skipped. -/
def skipGap (flow comment keyAllowed : Bool) : List PlacedChar → Bool × List PlacedChar
  | [] => (keyAllowed, [])
  | c :: rest =>
    if isBreakChar c.char then skipGap flow false (keyAllowed || !flow) rest
    else if comment || c.char = ' ' || (c.char = '\t' && (flow || !keyAllowed)) ||
        (c.char = byteOrderMark && c.place.column = 1) then
      skipGap flow comment keyAllowed rest
    else if c.char = '#' then skipGap flow true keyAllowed rest
    else (keyAllowed, c :: rest)

/-- Skipping a gap puts no text back. -/
theorem length_skipGap (flow comment keyAllowed : Bool) (chars : List PlacedChar) :
    (skipGap flow comment keyAllowed chars).2.length ≤ chars.length := by
  fun_induction skipGap flow comment keyAllowed chars with
  | case1 => exact Nat.le_refl _
  | case2 _ _ _ _ _ ih => exact Nat.le_succ_of_le ih
  | case3 _ _ _ _ _ _ ih => exact Nat.le_succ_of_le ih
  | case4 _ _ _ _ _ _ _ ih => exact Nat.le_succ_of_le ih
  | case5 => exact Nat.le_refl _

/-- A mark before or after a document: all block collections end there. -/
def documentMark (token : Token) (state : Scanner) : Option Scanner :=
  (dropCandidate (closeBlocks 0 state)).map fun state =>
    push { state with keyAllowed := false } token

/-- The beginning of a flow collection, which may be a key itself. -/
def openFlow (place : Place) (token : Token) (state : Scanner) : Option Scanner :=
  (propose place state).map fun state =>
    push { state with
      keyAllowed := true
      candidate := none
      outer := state.candidate :: state.outer } token

/-- The end of a flow collection. -/
def closeFlow (token : Token) (state : Scanner) : Option Scanner :=
  (dropCandidate state).map fun state =>
    push { state with
      keyAllowed := false
      candidate := state.outer.head?.getD none
      outer := state.outer.tail } token

/-- A comma. -/
def comma (state : Scanner) : Option Scanner :=
  (dropCandidate state).map fun state => push { state with keyAllowed := true } .comma

/-- A dash before an item. -/
def dash (place : Place) (state : Scanner) : Option Scanner :=
  if !state.inFlow && !state.keyAllowed then none
  else
    (dropCandidate (openBlock place.column .openBlockSequence state.tokens.size state)).map
      fun state => push { state with keyAllowed := true } .dash

/-- A question mark before a key. -/
def keyMark (place : Place) (state : Scanner) : Option Scanner :=
  if !state.inFlow && !state.keyAllowed then none
  else
    (dropCandidate (openBlock place.column .openBlockMapping state.tokens.size state)).map
      fun state => push { state with keyAllowed := !state.inFlow } .key

/-- A colon: what the candidate stands for is a key, and if there is none, the colon belongs to the
key after the last question mark. -/
def valueMark (place : Place) (state : Scanner) : Option Scanner :=
  match state.candidate with
  | some candidate =>
    let marked := { state with
      tokens := state.tokens.insertIdxIfInBounds candidate.index .key
      candidate := none
      keyAllowed := false }
    some (push (openBlock candidate.place.column .openBlockMapping candidate.index marked) .value)
  | none =>
    if !state.inFlow && !state.keyAllowed then none
    else
      let state := openBlock place.column .openBlockMapping state.tokens.size state
      some (push { state with keyAllowed := !state.inFlow } .value)

/-- Reads the token that begins with a character, and gives what follows it. -/
def next (state : Scanner) (c : PlacedChar) (rest : List PlacedChar) :
    Option (Scanner × { rest' : List PlacedChar // rest'.length ≤ rest.length }) :=
  let withRest (state : Scanner) :
      Scanner × { rest' : List PlacedChar // rest'.length ≤ rest.length } :=
    (state, ⟨rest, Nat.le_refl _⟩)
  if isDocumentMark '-' (c :: rest) then
    (documentMark .documentStart state).map (·, ⟨rest.drop 2, (List.drop_suffix 2 rest).length_le⟩)
  else if isDocumentMark '.' (c :: rest) then
    (documentMark .documentEnd state).map (·, ⟨rest.drop 2, (List.drop_suffix 2 rest).length_le⟩)
  else if c.char = '[' then (openFlow c.place .openSequence state).map withRest
  else if c.char = '\x7b' then (openFlow c.place .openMapping state).map withRest
  else if c.char = ']' then (closeFlow .closeSequence state).map withRest
  else if c.char = '\x7d' then (closeFlow .closeMapping state).map withRest
  else if c.char = ',' then (comma state).map withRest
  else if c.char = '-' && beginsGap rest then (dash c.place state).map withRest
  else if c.char = '?' && (state.inFlow || beginsGap rest) then
    (keyMark c.place state).map withRest
  else if c.char = ':' && (state.inFlow || beginsGap rest) then
    (valueMark c.place state).map withRest
  else
    match hread : readScalar state.inFlow state.parent c.char rest with
    | none => none
    | some (found, rest') =>
      (propose c.place state).map fun state =>
        (push { state with keyAllowed := found.broken } (.scalar found.text found.plain),
          ⟨rest', length_readScalar hread⟩)

/-- The tokens of a text that goes on with `chars`. -/
def scan (state : Scanner) (chars : List PlacedChar) : Option (Array Token) :=
  match hskip : skipGap state.inFlow false state.keyAllowed chars with
  | (_, []) => (dropCandidate (closeBlocks 0 state)).map (·.tokens)
  | (keyAllowed, c :: rest) => do
    have := hskip ▸ length_skipGap state.inFlow false state.keyAllowed chars
    let arrived ← arrive c.place { state with keyAllowed }
    let (moved, ⟨rest', _⟩) ← arrived.next c rest
    moved.scan rest'
termination_by chars.length
decreasing_by
  simp only [List.length_cons] at this
  omega

end Scanner

/-- The tokens of a whole text. -/
def tokensOf? (text : List Char) : Option (List Token) :=
  if text.all isPrintable then
    let text := if text.head? = some byteOrderMark then text.drop 1 else text
    (Scanner.scan {} (placed .first (unifyBreaks text))).map (·.toList)
  else none

end Emend.Yaml
