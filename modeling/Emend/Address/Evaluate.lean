import Emend.Address.Parser
import Emend.Text.Scan

/-!
# Evaluating addresses

An address is evaluated in a text, relative to a range of it that is called dot, and names exactly
one range. Positions outside the text are brought into it. A search that finds nothing ahead goes
on from the other end of the text.
-/

namespace Emend

/-- Applies a step `count` times, but no more once it has no effect. -/
def repeatStep {α : Type} [DecidableEq α] (step : α → α) : Nat → α → α
  | 0, state => state
  | count + 1, state => if step state = state then state else repeatStep step count (step state)

namespace Source

/-- Where the line begins that ends before `position`; `back` positions are stepped over first. -/
def lineBefore (text : Source) (position back : Nat) : Nat :=
  if position < back then 0 else text.pastNewline (position - back) .backward

/-- The line after the one whose end is `range.stop`. -/
def nextLine (text : Source) (range : Selection) : Selection :=
  ⟨range.stop, text.pastNewline range.stop .forward⟩

/-- The line before the one that begins at `range.start`. -/
def previousLine (text : Source) (range : Selection) : Selection :=
  ⟨text.lineBefore range.start 2, range.start⟩

/-- The line that is `count` lines away from a range, or counted from the beginning of the text.
Zero lines away lies what the range leaves of its own line on that side. -/
def lineAt (text : Source) (dot : Selection) (count : Nat) : Option Sign → Selection
  | some .minus =>
    -- The own line up to the range counts as the line that is zero lines away.
    let start := min (text.lineBefore dot.start 1) dot.start
    repeatStep text.previousLine count ⟨start, dot.start⟩
  | some .plus =>
    -- A range that ends with a line end belongs to the line that it ends.
    let stop := if dot.isEmpty then dot.stop else dot.stop - 1
    repeatStep text.nextLine count ⟨stop, text.pastNewline dot.start .forward⟩
  | none =>
    match count with
    | 0 => .point 0
    | count + 1 => repeatStep text.nextLine count ⟨0, text.pastNewline 0 .forward⟩

/-- The word after a range. -/
def nextWord (text : Source) (range : Selection) : Selection :=
  ⟨range.stop, text.wordBoundary true range.stop .forward⟩

/-- The word before a range. -/
def previousWord (text : Source) (range : Selection) : Selection :=
  match range.start with
  | 0 => .point 0
  | position + 1 => ⟨text.wordBoundary true position .backward, range.start⟩

/-- The word that is `count` words away from a range, or from the beginning of the text. -/
def wordAt (text : Source) (dot : Selection) (count : Nat) : Option Sign → Selection
  | some .minus => repeatStep text.previousWord count dot
  | some .plus => repeatStep text.nextWord count dot
  | none => repeatStep text.nextWord count (.point 0)

/-- The place that is `count` characters away from a range, or from the beginning of the text. -/
def charAway (text : Source) (dot : Selection) (count : Nat) : Option Sign → Selection
  | some .minus => .point (min (dot.start - count) text.size)
  | some .plus => .point (min (dot.stop + count) text.size)
  | none => .point (min count text.size)

/-- The end of a range without the line end that it ends with. -/
def beforeLineEnd (text : Source) (dot : Selection) : Selection :=
  if dot.start < dot.stop && text.next? .backward dot.stop == some '\n' then .point (dot.stop - 1)
  else .point dot.stop

/-- Where the text ends in a direction. -/
def limit (text : Source) : Direction → Nat
  | .forward => text.size
  | .backward => 0

end Source

namespace Search

/-- Another try from the neighbouring place, for an empty match right where the search began. -/
def retry (regex : Regex) (text : Source) (position : Nat) (direction : Direction) :
    Option Captures :=
  if position = text.limit direction then none
  else regex.matchAt text (direction.step position) (text.limit direction) direction

/-- Whether a match is the empty one at a position. -/
def isEmptyAt (found : Captures) (position : Nat) : Bool :=
  found.start == found.stop && found.start == position

/-- The nearest match from a position on to the end of the text that lies there, other than the
empty one right at the position; failing that, the first from the opposite end of the text. -/
def nearest? (regex : Regex) (text : Source) (position : Nat) (direction : Direction) :
    Option Captures :=
  let ahead :=
    match regex.matchAt text position (text.limit direction) direction with
    -- An empty match where the search began would never get anywhere.
    | some found => if isEmptyAt found position then retry regex text position direction else found
    | none => none
  ahead <|>
    -- Nothing lies ahead, so the search begins anew from the other end.
    let opposite := match direction with | .forward => Direction.backward | .backward => .forward
    regex.matchAt text (text.limit opposite) (text.limit direction) direction

/-- The direction of a search: two reversals, by the delimiter and by the sign, cancel out. -/
def direction (search : Search) (sign : Option Sign) : Direction :=
  if search.reverse == (sign == some .minus) then .forward else .backward

/-- The match that a search names, relative to a range. -/
def evaluate (search : Search) (text : Source) (dot : Selection) (sign : Option Sign) :
    Except EditError Selection :=
  let direction := search.direction sign
  let position :=
    match sign, direction with
    | none, _ => 0
    | some _, .forward => dot.stop
    | some _, .backward => dot.start
  let regex := match direction with | .forward => search.ahead | .backward => search.back
  match nearest? regex text position direction with
  | some found => .ok ⟨found.start, found.stop⟩
  | none => if search.isLenient then .ok dot else .error (.noMatch search.pattern)

end Search

/-- The range that a simple address names, relative to dot. -/
def SimpleAddress.evaluate (address : SimpleAddress) (text : Source) (dot : Selection) :
    Except EditError Selection :=
  let dot := dot.clamp text.size
  match address.place, address.sign with
  | .dot, none => .ok dot
  | .dot, some _ => .error (.address .signedDot)
  | .last, none => .ok (.point text.size)
  | .last, some _ => .error (.address .signedLast)
  | .line count, sign => .ok (text.lineAt dot count sign)
  | .char count, sign => .ok (text.charAway dot count sign)
  | .word count, sign => .ok ((text.wordAt dot count sign).clamp text.size)
  | .lineEnd 1, some .minus => .ok (text.beforeLineEnd dot)
  | .lineEnd _, _ => .error (.address .badLineEnd)
  | .search wanted, sign => wanted.evaluate text dot sign

/-- The range that an address names, relative to dot. -/
def Address.evaluate (text : Source) (dot : Selection) : Address → Except EditError Selection
  | .simple address => do
    let range ← address.evaluate text dot
    return range.clamp text.size
  | .chain addresses => do
    let range ← addresses.foldlM (fun range address => address.evaluate text range) dot
    return range.clamp text.size
  | .between left separator right => do
    let before ← left.evaluate text dot
    let after ← right.evaluate text (match separator with | .comma => dot | .semicolon => before)
    if after.stop < before.start then
      throw (.address (.outOfOrder before separator after))
    else return Selection.clamp ⟨before.start, after.stop⟩ text.size

/-- Reads an address and evaluates it. -/
def evaluateAddress (address : String) (text : Source) (dot : Selection) :
    Except EditError Selection := do
  (← Address.parse address).evaluate text dot

end Emend
