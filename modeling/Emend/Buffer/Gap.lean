import Emend.Text.Source

/-!
# Gap buffers

A text that is edited is kept in an array with a gap at the place of the last edit. The text is
what lies before the gap followed by what lies after it. Inserting fills the gap, deleting widens
it, and moving it elsewhere copies the characters in between across it; the gap grows in steps, so
that typing rarely moves more than one character. What the cells of the gap hold is never read.

Each character carries a tag, a number that a highlighter gave it.
-/

namespace Emend

/-- A character with its tag. -/
structure Glyph where
  /-- The character. -/
  char : Char
  /-- The tag; zero as long as none was given. -/
  tag : Nat
  deriving DecidableEq, Repr, Inhabited

/-- A character that has no tag yet. -/
def Glyph.fresh (c : Char) : Glyph :=
  ⟨c, 0⟩

/-- What the cells of a new gap hold. -/
def Glyph.filler : Glyph :=
  .fresh '\x00'

/-- A text in an array with a gap. -/
structure GapBuffer where
  /-- The cells, those of the gap included. -/
  cells : Array Glyph
  /-- The index of the first cell of the gap. -/
  gap : Nat
  /-- How many cells the gap has. -/
  gapLength : Nat
  deriving DecidableEq, Repr

namespace GapBuffer

/-- The gap grows in steps of this many cells. -/
def growth : Nat := 128

/-- A buffer without text. -/
def empty : GapBuffer :=
  ⟨Array.replicate growth .filler, 0, growth⟩

/-- How many characters the text has. -/
def size (buffer : GapBuffer) : Nat :=
  buffer.cells.size - buffer.gapLength

/-- The index of the cell that holds a position of the text. -/
def cellOf (buffer : GapBuffer) (position : Nat) : Nat :=
  if position < buffer.gap then position else position + buffer.gapLength

/-- Copies `count` cells from `source` on to the cells from `target` on, the first of them first.
The target must not lie after the source. -/
def copyDown (cells : Array Glyph) (source target : Nat) : Nat → Array Glyph
  | 0 => cells
  | count + 1 =>
    copyDown (cells.setIfInBounds target (cells.getD source .filler)) (source + 1) (target + 1)
      count

/-- Copies `count` cells from `source` on to the cells from `target` on, the last of them first.
The target must not lie before the source. -/
def copyUp (cells : Array Glyph) (source target : Nat) : Nat → Array Glyph
  | 0 => cells
  | count + 1 =>
    copyUp (cells.setIfInBounds (target + count) (cells.getD (source + count) .filler)) source
      target count

/-- Moves the gap to a position of the text, or to its end if the position lies after it. -/
def moveGap : GapBuffer → (position : Nat) → GapBuffer
  | ⟨cells, gap, gapLength⟩, position =>
    -- The order of copying keeps cells that overlap from being overwritten before they are read.
    let position := min position (cells.size - gapLength)
    if position < gap then
      ⟨copyUp cells position (position + gapLength) (gap - position), position, gapLength⟩
    else ⟨copyDown cells (gap + gapLength) gap (position - gap), position, gapLength⟩

/-- Widens the gap, if need be, so that `count` more characters fit in. -/
def widen (buffer : GapBuffer) (count : Nat) : GapBuffer :=
  -- One cell of the gap always stays free.
  if count + 1 < buffer.gapLength then buffer
  else
    let length := (count / growth + 1) * growth
    let before := buffer.cells.extract 0 buffer.gap
    let after := buffer.cells.extract buffer.gap buffer.cells.size
    { buffer with
      cells := before ++ Array.replicate (length - buffer.gapLength) .filler ++ after
      gapLength := length }

/-- Lets the gap take in this many cells after it. -/
def swallow (buffer : GapBuffer) (count : Nat) : GapBuffer :=
  { buffer with gapLength := buffer.gapLength + count }

/-- Removes the positions from `start` up to `stop`. -/
def delete (buffer : GapBuffer) (start stop : Nat) : GapBuffer :=
  let stop := min stop buffer.size
  if start < stop then (buffer.moveGap start).swallow (stop - start) else buffer

/-- Writes characters into the cells from `index` on. -/
def write (cells : Array Glyph) (index : Nat) : List Char → Array Glyph
  | [] => cells
  | c :: rest => write (cells.setIfInBounds index (.fresh c)) (index + 1) rest

/-- Fills the beginning of the gap, which is longer than the text. -/
def fill : GapBuffer → (text : List Char) → GapBuffer
  | ⟨cells, gap, gapLength⟩, text =>
    ⟨write cells gap text, gap + text.length, gapLength - text.length⟩

/-- Inserts a text before a position. -/
def insert (buffer : GapBuffer) (position : Nat) (text : List Char) : GapBuffer :=
  ((buffer.moveGap position).widen text.length).fill text

/-- The buffer of a text. -/
def ofText (text : List Char) : GapBuffer :=
  empty.insert 0 text

/-- The glyph at a position. -/
def glyphAt? (buffer : GapBuffer) (position : Nat) : Option Glyph :=
  if position < buffer.size then buffer.cells[buffer.cellOf position]? else none

/-- Gives the glyph at a position a tag. -/
def setTag (buffer : GapBuffer) (position tag : Nat) : GapBuffer :=
  if position < buffer.size then
    let cell := buffer.cellOf position
    { buffer with cells := buffer.cells.modify cell fun glyph => { glyph with tag } }
  else buffer

/-- Gives tags to the glyphs from a position on. -/
def setTags (buffer : GapBuffer) (position : Nat) : List Nat → GapBuffer
  | [] => buffer
  | tag :: tags => (buffer.setTag position tag).setTags (position + 1) tags

/-- The glyphs of the positions from `start` up to `stop`, those before the gap apart from those
after it. -/
def slices (buffer : GapBuffer) (start stop : Nat) : List Glyph × List Glyph :=
  let stop := min stop buffer.size
  let start := min start stop
  let cells (first last : Nat) : List Glyph := (buffer.cells.extract first last).toList
  if stop ≤ buffer.gap then (cells start stop, [])
  else if buffer.gap ≤ start then
    (cells (start + buffer.gapLength) (stop + buffer.gapLength), [])
  else
    (cells start buffer.gap, cells (buffer.gap + buffer.gapLength) (stop + buffer.gapLength))

/-- The glyphs of the positions from `start` up to `stop`. -/
def glyphs (buffer : GapBuffer) (start stop : Nat) : List Glyph :=
  let (before, after) := buffer.slices start stop
  before ++ after

/-- The characters of the positions from `start` up to `stop`. -/
def chars (buffer : GapBuffer) (start stop : Nat) : List Char :=
  (buffer.glyphs start stop).map (·.char)

/-- The tags of the positions from `start` up to `stop`. -/
def tags (buffer : GapBuffer) (start stop : Nat) : List Nat :=
  (buffer.glyphs start stop).map (·.tag)

/-- The whole text with its tags. -/
def toList (buffer : GapBuffer) : List Glyph :=
  buffer.glyphs 0 buffer.size

/-- The text as patterns and scans read it. -/
def source (buffer : GapBuffer) : Source where
  size := buffer.size
  get position := (buffer.cells.getD (buffer.cellOf position) .filler).char

end GapBuffer

end Emend
