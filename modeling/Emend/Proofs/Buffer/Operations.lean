import Emend.Proofs.Buffer.Gap

/-!
# Any operations on a gap buffer

What can be done to a buffer, as a type, with what each operation means for the plain list of its
glyphs. A run of operations on a buffer is followed by the same run on the list: one operation
keeps `GapBuffer.Represents` (`represents_perform`), so a whole run does. What a valid buffer that
represents a list answers when it is read is `GapBuffer.ReadsAs`, wherever its gap is. Together:
whatever has been done to a new buffer, it is valid and reads as the list to which the same was
done (`readsAs_run`).
-/

namespace Emend

/-- Something that is done to a buffer. Positions may lie anywhere, and ends in any order. -/
inductive BufferOperation where
  /-- Inserts a text before a position. -/
  | insert (position : Nat) (text : List Char)
  /-- Removes a range. -/
  | delete (start stop : Nat)
  /-- Moves the gap. -/
  | moveGap (position : Nat)
  /-- Makes room for so many characters. -/
  | widen (count : Nat)
  /-- Gives a glyph a tag. -/
  | setTag (position tag : Nat)
  deriving DecidableEq, Repr

namespace BufferOperation

/-- The buffer after an operation. -/
def perform : BufferOperation → GapBuffer → GapBuffer
  | .insert position text, buffer => buffer.insert position text
  | .delete start stop, buffer => buffer.delete start stop
  | .moveGap position, buffer => buffer.moveGap position
  | .widen count, buffer => buffer.widen count
  | .setTag position tag, buffer => buffer.setTag position tag

/-- The list after an operation. The gap is no part of it. -/
def performOnList : BufferOperation → List Glyph → List Glyph
  | .insert position text, glyphs => Glyphs.insert glyphs position text
  | .delete start stop, glyphs => Glyphs.delete glyphs start stop
  | .moveGap _, glyphs => glyphs
  | .widen _, glyphs => glyphs
  | .setTag position tag, glyphs => Glyphs.setTag glyphs position tag

/-- The buffer after several operations. -/
def run (operations : List BufferOperation) (buffer : GapBuffer) : GapBuffer :=
  operations.foldl (fun buffer operation => operation.perform buffer) buffer

/-- The list after several operations. -/
def runOnList (operations : List BufferOperation) (glyphs : List Glyph) : List Glyph :=
  operations.foldl (fun glyphs operation => operation.performOnList glyphs) glyphs

end BufferOperation

namespace GapBuffer

variable {buffer : GapBuffer} {glyphs : List Glyph}

/-- The buffer is valid, and its list is this one. -/
structure Represents (buffer : GapBuffer) (glyphs : List Glyph) : Prop where
  /-- The gap lies within the cells. -/
  valid : buffer.IsValid
  /-- The list of the buffer. -/
  list : buffer.toList = glyphs

/-- The gap lies within the cells, around it the cells hold the list, and however the buffer is
read, the answer is that part of the list which the positions name after clamping. -/
structure ReadsAs (buffer : GapBuffer) (glyphs : List Glyph) : Prop where
  /-- The gap ends no later than the cells. -/
  gap_le : buffer.gap + buffer.gapLength ≤ buffer.cells.size
  /-- The cells before the gap and those after it hold the list. -/
  live : buffer.cells.toList.take buffer.gap ++
    buffer.cells.toList.drop (buffer.gap + buffer.gapLength) = glyphs
  /-- The text has as many characters as the list has glyphs. -/
  size : buffer.size = glyphs.length
  /-- One glyph, with its tag. -/
  glyphAt? : ∀ position, buffer.glyphAt? position = glyphs[position]?
  /-- One character, as patterns and scans read it. -/
  charAt? : ∀ position, buffer.source.charAt? position = (glyphs[position]?).map (·.char)
  /-- A range in two slices, split at the gap. -/
  slices : ∀ start stop, (buffer.slices start stop).1 ++ (buffer.slices start stop).2 =
    Glyphs.slice glyphs start stop
  /-- The characters of a range. -/
  chars : ∀ start stop, buffer.chars start stop = (Glyphs.slice glyphs start stop).map (·.char)
  /-- The tags of a range. -/
  tags : ∀ start stop, buffer.tags start stop = (Glyphs.slice glyphs start stop).map (·.tag)

/-- **Reading a buffer is reading its list.** -/
theorem Represents.readsAs (h : buffer.Represents glyphs) : buffer.ReadsAs glyphs := by
  obtain ⟨hvalid, rfl⟩ := h
  have hslices : ∀ start stop, (buffer.slices start stop).1 ++ (buffer.slices start stop).2 =
      Glyphs.slice buffer.toList start stop := by
    intro start stop
    rw [Glyphs.slice, length_toList hvalid]
    exact glyphs_eq_sliceOf hvalid start stop
  constructor
  case gap_le => exact hvalid
  case live => exact (toList_eq_append hvalid).symm
  case size => exact (length_toList hvalid).symm
  case glyphAt? => exact glyphAt?_eq_getElem? hvalid
  case charAt? => exact charAt?_source hvalid
  case slices => exact hslices
  -- Characters and tags are read off the two slices.
  case chars => exact fun start stop => congrArg (List.map Glyph.char) (hslices start stop)
  case tags => exact fun start stop => congrArg (List.map Glyph.tag) (hslices start stop)

/-- The empty buffer stands for the empty list. -/
theorem represents_empty : empty.Represents [] :=
  ⟨empty_isValid, List.eq_nil_of_length_eq_zero ((length_toList empty_isValid).trans size_empty)⟩

/-- The buffer of a text has the text, without tags. -/
theorem represents_ofText (text : List Char) : (ofText text).Represents (text.map .fresh) := by
  refine ⟨isValid_insert empty_isValid 0 text, ?_⟩
  rw [ofText, toList_insert empty_isValid, represents_empty.list, Glyphs.insert, splice]
  simp

/-- **One operation.** What it does to the buffer it does to the list. -/
theorem represents_perform (h : buffer.Represents glyphs) (operation : BufferOperation) :
    (operation.perform buffer).Represents (operation.performOnList glyphs) := by
  obtain ⟨hvalid, rfl⟩ := h
  cases operation with
  | insert position text =>
    exact ⟨isValid_insert hvalid position text, toList_insert hvalid position text⟩
  | delete start stop => exact ⟨isValid_delete hvalid start stop, toList_delete hvalid start stop⟩
  | moveGap position => exact ⟨isValid_moveGap hvalid position, toList_moveGap hvalid position⟩
  | widen count => exact ⟨isValid_widen hvalid count, toList_widen hvalid count⟩
  | setTag position tag =>
    exact ⟨isValid_setTag hvalid position tag, toList_setTag hvalid position tag⟩

/-- A run of operations. -/
theorem represents_run (h : buffer.Represents glyphs) (operations : List BufferOperation) :
    (BufferOperation.run operations buffer).Represents
      (BufferOperation.runOnList operations glyphs) := by
  induction operations generalizing buffer glyphs with
  | nil => exact h
  | cons operation rest ih => exact ih (represents_perform h operation)

end GapBuffer

/-- **A gap buffer is a list of glyphs.** Whatever is done to a buffer without text, or to the
buffer of a text, it reads as the list to which the same is done: inserted text without tags, and
every position brought into the list first. -/
theorem BufferOperation.readsAs_run (operations : List BufferOperation) :
    (run operations .empty).ReadsAs (runOnList operations []) ∧
      ∀ text : List Char,
        (run operations (.ofText text)).ReadsAs (runOnList operations (text.map .fresh)) :=
  ⟨(GapBuffer.represents_run GapBuffer.represents_empty operations).readsAs,
    fun text => (GapBuffer.represents_run (GapBuffer.represents_ofText text) operations).readsAs⟩

/-- Positions outside the text are brought into it, and an inserted character has no tag. -/
example : (BufferOperation.run [.setTag 0 3, .insert 9 ['x'], .moveGap 1, .delete 1 2]
    (.ofText ['a', 'b'])).slices 0 9 = ([⟨'a', 3⟩], [⟨'x', 0⟩]) := by
  decide +kernel

end Emend
