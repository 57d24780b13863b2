import Emend.Buffer.Gap
import Emend.Text.Splice

/-!
# Editing a list of glyphs

What the operations of a buffer mean, said of the plain list of its glyphs. Positions may lie
outside the list; they are brought into it.
-/

namespace Emend.Glyphs

/-- The glyphs with a text inserted before a position. The new characters have no tags yet. -/
def insert (glyphs : List Glyph) (position : Nat) (text : List Char) : List Glyph :=
  splice glyphs (.point (min position glyphs.length)) (text.map .fresh)

/-- The glyphs without those from `start` up to `stop`. -/
def delete (glyphs : List Glyph) (start stop : Nat) : List Glyph :=
  if start < min stop glyphs.length then splice glyphs ⟨start, min stop glyphs.length⟩ []
  else glyphs

/-- The glyphs with another tag at a position. -/
def setTag (glyphs : List Glyph) (position tag : Nat) : List Glyph :=
  glyphs.modify position fun glyph => { glyph with tag }

/-- The glyphs from `start` up to `stop`. -/
def slice (glyphs : List Glyph) (start stop : Nat) : List Glyph :=
  sliceOf glyphs ((Selection.mk start stop).clamp glyphs.length)

end Emend.Glyphs

namespace Emend

/-- The gap lies within the cells. -/
def GapBuffer.IsValid (buffer : GapBuffer) : Prop :=
  buffer.gap + buffer.gapLength ≤ buffer.cells.size

/-- A new buffer is valid. -/
theorem GapBuffer.empty_isValid : GapBuffer.empty.IsValid := by
  simp [IsValid, empty]

end Emend
