/-!
# Selections

A selection is a half-open range of positions. Its ends come from callers and may lie anywhere;
clamping brings them into a text of a given size and in order.
-/

namespace Emend

/-- The positions from `start` up to, but not including, `stop`. -/
@[ext]
structure Selection where
  /-- The first position. -/
  start : Nat
  /-- The position after the last one. -/
  stop : Nat
  deriving DecidableEq, Repr, Inhabited

namespace Selection

/-- The empty selection at a position. -/
def point (position : Nat) : Selection :=
  ⟨position, position⟩

/-- Whether the two ends coincide. -/
def isEmpty (sel : Selection) : Bool :=
  sel.start == sel.stop

/-- How many positions are selected; none if the ends are out of order. -/
def length (sel : Selection) : Nat :=
  sel.stop - sel.start

/-- The selection brought into a text of `size` characters: the end moves into the text, and the
start to the end if it lies after it. -/
def clamp (sel : Selection) (size : Nat) : Selection :=
  let stop := min sel.stop size
  ⟨min sel.start stop, stop⟩

/-- How a selection is written. -/
def render (sel : Selection) : String :=
  s!"[{sel.start}, {sel.stop})"

/-- Whether a selection is a range of a text of `size` characters. -/
def IsWithin (sel : Selection) (size : Nat) : Prop :=
  sel.start ≤ sel.stop ∧ sel.stop ≤ size

/-- Clamping brings every selection into the text. -/
theorem clamp_isWithin (sel : Selection) (size : Nat) : (sel.clamp size).IsWithin size := by
  simp only [IsWithin, clamp]
  omega

/-- Clamping leaves a selection of the text as it is. -/
theorem clamp_of_isWithin {sel : Selection} {size : Nat} (h : sel.IsWithin size) :
    sel.clamp size = sel := by
  obtain ⟨hle, hsize⟩ := h
  ext <;> simp only [clamp] <;> omega

end Selection

end Emend
