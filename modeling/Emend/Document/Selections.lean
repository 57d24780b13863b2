import Emend.Text.Selection

/-!
# Registered selections

A document keeps the selections that callers have registered with it, and moves them along with
every edit. A caller holds a handle, which is the slot of its selection; a slot that is free again
is given to the next selection.
-/

namespace Emend

/-- The handle of a registered selection. -/
structure SelectionHandle where
  /-- The slot of the selection. -/
  slot : Nat
  deriving DecidableEq, Repr

/-- How a handle is written. -/
def SelectionHandle.render (handle : SelectionHandle) : String :=
  s!"SelId({handle.slot})"

/-- Registered selections by slot; a free slot holds none. -/
structure Selections where
  /-- The slots. -/
  slots : List (Option Selection)
  deriving DecidableEq, Repr

namespace Selections

/-- No selections. -/
def empty : Selections :=
  ⟨[]⟩

/-- The first slot that holds no selection, which may be the one after the last. -/
def freeSlot : List (Option Selection) → Nat
  | [] => 0
  | none :: _ => 0
  | some _ :: rest => freeSlot rest + 1

/-- Registers a selection in the first free slot. -/
def add (selections : Selections) (sel : Selection) : SelectionHandle × Selections :=
  let slot := freeSlot selections.slots
  let slots :=
    if slot < selections.slots.length then selections.slots.set slot (some sel)
    else selections.slots ++ [some sel]
  (⟨slot⟩, ⟨slots⟩)

/-- The selection of a handle, if it is registered. -/
def get? (selections : Selections) (handle : SelectionHandle) : Option Selection :=
  (selections.slots[handle.slot]?).join

/-- Forgets the selection of a handle. -/
def erase (selections : Selections) (handle : SelectionHandle) : Selections :=
  ⟨selections.slots.set handle.slot none⟩

/-- Replaces the selection of a handle, if it is registered. -/
def set (selections : Selections) (handle : SelectionHandle) (sel : Selection) : Selections :=
  match selections.get? handle with
  | some _ => ⟨selections.slots.set handle.slot (some sel)⟩
  | none => selections

/-- The registered selections with their handles, by slot. -/
def toList (selections : Selections) : List (SelectionHandle × Selection) :=
  selections.slots.zipIdx.filterMap fun (slot, index) => slot.map (⟨index⟩, ·)

/-- How many selections are registered. -/
def size (selections : Selections) : Nat :=
  selections.toList.length

/-- Clamps every selection to a text of `size` characters. -/
def clampAll (selections : Selections) (size : Nat) : Selections :=
  ⟨selections.slots.map (·.map (·.clamp size))⟩

end Selections

/-- A replacement of `removed` characters from `start` on by `inserted` others. -/
structure Change where
  /-- Where the replaced characters begin. -/
  start : Nat
  /-- How many characters are removed. -/
  removed : Nat
  /-- How many characters are put in their place. -/
  inserted : Nat
  deriving DecidableEq, Repr

namespace Change

/-- Where a position goes in a change: nowhere at or before its start, to its start from inside the
removed characters, and along with the text after them. -/
def movePoint (change : Change) (position : Nat) : Nat :=
  -- What is inserted right at a position comes after it.
  if position ≤ change.start then position
  else if position < change.start + change.removed then change.start
  else position + change.inserted - change.removed

/-- A selection after a change that leaves a text of `size` characters. -/
def moveSelection (change : Change) (size : Nat) (sel : Selection) : Selection :=
  ⟨min (change.movePoint sel.start) size, min (change.movePoint sel.stop) size⟩

end Change

/-- Moves every selection along with a change that leaves a text of `size` characters, except the
one with the handle `skip`. -/
def Selections.shift (selections : Selections) (change : Change) (skip : Option SelectionHandle)
    (size : Nat) : Selections :=
  ⟨selections.slots.mapIdx fun index slot =>
    if skip = some ⟨index⟩ then slot else slot.map (change.moveSelection size)⟩

end Emend
