import Emend.Document.Selections

/-!
# What becomes of registered selections

Each operation on the registered selections is said in terms of what their handles give afterwards:
`get?_add`, `get?_set`, `get?_erase`, `get?_shift`. An edit moves positions without bringing any two
of them out of order (`Change.movePoint_mono`), and a moved selection is cut off where the text
ends; so a selection whose ends are in order lies within the text after the edit.

`WithinExcept` says that all selections are ranges of the text but the one that an edit leaves
alone, which the edit sets when it is done. `SameHandles` and `Extends` compare the selections at
two times: whether the same handles are in use, and whether those of the one give the same in the
other.
-/

namespace Emend

/-! ## Moving positions -/

/-- An edit keeps positions in order. -/
theorem Change.movePoint_mono (change : Change) {position other : Nat} (h : position ≤ other) :
    change.movePoint position ≤ change.movePoint other := by
  simp only [movePoint]
  split
  · -- What lies before the edit stays, and nothing behind it comes to lie in front.
    split
    · exact h
    · split <;> omega
  · have hother : ¬other ≤ change.start := by omega
    rw [if_neg hother]
    split
    · split <;> omega
    · rw [if_neg (by omega)]
      omega

/-- A selection whose ends are in order lies within the text when it has been moved. -/
theorem Change.moveSelection_isWithin (change : Change) (size : Nat) {sel : Selection}
    (h : sel.start ≤ sel.stop) : (change.moveSelection size sel).IsWithin size := by
  have hmoved := change.movePoint_mono h
  simp only [moveSelection, Selection.IsWithin]
  omega

namespace Selections

variable {selections : Selections} {handle other : SelectionHandle} {sel : Selection} {size : Nat}
  {skip : Option SelectionHandle}

/-! ## What the handles give -/

/-- Two handles are the same if their slots are. -/
theorem slot_ne (h : other ≠ handle) : handle.slot ≠ other.slot :=
  fun heq => h (congrArg SelectionHandle.mk heq.symm)

/-- A registered selection is in a slot of its own. -/
theorem slot_lt (h : selections.get? handle = some sel) :
    handle.slot < selections.slots.length := by
  apply Classical.byContradiction
  intro hlt
  rw [get?, List.getElem?_eq_none (Nat.le_of_not_lt hlt)] at h
  cases h

/-- Only a registered selection can be replaced. -/
theorem get?_set (selections : Selections) (handle other : SelectionHandle) (sel : Selection) :
    (selections.set handle sel).get? other =
      if other = handle ∧ (selections.get? handle).isSome then some sel
      else selections.get? other := by
  unfold set
  cases hget : selections.get? handle with
  | none => rw [if_neg (by simp)]
  | some old =>
    simp only [Option.isSome_some, and_true]
    by_cases heq : other = handle
    · rw [if_pos heq, heq, get?, List.getElem?_set_self (slot_lt hget)]
      rfl
    · rw [if_neg heq, get?, get?, List.getElem?_set_ne (slot_ne heq)]

/-- A forgotten selection is not registered. -/
theorem get?_erase (selections : Selections) (handle other : SelectionHandle) :
    (selections.erase handle).get? other =
      if other = handle then none else selections.get? other := by
  unfold erase
  by_cases heq : other = handle
  · rw [if_pos heq, heq, get?, List.getElem?_set]
    rw [if_pos rfl]
    split <;> rfl
  · rw [if_neg heq, get?, get?, List.getElem?_set_ne (slot_ne heq)]

/-- The slot for a new selection is one that there is, or the next one. -/
theorem freeSlot_le (slots : List (Option Selection)) : freeSlot slots ≤ slots.length := by
  induction slots with
  | nil => exact Nat.le_refl _
  | cons slot rest ih =>
    cases slot with
    | none => exact Nat.zero_le _
    | some sel => exact Nat.succ_le_succ ih

/-- Registering a selection leaves all others alone. -/
theorem get?_add (selections : Selections) (sel : Selection) (other : SelectionHandle) :
    (selections.add sel).2.get? other =
      if other = (selections.add sel).1 then some sel else selections.get? other := by
  have hle := freeSlot_le selections.slots
  have hslots : (selections.add sel).2.slots =
      if freeSlot selections.slots < selections.slots.length then
        selections.slots.set (freeSlot selections.slots) (some sel)
      else selections.slots ++ [some sel] := rfl
  by_cases heq : other = (selections.add sel).1
  · rw [if_pos heq, get?, hslots, heq]
    show (Option.join (_)[freeSlot selections.slots]?) = _
    split
    · next hlt =>
      rw [List.getElem?_set_self hlt]
      rfl
    · next hge =>
      -- Without a free slot a new one is put at the end.
      rw [show freeSlot selections.slots = selections.slots.length by omega,
        List.getElem?_concat_length]
      rfl
  · have hne : freeSlot selections.slots ≠ other.slot := slot_ne heq
    rw [if_neg heq, get?, get?, hslots]
    split
    · rw [List.getElem?_set_ne hne]
    · by_cases hlt : other.slot < selections.slots.length
      · rw [List.getElem?_append_left hlt]
      · have hbehind : (selections.slots ++ [some sel]).length ≤ other.slot := by
          rw [List.length_append, List.length_singleton]
          omega
        rw [List.getElem?_eq_none hbehind, List.getElem?_eq_none (Nat.le_of_not_lt hlt)]

/-- An edit moves every selection but one. -/
theorem get?_shift (selections : Selections) (change : Change) (skip : Option SelectionHandle)
    (size : Nat) (other : SelectionHandle) :
    (selections.shift change skip size).get? other =
      if skip = some other then selections.get? other
      else (selections.get? other).map (change.moveSelection size) := by
  simp only [get?, shift, List.getElem?_mapIdx]
  cases selections.slots[other.slot]? with
  | none => split <;> rfl
  | some slot =>
    rw [Option.map_some]
    show (if skip = some other then slot else _) = _
    split <;> rfl

/-- An edit that leaves none alone moves every selection. -/
@[simp]
theorem get?_shift_none (selections : Selections) (change : Change) (size : Nat)
    (other : SelectionHandle) :
    (selections.shift change none size).get? other =
      (selections.get? other).map (change.moveSelection size) := by
  rw [get?_shift, if_neg nofun]

/-- A selection is registered in a slot that was free. -/
theorem get?_add_fst (selections : Selections) (sel : Selection) :
    selections.get? (selections.add sel).1 = none := by
  show (selections.slots[freeSlot selections.slots]?).join = none
  induction selections.slots with
  | nil => rfl
  | cons slot rest ih =>
    cases slot with
    | none => rfl
    | some sel => exact ih

/-- A selection that is registered and taken out again leaves no trace: what the other handles give
in between decides what all of them give afterwards. -/
theorem get?_erase_add {β : Type} (f : Option Selection → β) (after : Selections)
    (h : other ≠ (selections.add sel).1 →
      f (after.get? other) = f ((selections.add sel).2.get? other)) :
    f ((after.erase (selections.add sel).1).get? other) = f (selections.get? other) := by
  rw [get?_erase]
  by_cases hother : other = (selections.add sel).1
  · rw [if_pos hother, hother, get?_add_fst]
  · rw [if_neg hother, h hother, get?_add, if_neg hother]

/-- What is listed is what the handles give. -/
theorem mem_toList_iff : (handle, sel) ∈ selections.toList ↔ selections.get? handle = some sel := by
  simp only [toList, List.mem_filterMap, List.mem_zipIdx_iff_getElem?, get?, Prod.exists,
    Option.map_eq_some_iff, Prod.mk.injEq, Option.join_eq_some_iff]
  constructor
  · rintro ⟨slot, index, hslot, found, rfl, rfl, rfl⟩
    exact hslot
  · intro hslot
    exact ⟨_, handle.slot, hslot, sel, rfl, rfl, rfl⟩

/-- Selections that are set one after the other: a handle gives what it is set to, if it is set to
one selection only and registered just if that is one. -/
theorem get?_foldl_set (f : Selection → Selection) {kept : List (SelectionHandle × Selection)}
    {wanted : Option Selection}
    (hregistered : (selections.get? handle).isSome = wanted.isSome)
    (hkept : ∀ entry ∈ kept, entry.1 = handle → some (f entry.2) = wanted)
    (hset : selections.get? handle = wanted ∨ ∃ entry ∈ kept, entry.1 = handle) :
    (kept.foldl (fun selections entry => selections.set entry.1 (f entry.2)) selections).get?
      handle = wanted := by
  induction kept generalizing selections with
  | nil => exact hset.resolve_right fun ⟨_, hmem, _⟩ => List.not_mem_nil hmem
  | cons first rest ih =>
    have hget := get?_set selections first.1 handle (f first.2)
    have hlater : ∀ entry ∈ rest, entry.1 = handle → some (f entry.2) = wanted :=
      fun entry hmem => hkept entry (List.mem_cons_of_mem _ hmem)
    rw [List.foldl_cons]
    by_cases heq : first.1 = handle
    · -- From here on the handle gives what it is wanted to give.
      have hfirst := hkept first List.mem_cons_self heq
      have hsome : (selections.get? first.1).isSome = true := by
        rw [heq, hregistered, ← hfirst]
        rfl
      rw [if_pos ⟨heq.symm, hsome⟩, hfirst] at hget
      exact ih (congrArg Option.isSome hget) hlater (.inl hget)
    · rw [if_neg fun hand => heq hand.1.symm] at hget
      refine ih (hget ▸ hregistered) hlater (hset.imp hget.trans ?_)
      rintro ⟨entry, hmem, hentry⟩
      rcases List.mem_cons.1 hmem with rfl | hmem
      · exact absurd hentry heq
      · exact ⟨entry, hmem, hentry⟩

/-! ## Handles in use -/

/-- The same handles are in use. -/
def SameHandles (before after : Selections) : Prop :=
  ∀ handle, (after.get? handle).isSome = (before.get? handle).isSome

/-- Every handle in use gives the same in other selections, which may have more. -/
def Extends (selections base : Selections) : Prop :=
  ∀ handle sel, base.get? handle = some sel → selections.get? handle = some sel

variable {before after base : Selections}

/-- Selections have the same handles as themselves. -/
theorem SameHandles.refl (selections : Selections) : selections.SameHandles selections :=
  fun _ => rfl

/-- Selections with the handles of a third have the same ones. -/
theorem SameHandles.trans (h : selections.SameHandles before) (hnext : before.SameHandles after) :
    selections.SameHandles after :=
  fun handle => (hnext handle).trans (h handle)

/-- A handle that stands for nothing still does. -/
theorem SameHandles.get?_eq_none (h : before.SameHandles after)
    (hfree : before.get? handle = none) : after.get? handle = none := by
  rw [← Option.not_isSome_iff_eq_none, h, hfree]
  exact Bool.false_ne_true

/-- Replacing a selection keeps the handles. -/
theorem sameHandles_set (selections : Selections) (handle : SelectionHandle) (sel : Selection) :
    selections.SameHandles (selections.set handle sel) := by
  intro other
  rw [get?_set]
  split
  · next h =>
    rw [h.1, h.2]
    rfl
  · rfl

/-- Moving the selections along keeps the handles. -/
theorem sameHandles_shift (selections : Selections) (change : Change) (size : Nat) :
    selections.SameHandles (selections.shift change none size) := by
  intro other
  rw [get?_shift_none, Option.isSome_map]

/-- A selection that is registered and taken out again leaves the handles as they were. -/
theorem SameHandles.erase_add (h : (selections.add sel).2.SameHandles after) :
    selections.SameHandles (after.erase (selections.add sel).1) :=
  fun other => get?_erase_add Option.isSome after fun _ => h other

/-- A handle that is free is free in fewer selections. -/
theorem Extends.get?_eq_none (h : selections.Extends base)
    (hfree : selections.get? handle = none) : base.get? handle = none := by
  refine Option.eq_none_iff_forall_ne_some.2 fun found hfound => ?_
  rw [h handle found hfound] at hfree
  cases hfree

/-- Registering one selection more extends the others. -/
theorem Extends.add (h : selections.Extends base) (sel : Selection) :
    (selections.add sel).2.Extends base := by
  intro other found hfound
  have hother := h other found hfound
  rw [get?_add, if_neg, hother]
  rintro rfl
  rw [get?_add_fst] at hother
  cases hother

/-- Replacing a selection that is not among the fewer ones still extends these. -/
theorem Extends.set (h : selections.Extends base) (hfree : base.get? handle = none)
    (sel : Selection) : (selections.set handle sel).Extends base := by
  intro other found hfound
  rw [get?_set, if_neg, h other found hfound]
  rintro ⟨rfl, _⟩
  rw [hfree] at hfound
  cases hfound

/-- Taking out a selection that is not among the fewer ones still extends these. -/
theorem Extends.erase (h : selections.Extends base) (hfree : base.get? handle = none) :
    (selections.erase handle).Extends base := by
  intro other found hfound
  rw [get?_erase, if_neg, h other found hfound]
  rintro rfl
  rw [hfree] at hfound
  cases hfound

/-- Moving both along keeps the one an extension of the other. -/
theorem Extends.shift (h : selections.Extends base) (change : Change) (size : Nat) :
    (selections.shift change none size).Extends (base.shift change none size) := by
  intro other found hfound
  rw [get?_shift_none] at hfound ⊢
  obtain ⟨sel, hsel, rfl⟩ := Option.map_eq_some_iff.1 hfound
  rw [h other sel hsel]
  rfl

/-- Selections that have no other handles in use give the same. -/
theorem Extends.get?_eq (h : selections.Extends base) (hsame : base.SameHandles selections)
    (handle : SelectionHandle) : selections.get? handle = base.get? handle := by
  cases hbase : base.get? handle with
  | none => exact hsame.get?_eq_none hbase
  | some sel => exact h handle sel hbase

/-! ## Selections within the text -/

/-- Every registered selection but that of `skip` is a range of a text of `size` characters. -/
def WithinExcept (skip : Option SelectionHandle) (size : Nat) (selections : Selections) : Prop :=
  ∀ handle sel, skip ≠ some handle → selections.get? handle = some sel → sel.IsWithin size

/-- Without selections all lie within the text. -/
theorem withinExcept_empty (skip : Option SelectionHandle) (size : Nat) :
    empty.WithinExcept skip size := by
  intro handle sel _ hget
  cases hget

/-- A selection within the text may be registered. -/
theorem WithinExcept.add (h : selections.WithinExcept skip size) (hsel : sel.IsWithin size) :
    (selections.add sel).2.WithinExcept skip size := by
  intro other found hskip hget
  rw [get?_add] at hget
  split at hget
  · cases hget
    exact hsel
  · exact h other found hskip hget

/-- A selection may be taken out. -/
theorem WithinExcept.erase (h : selections.WithinExcept skip size) (handle : SelectionHandle) :
    (selections.erase handle).WithinExcept skip size := by
  intro other found hskip hget
  rw [get?_erase] at hget
  split at hget
  · cases hget
  · exact h other found hskip hget

/-- A selection may be replaced by one within the text. -/
theorem WithinExcept.set (h : selections.WithinExcept skip size) (handle : SelectionHandle)
    (hsel : sel.IsWithin size) : (selections.set handle sel).WithinExcept skip size := by
  intro other found hskip hget
  rw [get?_set] at hget
  split at hget
  · cases hget
    exact hsel
  · exact h other found hskip hget

/-- When the selection that was left alone is set, all selections are ranges of the text. -/
theorem WithinExcept.set_skip (h : selections.WithinExcept (some handle) size)
    (hsel : sel.IsWithin size) : (selections.set handle sel).WithinExcept none size := by
  intro other found _ hget
  rw [get?_set] at hget
  split at hget
  · cases hget
    exact hsel
  · next hother =>
    refine h other found (fun heq => ?_) hget
    -- The selection of the handle itself has been set, since it is registered.
    cases Option.some.inj heq
    exact hother ⟨rfl, by rw [hget]; rfl⟩

/-- After an edit the selections that it has moved are ranges of the new text. -/
theorem WithinExcept.shift (h : selections.WithinExcept skip size) (change : Change) (after : Nat) :
    (selections.shift change skip after).WithinExcept skip after := by
  intro other found hskip hget
  rw [get?_shift, if_neg hskip] at hget
  obtain ⟨sel, hsel, rfl⟩ := Option.map_eq_some_iff.1 hget
  exact change.moveSelection_isWithin after (h other sel hskip hsel).1

/-- If all selections lie within the text, all but one do. -/
theorem WithinExcept.weaken (h : selections.WithinExcept none size)
    (skip : Option SelectionHandle) : selections.WithinExcept skip size :=
  fun handle sel _ hget => h handle sel nofun hget

end Selections

end Emend
