import Emend.Text.Selection

/-!
# Splicing lists

What it means to replace a range, said of a plain list: what comes before the range, what is put in
its place, and what comes after it. Whatever a document keeps besides, its text changes in no
other way.
-/

namespace Emend

/-- The list with `inserted` in place of a range. -/
def splice {α : Type} (list : List α) (range : Selection) (inserted : List α) : List α :=
  list.take range.start ++ inserted ++ list.drop range.stop

/-- What a list holds in a range. -/
def sliceOf {α : Type} (list : List α) (range : Selection) : List α :=
  (list.take range.stop).drop range.start

variable {α : Type}

/-- A range of the list is as long in the list as it says. -/
theorem length_sliceOf {list : List α} {range : Selection} (h : range.IsWithin list.length) :
    (sliceOf list range).length = range.length := by
  obtain ⟨hle, hsize⟩ := h
  simp only [sliceOf, List.length_drop, List.length_take, Selection.length]
  omega

/-- Splicing changes the length by the difference of what is put in and what is taken out. -/
theorem length_splice {list inserted : List α} {range : Selection}
    (h : range.IsWithin list.length) :
    (splice list range inserted).length + range.length = list.length + inserted.length := by
  obtain ⟨hle, hsize⟩ := h
  simp only [splice, List.length_append, List.length_take, List.length_drop, Selection.length]
  omega

/-- The new text lies where the old one began. -/
theorem sliceOf_splice {list inserted : List α} {range : Selection}
    (h : range.IsWithin list.length) :
    sliceOf (splice list range inserted) ⟨range.start, range.start + inserted.length⟩ =
      inserted := by
  obtain ⟨hle, hsize⟩ := h
  have hlen : (list.take range.start ++ inserted).length = range.start + inserted.length := by
    rw [List.length_append, List.length_take]
    omega
  have hstart : (list.take range.start).length = range.start := by
    rw [List.length_take]
    omega
  simp only [sliceOf, splice]
  rw [List.take_append_of_le_length (Nat.le_of_eq hlen.symm), List.take_of_length_le (by omega),
    List.drop_append_of_le_length (Nat.le_of_eq hstart.symm),
    List.drop_of_length_le (Nat.le_of_eq hstart), List.nil_append]

/-- Putting back what was taken out gives the list from before. -/
theorem splice_splice_sliceOf {list inserted : List α} {range : Selection}
    (h : range.IsWithin list.length) :
    splice (splice list range inserted) ⟨range.start, range.start + inserted.length⟩
      (sliceOf list range) = list := by
  obtain ⟨hle, hsize⟩ := h
  have hstart : (list.take range.start).length = range.start := by
    rw [List.length_take]
    omega
  have hlen : (list.take range.start ++ inserted).length = range.start + inserted.length := by
    rw [List.length_append, hstart]
  have hbefore : (list.take range.start ++ inserted ++ list.drop range.stop).take range.start =
      list.take range.start := by
    rw [List.append_assoc, List.take_append_of_le_length (Nat.le_of_eq hstart.symm),
      List.take_of_length_le (Nat.le_of_eq hstart)]
  have hafter : (list.take range.start ++ inserted ++ list.drop range.stop).drop
      (range.start + inserted.length) = list.drop range.stop := by
    rw [← hlen, List.drop_left]
  simp only [splice, sliceOf, hbefore, hafter]
  have hhead : list.take range.start ++ (list.take range.stop).drop range.start =
      list.take range.stop := by
    have := List.take_append_drop range.start (list.take range.stop)
    rwa [List.take_take, Nat.min_eq_left hle] at this
  rw [hhead, List.take_append_drop]

/-! ## Slices of a spliced list -/

/-- The items of a slice. -/
theorem getElem?_sliceOf (list : List α) (range : Selection) (index : Nat) :
    (sliceOf list range)[index]? =
      if range.start + index < range.stop then list[range.start + index]? else none := by
  rw [sliceOf, List.getElem?_drop, List.getElem?_take]

/-- The items of a spliced list: those before the range, the new ones, and those behind the range,
which have moved. -/
theorem getElem?_splice {list : List α} {range : Selection} (inserted : List α)
    (h : range.IsWithin list.length) (index : Nat) :
    (splice list range inserted)[index]? =
      if index < range.start then list[index]?
      else if index < range.start + inserted.length then inserted[index - range.start]?
      else list[range.stop + (index - (range.start + inserted.length))]? := by
  obtain ⟨hle, hsize⟩ := h
  have hstart : (list.take range.start).length = range.start := by
    rw [List.length_take]
    omega
  have hlength : (list.take range.start ++ inserted).length = range.start + inserted.length := by
    rw [List.length_append, hstart]
  rw [splice, List.getElem?_append, List.getElem?_append, List.getElem?_drop, hstart, hlength]
  split
  · next hfront =>
    split
    · next hbefore => rw [List.getElem?_take, if_pos hbefore]
    · rfl
  · next hbehind => rw [if_neg (by omega)]

/-- A slice before the range is the same afterwards. -/
theorem sliceOf_splice_before {list : List α} {range sel : Selection} (inserted : List α)
    (h : range.IsWithin list.length) (hbefore : sel.stop ≤ range.start) :
    sliceOf (splice list range inserted) sel = sliceOf list sel := by
  apply List.ext_getElem?
  intro index
  rw [getElem?_sliceOf, getElem?_sliceOf, getElem?_splice inserted h]
  split
  · rw [if_pos (by omega)]
  · rfl

/-- A slice behind the range is the same afterwards, where it has moved to. -/
theorem sliceOf_splice_behind {list : List α} {range sel : Selection} (inserted : List α)
    (h : range.IsWithin list.length) (hbehind : range.stop ≤ sel.start) :
    sliceOf (splice list range inserted)
        ⟨sel.start + inserted.length - range.length, sel.stop + inserted.length - range.length⟩ =
      sliceOf list sel := by
  obtain ⟨hle, hsize⟩ := id h
  have hlength : range.length = range.stop - range.start := rfl
  apply List.ext_getElem?
  intro index
  rw [getElem?_sliceOf, getElem?_sliceOf, getElem?_splice inserted h]
  dsimp only
  by_cases hindex : sel.start + index < sel.stop
  · rw [if_pos (by omega), if_neg (by omega), if_neg (by omega), if_pos hindex]
    exact congrArg (list[·]?) (by omega)
  · rw [if_neg (by omega), if_neg hindex]

/-- A slice around the range is spliced as the list is. -/
theorem sliceOf_splice_around {list : List α} {range sel : Selection} (inserted : List α)
    (h : range.IsWithin list.length) (hsel : sel.IsWithin list.length)
    (hbefore : sel.start ≤ range.start) (hbehind : range.stop ≤ sel.stop) :
    sliceOf (splice list range inserted)
        ⟨sel.start, sel.stop + inserted.length - range.length⟩ =
      splice (sliceOf list sel) ⟨range.start - sel.start, range.stop - sel.start⟩ inserted := by
  obtain ⟨hle, hsize⟩ := id h
  have hinner : Selection.IsWithin ⟨range.start - sel.start, range.stop - sel.start⟩
      (sliceOf list sel).length := by
    rw [length_sliceOf hsel]
    simp only [Selection.IsWithin, Selection.length]
    omega
  apply List.ext_getElem?
  intro index
  rw [getElem?_splice inserted hinner, getElem?_sliceOf, getElem?_sliceOf, getElem?_sliceOf,
    getElem?_splice inserted h]
  simp only [Selection.length]
  by_cases hfront : index < range.start - sel.start
  · rw [if_pos hfront, if_pos (by omega), if_pos (by omega), if_pos (by omega)]
  · rw [if_neg hfront]
    by_cases hnew : index < range.start - sel.start + inserted.length
    · rw [if_pos hnew, if_pos (by omega), if_neg (by omega), if_pos (by omega)]
      exact congrArg (inserted[·]?) (by omega)
    · rw [if_neg hnew]
      by_cases hend : sel.start + index < sel.stop + inserted.length - (range.stop - range.start)
      · rw [if_pos hend, if_neg (by omega), if_neg (by omega), if_pos (by omega)]
        exact congrArg (list[·]?) (by omega)
      · rw [if_neg hend, if_neg (by omega)]

end Emend
