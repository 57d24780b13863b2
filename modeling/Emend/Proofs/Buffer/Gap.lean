import Emend.Buffer.Glyphs

/-!
# Gap buffers hold lists of glyphs

The array of a buffer is compared with the plain list of its glyphs. A buffer is valid when its gap
lies within its cells; its list is then what the cells hold before the gap followed by what they
hold after it (`toList_eq_append`). Copying cells across the gap, in either order, changes neither
(`toList_moveGap`), nor does making the gap longer (`toList_widen`). What remains is plain: filling
the gap puts text into the list, and letting the gap take in cells removes text from it.

The statements used elsewhere are those for inserting, deleting and reading: `toList_insert`,
`toList_delete`, `glyphs_eq_sliceOf`, with validity kept by each operation.
-/

namespace Emend

namespace GapBuffer

/-- The empty buffer has no characters. -/
@[simp]
theorem size_empty : empty.size = 0 := by
  simp [size, empty]

/-! ## Copying cells -/

/-- Copying cells down keeps their number. -/
@[simp]
theorem size_copyDown (cells : Array Glyph) (source target count : Nat) :
    (copyDown cells source target count).size = cells.size := by
  induction count generalizing cells source target with
  | zero => rfl
  | succ count ih => rw [copyDown, ih, Array.size_setIfInBounds]

/-- Copying cells up keeps their number. -/
@[simp]
theorem size_copyUp (cells : Array Glyph) (source target count : Nat) :
    (copyUp cells source target count).size = cells.size := by
  induction count generalizing cells source target with
  | zero => rfl
  | succ count ih => rw [copyUp, ih, Array.size_setIfInBounds]

/-- Cells copied to where they do not lie after their source arrive unchanged, even if the two
places overlap, and no others change. -/
theorem getElem?_copyDown (cells : Array Glyph) (source target count index : Nat)
    (htarget : target ≤ source) (hsource : source + count ≤ cells.size) :
    (copyDown cells source target count)[index]? =
      if target ≤ index ∧ index < target + count then cells[index - target + source]?
      else cells[index]? := by
  induction count generalizing cells source target with
  | zero => rw [copyDown, if_neg (by omega)]
  | succ count ih =>
    rw [copyDown, ih _ _ _ (by omega) (by rw [Array.size_setIfInBounds]; omega)]
    have hread : cells.getD source .filler = cells[source] := by
      rw [Array.getD, dif_pos (by omega)]
      rfl
    simp only [Array.getElem?_setIfInBounds]
    by_cases hfirst : target = index
    · subst hfirst
      have hlt : target < cells.size := by omega
      rw [if_neg (by omega), if_pos rfl, if_pos hlt, hread, if_pos (by omega), Nat.sub_self,
        Nat.zero_add, Array.getElem?_eq_getElem]
    · -- The cells read later lie after the one just written.
      by_cases hrest : target + 1 ≤ index ∧ index < target + 1 + count
      · have hlater : target ≠ index - (target + 1) + (source + 1) := by omega
        rw [if_pos hrest, if_neg hlater, if_pos (by omega)]
        congr 1
        omega
      · rw [if_neg hrest, if_neg hfirst, if_neg (by omega)]

/-- Cells copied to where they do not lie before their source arrive unchanged, even if the two
places overlap, and no others change. -/
theorem getElem?_copyUp (cells : Array Glyph) (source target count index : Nat)
    (htarget : source ≤ target) (hbound : target + count ≤ cells.size) :
    (copyUp cells source target count)[index]? =
      if target ≤ index ∧ index < target + count then cells[index - target + source]?
      else cells[index]? := by
  induction count generalizing cells source target with
  | zero => rw [copyUp, if_neg (by omega)]
  | succ count ih =>
    rw [copyUp, ih _ _ _ htarget (by rw [Array.size_setIfInBounds]; omega)]
    have hread : cells.getD (source + count) .filler = cells[source + count] := by
      rw [Array.getD, dif_pos (by omega)]
      rfl
    simp only [Array.getElem?_setIfInBounds]
    by_cases hlast : target + count = index
    · subst hlast
      have hlt : target + count < cells.size := by omega
      rw [if_neg (by omega), if_pos rfl, if_pos hlt, hread, if_pos (by omega),
        Nat.add_sub_cancel_left, Nat.add_comm count source, Array.getElem?_eq_getElem]
    · -- The cells read later lie before the one just written.
      by_cases hrest : target ≤ index ∧ index < target + count
      · have hearlier : target + count ≠ index - target + source := by omega
        rw [if_pos hrest, if_neg hearlier, if_pos (by omega)]
      · rw [if_neg hrest, if_neg hlast, if_neg (by omega)]

/-! ## The list of a buffer -/

/-- As many cells lie before the gap as its position says. -/
theorem length_take_gap {buffer : GapBuffer} (h : buffer.IsValid) :
    (buffer.cells.toList.take buffer.gap).length = buffer.gap := by
  rw [List.length_take, Array.length_toList]
  simp only [IsValid] at h
  omega

/-- The list is what lies before the gap followed by what lies after it. -/
theorem toList_eq_append {buffer : GapBuffer} (h : buffer.IsValid) :
    buffer.toList = buffer.cells.toList.take buffer.gap ++
      buffer.cells.toList.drop (buffer.gap + buffer.gapLength) := by
  obtain ⟨cells, gap, gapLength⟩ := buffer
  simp only [IsValid] at h
  simp only [toList, glyphs, slices, size, Nat.min_self, Nat.zero_min, Array.toList_extract,
    List.extract_eq_take_drop]
  by_cases hend : cells.size - gapLength ≤ gap
  · -- The gap is at the end, and the list lies before it.
    have hgap : cells.size - gapLength = gap := by omega
    have hdrop : cells.toList.drop (gap + gapLength) = [] :=
      List.drop_of_length_le (by rw [Array.length_toList]; omega)
    rw [if_pos hend, hdrop, hgap]
    simp
  · rw [if_neg hend]
    by_cases hstart : gap ≤ 0
    · -- The gap is at the beginning, and the list lies after it.
      have hgap : gap = 0 := by omega
      subst hgap
      have htake : (cells.toList.drop gapLength).take
          (cells.size - gapLength + gapLength - gapLength) = cells.toList.drop gapLength :=
        List.take_of_length_le (by rw [List.length_drop, Array.length_toList]; omega)
      rw [if_pos (Nat.le_refl 0), Nat.zero_add, htake, List.append_nil, List.take_zero,
        List.nil_append]
    · have htake : (cells.toList.drop (gap + gapLength)).take
          (cells.size - gapLength + gapLength - (gap + gapLength)) =
            cells.toList.drop (gap + gapLength) :=
        List.take_of_length_le (by rw [List.length_drop, Array.length_toList]; omega)
      rw [if_neg hstart, htake, Nat.sub_zero, List.drop_zero]

/-- Reading a position of the list is reading the cell that holds it. -/
theorem getElem?_toList {buffer : GapBuffer} (h : buffer.IsValid) (position : Nat) :
    buffer.toList[position]? = buffer.cells[buffer.cellOf position]? := by
  have hlength := length_take_gap h
  rw [toList_eq_append h, cellOf]
  by_cases hbefore : position < buffer.gap
  · rw [List.getElem?_append_left (by omega), List.getElem?_take_of_lt hbefore, if_pos hbefore,
      Array.getElem?_toList]
  · rw [List.getElem?_append_right (by omega), hlength, List.getElem?_drop, if_neg hbefore,
      Array.getElem?_toList]
    congr 1
    omega

/-- The list is as long as the buffer says. -/
theorem length_toList {buffer : GapBuffer} (h : buffer.IsValid) :
    buffer.toList.length = buffer.size := by
  rw [toList_eq_append h, List.length_append, List.length_take, List.length_drop,
    Array.length_toList, size]
  simp only [IsValid] at h
  omega

/-- What is read between two positions is what the list holds there. -/
theorem glyphs_eq_sliceOf {buffer : GapBuffer} (h : buffer.IsValid) (start stop : Nat) :
    buffer.glyphs start stop =
      sliceOf buffer.toList ((Selection.mk start stop).clamp buffer.size) := by
  have hgap : buffer.gap ≤ buffer.size := by
    simp only [IsValid] at h
    simp only [size]
    omega
  have hlength := length_take_gap h
  simp only [glyphs, slices, Selection.clamp, sliceOf]
  generalize hstop : min stop buffer.size = last
  generalize hstart : min start last = first
  have hlast : last ≤ buffer.size := by omega
  rw [toList_eq_append h]
  simp only [Array.toList_extract, List.extract_eq_take_drop]
  -- What is read lies before the gap, after it, or on both sides.
  by_cases hbefore : last ≤ buffer.gap
  · rw [if_pos hbefore, List.append_nil, List.take_append_of_le_length (by omega),
      List.take_take, Nat.min_eq_left hbefore, List.drop_take]
  · have htake : (buffer.cells.toList.take buffer.gap).take last =
        buffer.cells.toList.take buffer.gap := List.take_of_length_le (by omega)
    rw [if_neg hbefore, List.take_append, hlength, htake]
    by_cases hafter : buffer.gap ≤ first
    · have hdrop : (buffer.cells.toList.take buffer.gap).drop first = [] :=
        List.drop_of_length_le (by omega)
      rw [if_pos hafter, List.drop_append, hdrop, hlength, List.drop_take, List.drop_drop,
        List.nil_append, List.append_nil]
      have hwidth : last + buffer.gapLength - (first + buffer.gapLength) =
          last - buffer.gap - (first - buffer.gap) := by omega
      have hfrom : first + buffer.gapLength =
          buffer.gap + buffer.gapLength + (first - buffer.gap) := by omega
      rw [hwidth, hfrom]
    · rw [if_neg hafter, List.drop_append_of_le_length (by omega), List.drop_take]
      have hwidth : last + buffer.gapLength - (buffer.gap + buffer.gapLength) =
          last - buffer.gap := by omega
      rw [hwidth]

/-- What is read at one position is what the list holds there. -/
theorem glyphAt?_eq_getElem? {buffer : GapBuffer} (h : buffer.IsValid) (position : Nat) :
    buffer.glyphAt? position = buffer.toList[position]? := by
  rw [glyphAt?]
  split
  · exact (getElem?_toList h position).symm
  · exact (List.getElem?_eq_none (by rw [length_toList h]; omega)).symm

/-- A scan reads the characters of the list. -/
theorem charAt?_source {buffer : GapBuffer} (h : buffer.IsValid) (position : Nat) :
    buffer.source.charAt? position = (buffer.toList[position]?).map (·.char) := by
  rw [← glyphAt?_eq_getElem? h, glyphAt?, Source.charAt?]
  show (if position < buffer.size then _ else _) = _
  split
  · next hlt =>
    have hsome : position < buffer.toList.length := by
      rw [length_toList h]
      exact hlt
    -- The cell of a position of the text is one of the cells.
    have hcell := getElem?_toList h position
    rw [List.getElem?_eq_getElem hsome] at hcell
    rw [← hcell]
    simp only [source, Array.getD_eq_getD_getElem?]
    rw [← hcell]
    rfl
  · rfl

/-! ## Moving and widening the gap -/

/-- Two valid buffers hold the same list when their cells agree position by position. -/
theorem toList_congr {first second : GapBuffer} (hfirst : first.IsValid) (hsecond : second.IsValid)
    (h : ∀ position : Nat, first.cells[first.cellOf position]? =
      second.cells[second.cellOf position]?) : first.toList = second.toList := by
  apply List.ext_getElem?
  intro position
  rw [getElem?_toList hfirst, getElem?_toList hsecond, h]

/-- The gap ends up at the position, or at the end of the text if the position lies after it. -/
@[simp]
theorem gap_moveGap (buffer : GapBuffer) (position : Nat) :
    (buffer.moveGap position).gap = min position buffer.size := by
  obtain ⟨cells, gap, gapLength⟩ := buffer
  simp only [moveGap, size]
  split <;> rfl

/-- Moving the gap keeps its length. -/
@[simp]
theorem gapLength_moveGap (buffer : GapBuffer) (position : Nat) :
    (buffer.moveGap position).gapLength = buffer.gapLength := by
  obtain ⟨cells, gap, gapLength⟩ := buffer
  simp only [moveGap]
  split <;> rfl

/-- Moving the gap keeps the number of cells. -/
@[simp]
theorem size_cells_moveGap (buffer : GapBuffer) (position : Nat) :
    (buffer.moveGap position).cells.size = buffer.cells.size := by
  obtain ⟨cells, gap, gapLength⟩ := buffer
  simp only [moveGap]
  split
  · exact size_copyUp _ _ _ _
  · exact size_copyDown _ _ _ _

/-- Moving the gap keeps a buffer valid. -/
theorem isValid_moveGap {buffer : GapBuffer} (h : buffer.IsValid) (position : Nat) :
    (buffer.moveGap position).IsValid := by
  rw [IsValid, gap_moveGap, gapLength_moveGap, size_cells_moveGap, size]
  simp only [IsValid] at h
  omega

/-- Moving the gap leaves the list as it is. -/
theorem toList_moveGap {buffer : GapBuffer} (h : buffer.IsValid) (position : Nat) :
    (buffer.moveGap position).toList = buffer.toList := by
  refine toList_congr (isValid_moveGap h position) h fun index => ?_
  obtain ⟨cells, gap, gapLength⟩ := buffer
  simp only [IsValid] at h
  simp only [moveGap]
  generalize hplace : min position (cells.size - gapLength) = place
  have hle : place ≤ cells.size - gapLength := by omega
  by_cases hdown : place < gap
  · -- The cells from the place up to the old gap now lie after the new one.
    rw [if_pos hdown]
    simp only [cellOf]
    rw [getElem?_copyUp _ _ _ _ _ (by omega) (by omega)]
    by_cases hbefore : index < place
    · rw [if_pos hbefore, if_neg (by omega), if_pos (by omega)]
    · rw [if_neg hbefore]
      by_cases hmoved : index < gap
      · rw [if_pos (by omega), if_pos hmoved]
        congr 1
        omega
      · rw [if_neg (by omega), if_neg hmoved]
  · -- The cells from the end of the old gap up to the place now lie before the new one.
    rw [if_neg hdown]
    simp only [cellOf]
    rw [getElem?_copyDown _ _ _ _ _ (by omega) (by omega)]
    by_cases hbefore : index < place
    · rw [if_pos hbefore]
      by_cases hmoved : gap ≤ index
      · rw [if_pos (by omega), if_neg (by omega)]
        congr 1
        omega
      · rw [if_neg (by omega), if_pos (by omega)]
    · rw [if_neg hbefore, if_neg (by omega), if_neg (by omega)]

/-- The gap grows at its end. -/
@[simp]
theorem gap_widen (buffer : GapBuffer) (count : Nat) :
    (buffer.widen count).gap = buffer.gap := by
  simp only [widen]
  split <;> rfl

/-- A widened gap has room for that many characters, and for one more. -/
theorem lt_gapLength_widen (buffer : GapBuffer) (count : Nat) :
    count < (buffer.widen count).gapLength := by
  simp only [widen]
  split
  · omega
  · simp only [growth]
    omega

/-- What the cells are once the gap is widened: those before the gap and those from the gap on,
with new cells in between. -/
theorem cells_widen {buffer : GapBuffer} {count : Nat} (hroom : ¬ count + 1 < buffer.gapLength) :
    (buffer.widen count).cells.toList = buffer.cells.toList.take buffer.gap ++
      List.replicate ((count / growth + 1) * growth - buffer.gapLength) .filler ++
      buffer.cells.toList.drop buffer.gap := by
  have hdrop : (buffer.cells.toList.drop buffer.gap).take (buffer.cells.size - buffer.gap) =
      buffer.cells.toList.drop buffer.gap :=
    List.take_of_length_le (Nat.le_of_eq (by rw [List.length_drop, Array.length_toList]))
  rw [widen, if_neg hroom]
  simp only [Array.toList_append, Array.toList_extract, Array.toList_replicate,
    List.extract_eq_take_drop, List.drop_zero, Nat.sub_zero, hdrop]

/-- Widening the gap keeps a buffer valid. -/
theorem isValid_widen {buffer : GapBuffer} (h : buffer.IsValid) (count : Nat) :
    (buffer.widen count).IsValid := by
  by_cases hroom : count + 1 < buffer.gapLength
  · rw [widen, if_pos hroom]
    exact h
  · have hlength : (buffer.widen count).gapLength = (count / growth + 1) * growth := by
      rw [widen, if_neg hroom]
    have hcells := congrArg List.length (cells_widen hroom)
    simp only [List.length_append, List.length_take, List.length_replicate, List.length_drop,
      Array.length_toList] at hcells
    simp only [IsValid] at h
    simp only [growth] at hlength hcells
    rw [IsValid, gap_widen, hlength]
    omega

/-- Widening the gap leaves the list as it is. -/
theorem toList_widen {buffer : GapBuffer} (h : buffer.IsValid) (count : Nat) :
    (buffer.widen count).toList = buffer.toList := by
  by_cases hroom : count + 1 < buffer.gapLength
  · rw [widen, if_pos hroom]
  · have hlength : (buffer.widen count).gapLength = (count / growth + 1) * growth := by
      rw [widen, if_neg hroom]
    have hlonger : buffer.gapLength ≤ (count / growth + 1) * growth := by
      simp only [growth]
      omega
    rw [toList_eq_append (isValid_widen h count), toList_eq_append h, gap_widen, hlength,
      cells_widen hroom]
    generalize (count / growth + 1) * growth = length at *
    have htake := length_take_gap h
    -- With the new cells counted in, the gap ends where the cells after the old one begin.
    have hbefore : (buffer.cells.toList.take buffer.gap ++
        List.replicate (length - buffer.gapLength) Glyph.filler).length =
          buffer.gap + (length - buffer.gapLength) := by
      rw [List.length_append, htake, List.length_replicate]
    have hskip : buffer.gap + length =
        buffer.gap + (length - buffer.gapLength) + buffer.gapLength := by omega
    rw [hskip, ← List.drop_drop, List.drop_left' hbefore, List.append_assoc, List.take_left' htake,
      List.drop_drop]

/-! ## Inserting and deleting -/

/-- Taking in cells after the gap removes what they held. -/
theorem toList_swallow {buffer : GapBuffer} {count : Nat} (h : (buffer.swallow count).IsValid) :
    (buffer.swallow count).toList =
      buffer.toList.take buffer.gap ++ buffer.toList.drop (buffer.gap + count) := by
  have hvalid : buffer.IsValid := by
    simp only [IsValid, swallow] at h ⊢
    omega
  have hlength := length_take_gap hvalid
  have hskip : buffer.toList.drop (buffer.gap + count) =
      (buffer.cells.toList.drop (buffer.gap + buffer.gapLength)).drop count := by
    rw [toList_eq_append hvalid, ← List.drop_drop, List.drop_left' hlength]
  rw [toList_eq_append h, hskip, toList_eq_append hvalid, List.take_left' hlength, List.drop_drop]
  simp only [swallow, Nat.add_assoc]

/-- Written cells hold the text, and no others change. -/
theorem toList_write (cells : Array Glyph) (index : Nat) (text : List Char)
    (h : index + text.length ≤ cells.size) :
    (write cells index text).toList = cells.toList.take index ++ text.map .fresh ++
      cells.toList.drop (index + text.length) := by
  induction text generalizing cells index with
  | nil => simp [write]
  | cons c rest ih =>
    rw [List.length_cons] at h
    have hlt : index < cells.toList.length := by
      rw [Array.length_toList]
      omega
    -- The first character is the last of what lies before the rest.
    rw [write, ih _ _ (by rw [Array.size_setIfInBounds]; omega), Array.toList_setIfInBounds,
      List.take_set, List.drop_set_of_lt (by omega), List.take_succ_eq_append_getElem hlt,
      List.set_append_right _ _ (by rw [List.length_take]; omega), List.length_take,
      Nat.min_eq_left (Nat.le_of_lt hlt), Nat.sub_self]
    simp only [List.set_cons_zero, List.append_assoc, List.map_cons, List.cons_append,
      List.nil_append, List.length_cons]
    congr 4
    omega

/-- Writing keeps the number of cells. -/
@[simp]
theorem size_write (cells : Array Glyph) (index : Nat) (text : List Char) :
    (write cells index text).size = cells.size := by
  induction text generalizing cells index with
  | nil => rfl
  | cons c rest ih => rw [write, ih, Array.size_setIfInBounds]

/-- Filling the gap with a text that it has room for keeps a buffer valid. -/
theorem isValid_fill {buffer : GapBuffer} {text : List Char} (h : buffer.IsValid)
    (hroom : text.length ≤ buffer.gapLength) : (buffer.fill text).IsValid := by
  obtain ⟨cells, gap, gapLength⟩ := buffer
  simp only [IsValid] at h
  simp only at hroom
  simp only [IsValid, fill, size_write]
  omega

/-- Filling the beginning of the gap puts the text where the gap is. -/
theorem toList_fill {buffer : GapBuffer} {text : List Char} (h : buffer.IsValid)
    (hroom : text.length ≤ buffer.gapLength) :
    (buffer.fill text).toList = buffer.toList.take buffer.gap ++ text.map .fresh ++
      buffer.toList.drop buffer.gap := by
  have hvalid := isValid_fill h hroom
  have hlength := length_take_gap h
  rw [toList_eq_append hvalid, toList_eq_append h, List.take_left' hlength,
    List.drop_left' hlength]
  obtain ⟨cells, gap, gapLength⟩ := buffer
  simp only [IsValid] at h
  simp only at hroom hlength
  -- The text is now the end of what lies before the gap, which has become shorter by it.
  have hwritten : (cells.toList.take gap ++ text.map Glyph.fresh).length = gap + text.length := by
    rw [List.length_append, hlength, List.length_map]
  have hskip : (cells.toList.take gap ++ text.map Glyph.fresh ++
      cells.toList.drop (gap + text.length)).drop (gap + text.length + (gapLength - text.length)) =
      cells.toList.drop (gap + gapLength) := by
    rw [← List.drop_drop, List.drop_left' hwritten, List.drop_drop]
    congr 1
    omega
  simp only [fill]
  rw [toList_write _ _ _ (by omega), List.take_left' hwritten, hskip]

/-- Inserting keeps a buffer valid. -/
theorem isValid_insert {buffer : GapBuffer} (h : buffer.IsValid) (position : Nat)
    (text : List Char) : (buffer.insert position text).IsValid :=
  isValid_fill (isValid_widen (isValid_moveGap h position) text.length)
    (Nat.le_of_lt (lt_gapLength_widen _ _))

/-- Inserting into a buffer is inserting into its list. -/
theorem toList_insert {buffer : GapBuffer} (h : buffer.IsValid) (position : Nat)
    (text : List Char) :
    (buffer.insert position text).toList = Glyphs.insert buffer.toList position text := by
  have hmoved := isValid_moveGap h position
  rw [insert, toList_fill (isValid_widen hmoved text.length)
    (Nat.le_of_lt (lt_gapLength_widen _ _)), toList_widen hmoved, toList_moveGap h, gap_widen,
    gap_moveGap, Glyphs.insert, length_toList h]
  rfl

/-- Deleting keeps a buffer valid. -/
theorem isValid_delete {buffer : GapBuffer} (h : buffer.IsValid) (start stop : Nat) :
    (buffer.delete start stop).IsValid := by
  simp only [delete]
  split
  · next hlt =>
    simp only [IsValid, swallow, gap_moveGap, gapLength_moveGap, size_cells_moveGap]
    simp only [IsValid, size] at h hlt ⊢
    omega
  · exact h

/-- Deleting from a buffer is deleting from its list. -/
theorem toList_delete {buffer : GapBuffer} (h : buffer.IsValid) (start stop : Nat) :
    (buffer.delete start stop).toList = Glyphs.delete buffer.toList start stop := by
  have hvalid := isValid_delete h start stop
  simp only [delete, Glyphs.delete, length_toList h] at hvalid ⊢
  split
  · next hlt =>
    rw [if_pos hlt] at hvalid
    have hgap : (buffer.moveGap start).gap = start := by
      rw [gap_moveGap]
      omega
    have hstop : start + (min stop buffer.size - start) = min stop buffer.size := by omega
    rw [toList_swallow hvalid, hgap, toList_moveGap h, splice, List.append_nil, hstop]
  · rfl

/-- What is read as characters between two positions. -/
theorem chars_eq_sliceOf {buffer : GapBuffer} (h : buffer.IsValid) (start stop : Nat) :
    buffer.chars start stop = sliceOf (buffer.toList.map (·.char))
      ((Selection.mk start stop).clamp buffer.size) := by
  rw [chars, glyphs_eq_sliceOf h, sliceOf, sliceOf, List.map_drop, List.map_take]

/-! ## Tags -/

/-- Tagging a character keeps a buffer valid. -/
theorem isValid_setTag {buffer : GapBuffer} (h : buffer.IsValid) (position tag : Nat) :
    (buffer.setTag position tag).IsValid := by
  simp only [setTag]
  split
  · simpa [IsValid] using h
  · exact h

/-- Different positions are held by different cells. -/
theorem cellOf_inj (buffer : GapBuffer) {position other : Nat} :
    buffer.cellOf position = buffer.cellOf other ↔ position = other := by
  simp only [cellOf]
  split <;> split <;> omega

/-- Giving a tag in a buffer is giving it in its list. -/
theorem toList_setTag {buffer : GapBuffer} (h : buffer.IsValid) (position tag : Nat) :
    (buffer.setTag position tag).toList = Glyphs.setTag buffer.toList position tag := by
  apply List.ext_getElem?
  intro index
  rw [getElem?_toList (isValid_setTag h position tag), Glyphs.setTag, List.getElem?_modify]
  simp only [setTag]
  split
  · -- The gap is where it was, so the position still has the same cell.
    show (buffer.cells.modify (buffer.cellOf position) _)[buffer.cellOf index]? = _
    rw [Array.getElem?_modify, getElem?_toList h]
    simp only [cellOf_inj]
    split
    · rfl
    · exact Option.map_id'.symm
  · next hout =>
    rw [← getElem?_toList h]
    split
    · next heq =>
      -- Nothing is held outside the text, so nothing is changed there either.
      subst heq
      rw [List.getElem?_eq_none (by rw [length_toList h]; omega)]
      rfl
    · exact Option.map_id'.symm

/-- Another tag is not another character. -/
theorem map_char_setTag (glyphs : List Glyph) (position tag : Nat) :
    (Glyphs.setTag glyphs position tag).map (·.char) = glyphs.map (·.char) := by
  apply List.ext_getElem?
  intro index
  rw [Glyphs.setTag, List.getElem?_map, List.getElem?_map, List.getElem?_modify]
  split
  · cases glyphs[index]? <;> rfl
  · cases glyphs[index]? <;> rfl

/-- Tags do not change the characters. -/
theorem chars_setTag {buffer : GapBuffer} (h : buffer.IsValid) (position tag : Nat) :
    (buffer.setTag position tag).toList.map (·.char) = buffer.toList.map (·.char) := by
  rw [toList_setTag h, map_char_setTag]

/-- Tagging a range keeps a buffer valid. -/
theorem isValid_setTags {buffer : GapBuffer} (h : buffer.IsValid) (position : Nat)
    (tags : List Nat) : (buffer.setTags position tags).IsValid := by
  induction tags generalizing buffer position with
  | nil => exact h
  | cons tag tags ih => exact ih (isValid_setTag h position tag) (position + 1)

/-- Tags are not characters. -/
theorem chars_setTags {buffer : GapBuffer} (h : buffer.IsValid) (position : Nat)
    (tags : List Nat) :
    (buffer.setTags position tags).toList.map (·.char) = buffer.toList.map (·.char) := by
  induction tags generalizing buffer position with
  | nil => rfl
  | cons tag tags ih =>
    rw [setTags, ih (isValid_setTag h position tag), chars_setTag h]

end GapBuffer

end Emend
