import Emend.Text.Lines
import Emend.Text.Scan
import Mathlib

/-!
# The table of lines and the scans for them

The ranges of the lines of a text are cut after each newline: `Cuts` says so of ranges from a
position on, with what stands at the cut and what does not stand before it, and the table that
`Lines.ranges` computes is such (`cuts_ranges`). Whatever scans for newlines agrees with a table of
this kind. A scan forward from a position ends where the line ends that holds the position
(`Cuts.pastNewline`), a scan backward where it begins (`Cuts.lineStart`), and counting newlines up
to it gives the number of the line (`Cuts.lineColumn`).
-/

namespace Emend

variable {text : Source} {position start stop newline index : Nat} {line : Selection}
  {ranges rest : List Selection}

namespace Source

/-! ## Scans -/

/-- No newline stands from one position up to another. -/
def IsPlain (text : Source) (start stop : Nat) : Prop :=
  ∀ position, start ≤ position → position < stop → text.charAt? position ≠ some '\n'

/-- A line begins at the beginning of the text and after each newline. -/
def BeginsLine (text : Source) (position : Nat) : Prop :=
  position = 0 ∨ text.charAt? (position - 1) = some '\n'

/-- A part of a text without newlines has none. -/
theorem IsPlain.mono {first last : Nat} (h : text.IsPlain start stop) (hfirst : start ≤ first)
    (hlast : last ≤ stop) : text.IsPlain first last :=
  fun position hposition hinside =>
    h position (Nat.le_trans hfirst hposition) (Nat.lt_of_lt_of_le hinside hlast)

/-- What a search for newlines sees of a plain stretch. -/
theorem IsPlain.get (h : text.IsPlain start stop) (hstart : start ≤ position)
    (hstop : position < stop) (hinside : position < text.size) :
    (text.get position == '\n') = false := by
  rw [beq_eq_false_iff_ne]
  intro heq
  apply h position hstart hstop
  unfold charAt?
  rw [if_pos hinside, heq]

/-- A scan forward ends behind the first newline. -/
theorem pastNewline_of_newline (hposition : position ≤ newline)
    (hplain : text.IsPlain position newline) (hnewline : text.charAt? newline = some '\n') :
    text.pastNewline position .forward = newline + 1 := by
  have hfind : text.findFrom? (· == '\n') position = some newline :=
    findFrom?_char_eq_some_iff.2 ⟨hposition, hnewline, hplain⟩
  rw [pastNewline, hfind]

/-- A scan forward that meets no newline ends with the text. -/
theorem pastNewline_of_isPlain (hplain : text.IsPlain position text.size) :
    text.pastNewline position .forward = text.size := by
  have hfind : text.findFrom? (· == '\n') position = none :=
    findFrom?_eq_none_iff.2 fun other hother hlt => hplain.get hother hlt hlt
  rw [pastNewline, hfind]

/-- The line of a position begins where a line begins and no newline stands between. -/
theorem lineStart_of_isPlain (hbegins : text.BeginsLine start) (hstart : start ≤ position)
    (hposition : position ≤ text.size) (hplain : text.IsPlain start position) :
    text.lineStart position = start := by
  cases position with
  | zero => exact (Nat.le_zero.1 hstart).symm
  | succ position =>
    rw [lineStart, pastNewline, Nat.min_eq_left hposition]
    have hbehind : ∀ other, start ≤ other → other < position + 1 →
        (text.get other == '\n') = false :=
      fun other hother hlt => hplain.get hother hlt (Nat.lt_of_lt_of_le hlt hposition)
    by_cases hzero : start = 0
    · have hfind : text.findBefore? (· == '\n') (position + 1) = none :=
        findBefore?_eq_none_iff.2 fun other => hbehind other (hzero ▸ Nat.zero_le other)
      rw [hfind, hzero]
    · obtain ⟨_, hhere⟩ := get_of_charAt? (hbegins.resolve_left hzero)
      have hfind : text.findBefore? (· == '\n') (position + 1) = some (start - 1) :=
        findBefore?_eq_some_iff.2 ⟨by omega, beq_iff_eq.2 hhere,
          fun other hother => hbehind other (by omega)⟩
      rw [hfind]
      exact Nat.sub_add_cancel (Nat.pos_of_ne_zero hzero)

/-! ## Tables -/

/-- Ranges that cut a text after each newline, from the beginning of a line on. -/
inductive Cuts (text : Source) : Nat → List Selection → Prop where
  /-- No newline is left: the last line goes to the end of the text, and may be empty. -/
  | last {start : Nat} (begins : text.BeginsLine start) (inside : start ≤ text.size)
    (plain : text.IsPlain start text.size) : Cuts text start [⟨start, text.size⟩]
  /-- A line that ends with the first newline, and what comes behind it. -/
  | next {start newline : Nat} {rest : List Selection} (begins : text.BeginsLine start)
    (inside : start ≤ newline) (plain : text.IsPlain start newline)
    (ends : text.charAt? newline = some '\n') (others : Cuts text (newline + 1) rest) :
    Cuts text start (⟨start, newline + 1⟩ :: rest)

/-- What a table says of a position and the line that holds it. -/
structure InLine (text : Source) (position : Nat) (line : Selection) : Prop where
  /-- The line begins the text, or behind a newline. -/
  begins : text.BeginsLine line.start
  /-- It begins at or before the position. -/
  before : line.start ≤ position
  /-- No newline stands between. -/
  plain : text.IsPlain line.start position
  /-- It ends with the next newline, or with the text. -/
  ends : text.pastNewline position .forward = line.stop

namespace Cuts

/-- The lines lie within the text, none of them before the first. -/
theorem isWithin (h : Cuts text start ranges) (hmem : line ∈ ranges) :
    start ≤ line.start ∧ line.IsWithin text.size := by
  induction h with
  | last _ inside _ =>
    obtain rfl := List.mem_singleton.1 hmem
    exact ⟨Nat.le_refl _, inside, Nat.le_refl _⟩
  | next _ inside _ ends _ ih =>
    rcases List.mem_cons.1 hmem with rfl | hlater
    · exact ⟨Nat.le_refl _, Nat.le_succ_of_le inside, lt_size_of_charAt? ends⟩
    · obtain ⟨hstart, hwithin⟩ := ih hlater
      exact ⟨Nat.le_trans (Nat.le_succ_of_le inside) hstart, hwithin⟩

/-- A table can be read from any of its lines on. -/
theorem drop (h : Cuts text start ranges) (hentry : ranges[index]? = some line) :
    Cuts text line.start (line :: ranges.drop (index + 1)) := by
  induction h generalizing index with
  | last begins inside plain =>
    cases index with
    | zero =>
      cases hentry
      exact .last begins inside plain
    | succ index => cases hentry
  | next begins inside plain ends others ih =>
    cases index with
    | zero =>
      cases hentry
      exact .next begins inside plain ends others
    | succ index => exact ih hentry

/-- The first line begins where the table does. -/
theorem start_eq (h : Cuts text start (line :: rest)) : line.start = start := by
  cases h <;> rfl

/-- The line that holds a position, seen from there. -/
theorem inLine (h : Cuts text start ranges) (hposition : position ≤ text.size)
    (hholds : Lines.HoldsAt ranges position index line) : text.InLine position line := by
  obtain ⟨hentry, hbefore, hlast⟩ := hholds
  have hdrop := h.drop hentry
  generalize hrest : ranges.drop (index + 1) = rest at hdrop
  generalize hstart : line.start = first at hdrop
  cases hdrop with
  | last begins _ plain =>
    exact ⟨begins, hbefore, plain.mono (Nat.le_refl _) hposition,
      pastNewline_of_isPlain (plain.mono hbefore (Nat.le_refl _))⟩
  | @next _ newline rest begins _ plain ends others =>
    -- The next line begins behind the newline, so the position does not lie there.
    have hle : position ≤ newline := by
      cases hothers : rest with
      | nil =>
        rw [hothers] at others
        cases others
      | cons next more =>
        rw [hothers] at others hrest
        have hnext : ranges[index + 1]? = some next := by
          rw [← Nat.add_zero (index + 1), ← List.getElem?_drop, hrest]
          rfl
        refine Nat.le_of_not_lt fun hlt => ?_
        have hfurther := hlast (index + 1) next hnext (others.start_eq.symm ▸ hlt)
        exact Nat.not_succ_le_self _ hfurther
    exact ⟨begins, hbefore, plain.mono (Nat.le_refl _) hle,
      pastNewline_of_newline hle (plain.mono hbefore (Nat.le_refl _)) ends⟩

/-- Each line begins where the one before it ends, and that one holds the position before. -/
theorem previous (h : Cuts text start ranges) {before : Selection}
    (hbefore : ranges[index]? = some before) (hline : ranges[index + 1]? = some line) :
    line.start = before.stop ∧ text.lineStart (line.start - 1) = before.start := by
  have hdrop := h.drop hbefore
  have hnext : (ranges.drop (index + 1))[0]? = some line := by
    rw [List.getElem?_drop]
    exact hline
  generalize ranges.drop (index + 1) = rest at hdrop hnext
  obtain ⟨first, stop⟩ := before
  cases hdrop with
  | last => cases hnext
  | @next _ newline rest begins inside plain ends others =>
    cases rest with
    | nil => cases hnext
    | cons other more =>
      obtain rfl : other = line := Option.some.inj hnext
      have hsize := lt_size_of_charAt? ends
      rw [others.start_eq]
      exact ⟨rfl, lineStart_of_isPlain begins inside (Nat.le_of_lt hsize) plain⟩

/-- Every position from the beginning of a table on lies in one of its lines. -/
theorem exists_holdsAt (h : Cuts text start ranges) (hstart : start ≤ position) :
    ∃ index line, Lines.HoldsAt ranges position index line := by
  induction h with
  | @last start _ _ _ =>
    refine ⟨0, ⟨start, text.size⟩, rfl, hstart, fun other range hentry _ => ?_⟩
    obtain ⟨hother, _⟩ := List.getElem?_eq_some_iff.1 hentry
    exact Nat.le_of_lt_succ hother
  | @next start newline rest _ _ _ _ others ih =>
    by_cases hle : position ≤ newline
    · refine ⟨0, ⟨start, newline + 1⟩, rfl, hstart, fun other range hentry hbegins => ?_⟩
      -- The other lines begin behind the newline.
      cases other with
      | zero => exact Nat.le_refl _
      | succ other =>
        have hmem : range ∈ rest := List.mem_of_getElem? hentry
        obtain ⟨hbehind, _⟩ := others.isWithin hmem
        omega
    · obtain ⟨index, line, hentry, hbegins, hlast⟩ := ih (Nat.lt_of_not_le hle)
      refine ⟨index + 1, line, hentry, hbegins, fun other range hother hrange => ?_⟩
      cases other with
      | zero => exact Nat.zero_le _
      | succ other => exact Nat.succ_le_succ (hlast other range hother hrange)

end Cuts

/-! ## The table of a text -/

/-- A stretch is plain or has a first newline. -/
theorem isPlain_or_newline (text : Source) (start stop : Nat) :
    text.IsPlain start stop ∨ ∃ newline, start ≤ newline ∧ newline < stop ∧
      text.charAt? newline = some '\n' ∧ text.IsPlain start newline := by
  by_cases hsome : ∃ newline, start ≤ newline ∧ newline < stop ∧ text.charAt? newline = some '\n'
  · refine .inr ⟨Nat.find hsome, ?_⟩
    obtain ⟨hstart, hstop, hhere⟩ := Nat.find_spec hsome
    refine ⟨hstart, hstop, hhere, fun other hother hlt hnewline => ?_⟩
    exact Nat.find_min hsome hlt ⟨hother, Nat.lt_trans hlt hstop, hnewline⟩
  · exact .inl fun other hother hlt hnewline => hsome ⟨other, hother, hlt, hnewline⟩

/-- The text of a plain stretch has no newline. -/
theorem IsPlain.notMem_slice (h : text.IsPlain start stop) : '\n' ∉ text.slice start stop := by
  intro hmem
  obtain ⟨offset, hoffset⟩ := List.mem_iff_getElem?.1 hmem
  rw [getElem?_slice] at hoffset
  split at hoffset
  · next hlt => exact h (start + offset) (Nat.le_add_right _ _) hlt hoffset
  · cases hoffset

/-- A stretch with a newline in it, cut there. -/
theorem slice_of_newline (hstart : start ≤ newline) (hstop : newline < stop)
    (hhere : text.charAt? newline = some '\n') :
    text.slice start stop =
      text.slice start newline ++ '\n' :: text.slice (newline + 1) stop := by
  rw [← text.slice_append hstart (Nat.le_of_lt hstop),
    ← text.slice_append (Nat.le_succ newline) hstop, slice_singleton hhere, List.singleton_append]

/-- **The table of a text cuts it after each newline.** -/
theorem cuts_rangesFrom (hbegins : text.BeginsLine start) (hstart : start ≤ text.size) :
    Cuts text start (Lines.rangesFrom start (Lines.lines (text.slice start text.size))) := by
  induction hleft : text.size - start using Nat.strongRecOn generalizing start with
  | ind count ih =>
    rcases text.isPlain_or_newline start text.size with
      hplain | ⟨newline, hnewline, hinside, hhere, hplain⟩
    · have hstop : start + (text.size - start) = text.size := Nat.add_sub_cancel' hstart
      rw [Lines.lines_of_notMem hplain.notMem_slice, Lines.rangesFrom, Lines.rangesFrom,
        length_slice, Nat.min_self, hstop]
      exact .last hbegins hstart hplain
    · have hstop : start + (newline - start + 1) = newline + 1 := by omega
      rw [slice_of_newline hnewline hinside hhere, Lines.lines_append hplain.notMem_slice,
        Lines.rangesFrom, List.length_append, length_slice, List.length_singleton,
        Nat.min_eq_left (Nat.le_of_lt hinside), hstop]
      exact .next hbegins hnewline hplain hhere
        (ih _ (by omega) (.inr hhere) (Nat.succ_le_of_lt hinside) rfl)

/-- The ranges of the lines cut the whole text. -/
theorem cuts_ranges (text : Source) : Cuts text 0 (Lines.ranges text.toList) :=
  cuts_rangesFrom (.inl rfl) (Nat.zero_le _)

/-! ## Counting lines -/

/-- What a character does to the line and the column, if it is as wide as `width` says. -/
def stepOver (width : Char → Nat) (place : Nat × Nat) (c : Char) : Nat × Nat :=
  if c = '\n' then (place.1 + 1, 0) else (place.1, place.2 + width c)

/-- Line and column are counted by one pass over the characters. -/
theorem lineColumn_eq_foldl (width : Char → Nat) (chars : List Char) :
    lineColumn width chars = chars.foldl (stepOver width) (1, 0) :=
  rfl

/-- Without a newline the line stays. -/
theorem foldl_stepOver_of_notMem {width : Char → Nat} {chars : List Char} (h : '\n' ∉ chars)
    (place : Nat × Nat) :
    chars.foldl (stepOver width) place = (place.1, place.2 + (chars.map width).sum) := by
  induction chars generalizing place with
  | nil => rfl
  | cons c rest ih =>
    obtain ⟨hc, hrest⟩ := List.ne_and_not_mem_of_not_mem_cons h
    rw [List.foldl_cons, ih hrest, stepOver, if_neg (Ne.symm hc), List.map_cons, List.sum_cons]
    exact Prod.ext rfl (Nat.add_assoc _ _ _)

/-- Up to the beginning of a line there are as many newlines as lines. -/
theorem Cuts.foldl_stepOver (h : Cuts text start ranges) (hentry : ranges[index]? = some line)
    (width : Char → Nat) (number : Nat) :
    (text.slice start line.start).foldl (stepOver width) (number, 0) = (number + index, 0) := by
  induction h generalizing index number with
  | last _ _ _ =>
    cases index with
    | zero =>
      cases hentry
      rw [slice_self]
      rfl
    | succ index => cases hentry
  | next _ inside plain ends others ih =>
    cases index with
    | zero =>
      cases hentry
      rw [slice_self]
      rfl
    | succ index =>
      obtain ⟨hbehind, _⟩ := others.isWithin (List.mem_of_getElem? hentry)
      rw [slice_of_newline inside hbehind ends, List.foldl_append,
        foldl_stepOver_of_notMem plain.notMem_slice, List.foldl_cons, stepOver, if_pos rfl,
        ih hentry, Nat.add_assoc, Nat.add_comm 1]

/-- **The line and the column of a position**: the number of the line that holds it, counted from
one, and how wide the text is that the line has before it. -/
theorem Cuts.lineColumn (h : Cuts text 0 ranges) (hposition : position ≤ text.size)
    (hholds : Lines.HoldsAt ranges position index line) (width : Char → Nat) :
    Source.lineColumn width (text.slice 0 position) =
      (index + 1, ((text.slice line.start position).map width).sum) := by
  have hline := h.inLine hposition hholds
  rw [lineColumn_eq_foldl, ← text.slice_append (Nat.zero_le _) hline.before, List.foldl_append,
    h.foldl_stepOver hholds.entry, foldl_stepOver_of_notMem hline.plain.notMem_slice, Nat.zero_add,
    Nat.add_comm]

/-- A column counts the characters before the position in its line. -/
theorem Cuts.lineOf (h : Cuts text 0 ranges) (hposition : position ≤ text.size)
    (hholds : Lines.HoldsAt ranges position index line) :
    text.lineOf position false = (index + 1, position - line.start) := by
  unfold Source.lineOf
  dsimp only
  rw [h.lineColumn hposition hholds]
  simp only [Bool.false_and, Bool.false_eq_true, if_false, List.map_const', List.sum_replicate,
    length_slice, smul_eq_mul, mul_one, Nat.min_eq_left hposition]

end Source

end Emend
