import Emend.Address.Evaluate
import Emend.Proofs.Text.Lines

/-!
# Line addresses and the table of lines

Counting lines forward goes through the table of the text from the line that a range ends in
(`iterate_nextLine`), counting backward from the line that it begins in (`iterate_previousLine`), one
step of the count for each line. Behind the table lies the empty range at the end of the text, before
it the one at the beginning; both stay where they are when the count goes on.

So a line address names an entry of the table (`lineAddress_ranges`): the entry with its number, or
the one that lies as many lines away from the line that holds dot.
-/

namespace Emend

namespace Source

variable {text : Source} {start position index : Nat} {line range dot : Selection}
  {ranges rest : List Selection}

/-- Stopping early changes nothing. -/
theorem repeatStep_eq_iterate {α : Type} [DecidableEq α] (step : α → α) (count : Nat) (state : α) :
    repeatStep step count state = step^[count] state := by
  induction count generalizing state with
  | zero => rfl
  | succ count ih =>
    rw [repeatStep]
    split
    · next hstays => exact (Function.iterate_fixed hstays _).symm
    · exact ih (step state)

/-! ## Steps -/

/-- Counting one line back from a position leads to the start of its line. -/
theorem lineBefore_one (text : Source) (position : Nat) :
    text.lineBefore position 1 = text.lineStart position := by
  cases position <;> rfl

/-- Counting two back leads to the start of the line that ends in front of it. -/
theorem lineBefore_two (text : Source) (position : Nat) :
    text.lineBefore position 2 = text.lineStart (position - 1) := by
  match position with
  | 0 | 1 | _ + 2 => rfl

/-- The first line ends where a scan from its beginning does. -/
theorem Cuts.pastNewline_start (h : Cuts text start (line :: rest)) :
    text.pastNewline start .forward = line.stop := by
  cases h with
  | last _ _ plain => exact pastNewline_of_isPlain plain
  | next _ inside plain ends _ => exact pastNewline_of_newline inside plain ends

/-- From the end of a line a step forward leads to the next one, or stays at the end of the text. -/
theorem Cuts.nextLine (h : Cuts text start (line :: rest)) (hstop : range.stop = line.stop) :
    text.nextLine range = rest.head?.getD (.point text.size) := by
  rw [Source.nextLine, hstop]
  cases h with
  | last _ _ _ =>
    rw [pastNewline_of_isPlain fun other hother hlt => absurd hlt (Nat.not_lt_of_le hother)]
    rfl
  | next _ _ _ _ others =>
    cases rest with
    | nil => cases others
    | cons other more => exact Selection.ext others.start_eq.symm others.pastNewline_start

/-- Counting forward from the end of a line goes through the lines behind it. -/
theorem Cuts.iterate_nextLine (h : Cuts text start (line :: rest)) (hstop : range.stop = line.stop)
    (count : Nat) :
    text.nextLine^[count + 1] range = rest[count]?.getD (.point text.size) := by
  induction count generalizing range line rest start with
  | zero => rw [Function.iterate_one, h.nextLine hstop, List.head?_eq_getElem?]
  | succ count ih =>
    rw [Function.iterate_succ_apply, h.nextLine hstop]
    cases rest with
    | nil =>
      have hlast : line.stop = text.size := by
        cases h with
        | last _ _ _ => rfl
        | next _ _ _ _ others => cases others
      exact ih h hlast.symm
    | cons next more =>
      have hnext : (line :: next :: more)[1]? = some next := rfl
      exact ih (h.drop hnext) rfl

/-- Behind the first line there is one before. -/
theorem exists_before (hline : ranges[index + 1]? = some line) :
    ∃ before, ranges[index]? = some before := by
  obtain ⟨hlt, _⟩ := List.getElem?_eq_some_iff.1 hline
  exact ⟨_, List.getElem?_eq_getElem (Nat.lt_of_succ_lt hlt)⟩

/-- From the start of a line a step back leads to the one before, or to the beginning of the text. -/
theorem Cuts.previousLine (h : Cuts text 0 ranges) (hline : ranges[index]? = some line)
    (hstart : range.start = line.start) :
    text.previousLine range = (if 0 < index then ranges[index - 1]? else none).getD (.point 0) := by
  rw [Source.previousLine, lineBefore_two, hstart]
  cases index with
  | zero =>
    cases ranges with
    | nil => cases hline
    | cons first rest =>
      cases hline
      rw [h.start_eq]
      rfl
  | succ index =>
    obtain ⟨before, hbefore⟩ := exists_before hline
    obtain ⟨hstop, hstart⟩ := h.previous hbefore hline
    rw [if_pos (Nat.succ_pos index), Nat.add_sub_cancel, hbefore, hstart, hstop]
    rfl

/-- Counting backward from the start of a line goes through the lines before it. -/
theorem Cuts.iterate_previousLine (h : Cuts text 0 ranges) (hline : ranges[index]? = some line)
    (hstart : range.start = line.start) (count : Nat) :
    text.previousLine^[count + 1] range =
      (if count < index then ranges[index - (count + 1)]? else none).getD (.point 0) := by
  induction count generalizing range line index with
  | zero => exact h.previousLine hline hstart
  | succ count ih =>
    rw [Function.iterate_succ_apply, h.previousLine hline hstart]
    cases index with
    | zero =>
      -- The count stays before the first line, where the text begins.
      cases ranges with
      | nil => cases hline
      | cons first rest =>
        cases hline
        have hfirst : (line :: rest)[0]? = some line := rfl
        have hstays : (Selection.point 0).start = line.start := h.start_eq.symm
        exact ih hfirst hstays
    | succ index =>
      obtain ⟨before, hbefore⟩ := exists_before hline
      rw [if_pos (Nat.succ_pos index), Nat.add_sub_cancel, hbefore, Option.getD_some,
        ih hbefore rfl]
      simp only [Nat.succ_lt_succ_iff, Nat.add_sub_add_right]

/-! ## What a count names -/

/-- The line of a position ends at or behind it. -/
theorem InLine.le_stop (h : text.InLine position line) (hposition : position ≤ text.size) :
    position ≤ line.stop := by
  rw [← h.ends]
  rcases text.isPlain_or_newline position text.size with
    hplain | ⟨newline, hle, _, hhere, hplain⟩
  · rwa [pastNewline_of_isPlain hplain]
  · rw [pastNewline_of_newline hle hplain hhere]
    exact Nat.le_succ_of_le hle

/-- The line of a position begins where a scan backward ends. -/
theorem InLine.lineStart (h : text.InLine position line) (hposition : position ≤ text.size) :
    text.lineStart position = line.start :=
  lineStart_of_isPlain h.begins h.before hposition h.plain

/-- A count without a sign is an entry of the table. -/
theorem Cuts.lineAt_none (h : Cuts text 0 ranges) (dot : Selection) (count : Nat) :
    text.lineAt dot (count + 1) none = ranges[count]?.getD (.point text.size) := by
  rw [lineAt, repeatStep_eq_iterate]
  cases ranges with
  | nil => cases h
  | cons first rest =>
    have hfirst : (⟨0, text.pastNewline 0 .forward⟩ : Selection) = first :=
      Selection.ext h.start_eq.symm h.pastNewline_start
    rw [hfirst]
    cases count with
    | zero => rfl
    | succ count => exact h.iterate_nextLine rfl count

/-- A minus sign counts from the line that holds the start of dot. -/
theorem Cuts.lineAt_minus (h : Cuts text 0 ranges) (hdot : dot.IsWithin text.size)
    (hholds : Lines.HoldsAt ranges dot.start index line) (count : Nat) :
    text.lineAt dot count (some .minus) =
      if count = 0 then ⟨line.start, dot.start⟩
      else (if count ≤ index then ranges[index - count]? else none).getD (.point 0) := by
  have hposition := Nat.le_trans hdot.1 hdot.2
  have hline := h.inLine hposition hholds
  rw [lineAt, repeatStep_eq_iterate, lineBefore_one, hline.lineStart hposition,
    Nat.min_eq_left hline.before]
  cases count with
  | zero => rfl
  | succ count => exact h.iterate_previousLine hholds.entry rfl count

/-- A plus sign counts from the line that holds dot, if that is empty. -/
theorem Cuts.lineAt_plus (h : Cuts text 0 ranges) (hposition : position ≤ text.size)
    (hholds : Lines.HoldsAt ranges position index line) (count : Nat) :
    text.lineAt (.point position) count (some .plus) =
      if count = 0 then ⟨position, line.stop⟩
      else ranges[index + count]?.getD (.point text.size) := by
  have hline := h.inLine hposition hholds
  have hempty : (Selection.point position).isEmpty = true := beq_self_eq_true position
  rw [lineAt, repeatStep_eq_iterate, hempty, if_pos rfl]
  cases count with
  | zero => exact congrArg (Selection.mk position) hline.ends
  | succ count =>
    rw [(h.drop hholds.entry).iterate_nextLine hline.ends, List.getElem?_drop,
      Nat.add_right_comm index 1]
    rfl

/-- An entry of the table is a range of the text, and so is an end of it in the place of one. -/
theorem Cuts.isWithin_getD (h : Cuts text start ranges) (hposition : position ≤ text.size) :
    (ranges[index]?.getD (.point position)).IsWithin text.size := by
  cases hentry : ranges[index]? with
  | none => exact ⟨Nat.le_refl _, hposition⟩
  | some line => exact (h.isWithin (List.mem_of_getElem? hentry)).2

end Source

/-! ## Written addresses -/

namespace Address

/-- A line address as it is written, with these digits as its number. -/
def writeLine (sign : Option Sign) (digits : List Char) : String :=
  String.ofList ((match sign with | none => [] | some .plus => ['+'] | some .minus => ['-']) ++
    digits)

/-- The address that a written line address is read as. A sign is counted from dot. -/
def ofLine (sign : Option Sign) (count : Nat) : Address :=
  match sign with
  | none => .simple ⟨none, .line count⟩
  | some sign => .chain [.dot, ⟨some sign, .line count⟩]

/-- A number is a token of its own. -/
theorem readAll_digits {digits : List Char} (hsome : digits ≠ [])
    (hdigits : ∀ c ∈ digits, c.isDigit = true) (hfits : decimalValue digits ≤ largestNumber) :
    AddressToken.readAll isBlank digits =
      .ok ([.ofMark (.line (decimalValue digits))], []) := by
  cases digits with
  | nil => exact absurd rfl hsome
  | cons c rest =>
    have hdigit := hdigits c List.mem_cons_self
    have hblank : isBlank c = false := by
      refine Bool.eq_false_iff.2 fun hblank => ?_
      simp only [isBlank, Bool.or_eq_true, beq_iff_eq] at hblank
      rcases hblank with (rfl | rfl) | rfl <;> revert hdigit <;> decide
    have hstarts : AddressToken.starts c = true := by
      rw [AddressToken.starts, hdigit, Bool.or_true]
    have hread : AddressToken.read c rest =
        .ok (.ofMark (.line (decimalValue (c :: rest))), []) := by
      have htake : (c :: rest).takeWhile Char.isDigit = c :: rest :=
        List.takeWhile_eq_self_iff.2 hdigits
      have hdrop : (c :: rest).dropWhile Char.isDigit = [] := List.dropWhile_eq_nil_iff.2 hdigits
      have hnumber : readNumber (c :: rest) = .ok (some (decimalValue (c :: rest)), []) := by
        rw [readNumber, htake, hdrop]
        exact if_pos hfits
      unfold AddressToken.read
      split
      case h_10 =>
        rw [if_pos hdigit, hnumber]
        rfl
      all_goals exact absurd hdigit (by decide)
    rw [AddressToken.readAll_cons hblank hstarts hread, AddressToken.readAll]
    rfl

/-- **A written line address is read as one.** -/
theorem parse_writeLine (sign : Option Sign) {digits : List Char} (hsome : digits ≠ [])
    (hdigits : ∀ c ∈ digits, c.isDigit = true) (hfits : decimalValue digits ≤ largestNumber) :
    parse (writeLine sign digits) = .ok (ofLine sign (decimalValue digits)) := by
  have hread := readAll_digits hsome hdigits hfits
  unfold parse writeLine
  rw [String.toList_ofList]
  match sign with
  | none =>
    dsimp only
    rw [List.nil_append, hread]
    rfl
  | some .plus =>
    dsimp only
    rw [List.singleton_append, AddressToken.readAll_cons rfl rfl rfl, hread]
    rfl
  | some .minus =>
    dsimp only
    rw [List.singleton_append, AddressToken.readAll_cons rfl rfl rfl, hread]
    rfl

/-- A line address counts from dot, brought into the text. -/
theorem evaluate_ofLine (text : Source) (dot : Selection) (sign : Option Sign) (count : Nat) :
    (ofLine sign count).evaluate text dot =
      .ok ((text.lineAt (dot.clamp text.size) count sign).clamp text.size) := by
  cases sign with
  | none => rfl
  | some sign =>
    have hclamp : (dot.clamp text.size).clamp text.size = dot.clamp text.size :=
      Selection.clamp_of_isWithin (dot.clamp_isWithin text.size)
    show Except.ok ((text.lineAt ((dot.clamp text.size).clamp text.size) count
      (some sign)).clamp text.size) = _
    rw [hclamp]

end Address

open Address in
/-- **Line addresses name the entries of the table of lines.** The entries are numbered from one,
and the empty range at the end of the text comes behind them. Every dot starts in one of the lines.
A minus sign counts from there backward, and the empty range at the beginning of the text comes
before the first line; zero lines away lies what the line has before dot. A plus sign counts forward
from an empty dot; zero lines away lies what the line has behind it. And the line and the column of
a position tell where its line begins, which is the line that the number names. -/
theorem lineAddress_ranges (text : Source) :
    (∀ sign digits, digits ≠ [] → (∀ c ∈ digits, c.isDigit = true) →
      decimalValue digits ≤ largestNumber →
      parse (writeLine sign digits) = .ok (ofLine sign (decimalValue digits))) ∧
    (∀ dot count, (ofLine none (count + 1)).evaluate text dot =
      .ok ((Lines.ranges text.toList)[count]?.getD (.point text.size))) ∧
    (∀ dot range : Selection, dot.clamp text.size = range →
      ∃ index line, Lines.HoldsAt (Lines.ranges text.toList) range.start index line ∧
        (ofLine (some .minus) 0).evaluate text dot = .ok ⟨line.start, range.start⟩ ∧
        (∀ count, (ofLine (some .minus) (count + 1)).evaluate text dot =
          .ok ((if count + 1 ≤ index then (Lines.ranges text.toList)[index - (count + 1)]?
            else none).getD (.point 0))) ∧
        (range.isEmpty = true →
          (ofLine (some .plus) 0).evaluate text dot = .ok ⟨range.start, line.stop⟩ ∧
          ∀ count, (ofLine (some .plus) (count + 1)).evaluate text dot =
            .ok ((Lines.ranges text.toList)[index + (count + 1)]?.getD (.point text.size)))) ∧
    ∀ position ≤ text.size, ∀ number column, text.lineOf position false = (number, column) →
      column ≤ position ∧ text.lineStart position = position - column ∧
        ∃ stop, position ≤ stop ∧
          ∀ dot, (ofLine none number).evaluate text dot = .ok ⟨position - column, stop⟩ := by
  -- Counted from the beginning.
  have h := text.cuts_ranges
  have hnone : ∀ dot count, (ofLine none (count + 1)).evaluate text dot =
      .ok ((Lines.ranges text.toList)[count]?.getD (.point text.size)) := by
    intro dot count
    rw [evaluate_ofLine, h.lineAt_none,
      Selection.clamp_of_isWithin (h.isWithin_getD (Nat.le_refl _))]
  refine ⟨fun sign _ => parse_writeLine sign, hnone, fun dot range hrange => ?_,
    fun position hposition number column hplace => ?_⟩
  · -- Counted from the line that dot starts in.
    have hwithin : range.IsWithin text.size := hrange ▸ dot.clamp_isWithin text.size
    have hstart := Nat.le_trans hwithin.1 hwithin.2
    obtain ⟨index, line, hholds⟩ := h.exists_holdsAt (Nat.zero_le range.start)
    have hline := h.inLine hstart hholds
    refine ⟨index, line, hholds, ?_, fun count => ?_, fun hempty => ?_⟩
    · rw [evaluate_ofLine, hrange, h.lineAt_minus hwithin hholds, if_pos rfl,
        Selection.clamp_of_isWithin ⟨hline.before, hstart⟩]
    · rw [evaluate_ofLine, hrange, h.lineAt_minus hwithin hholds, if_neg (Nat.succ_ne_zero count)]
      split
      · rw [Selection.clamp_of_isWithin (h.isWithin_getD (Nat.zero_le _))]
      · rfl
    · -- A count forward begins where an empty dot is.
      have hpoint : range = .point range.start := Selection.ext rfl (beq_iff_eq.1 hempty).symm
      have hplus := h.lineAt_plus hstart hholds
      rw [← hpoint] at hplus
      obtain ⟨_, _, hstop⟩ := h.isWithin (List.mem_of_getElem? hholds.entry)
      have hrest : (⟨range.start, line.stop⟩ : Selection).IsWithin text.size :=
        ⟨hline.le_stop hstart, hstop⟩
      constructor
      · rw [evaluate_ofLine, hrange, hplus, if_pos rfl, Selection.clamp_of_isWithin hrest]
      · intro count
        rw [evaluate_ofLine, hrange, hplus, if_neg (Nat.succ_ne_zero count),
          Selection.clamp_of_isWithin (h.isWithin_getD (Nat.le_refl _))]
  · obtain ⟨index, line, hholds⟩ := h.exists_holdsAt (Nat.zero_le position)
    have hline := h.inLine hposition hholds
    rw [h.lineOf hposition hholds] at hplace
    obtain ⟨rfl, rfl⟩ := Prod.mk.inj hplace
    rw [Nat.sub_sub_self hline.before]
    refine ⟨Nat.sub_le _ _, hline.lineStart hposition, line.stop, hline.le_stop hposition,
      fun dot => ?_⟩
    rw [hnone, hholds.entry, Option.getD_some]

open Address in
/-- Dot at the second line of a text that ends with a newline, a line that holds nothing else. The
line two behind it is the empty one at the end of the text; none lies two before it. -/
theorem lineAddress_ranges_second :
    parse "-2" = .ok (ofLine (some .minus) 2) ∧
      (ofLine (some .minus) 2).evaluate (.ofList "ab\n\nc\n".toList) (.point 3) = .ok ⟨0, 0⟩ ∧
      (ofLine (some .plus) 2).evaluate (.ofList "ab\n\nc\n".toList) (.point 3) = .ok ⟨6, 6⟩ ∧
      Source.lineStart (.ofList "ab\n\nc\n".toList) 4 = 4 := by
  obtain ⟨hparse, _, hdot, hplace⟩ := lineAddress_ranges (.ofList "ab\n\nc\n".toList)
  have htable : Lines.ranges (Source.ofList "ab\n\nc\n".toList).toList =
      [⟨0, 3⟩, ⟨3, 4⟩, ⟨4, 6⟩, ⟨6, 6⟩] := by cbv
  have hsecond : Lines.HoldsAt [⟨0, 3⟩, ⟨3, 4⟩, ⟨4, 6⟩, ⟨6, 6⟩] 3 1 ⟨3, 4⟩ := by
    refine ⟨rfl, Nat.le_refl _, fun other range hentry hbegins => ?_⟩
    -- The third line begins behind the place, and there is no fifth.
    rcases other with _ | _ | _ | _ | other
    · decide
    · decide
    · cases hentry
      exact absurd hbegins (by decide)
    · cases hentry
      exact absurd hbegins (by decide)
    · cases hentry
  obtain ⟨index, line, hholds, _, hminus, hplus⟩ := hdot (.point 3) (.point 3) (by cbv)
  obtain ⟨_, hplus⟩ := hplus rfl
  rw [htable] at hholds hminus hplus
  obtain rfl : index = 1 := hholds.index_eq hsecond
  obtain ⟨_, hstart, _⟩ := hplace 4 (by cbv) 3 0 (by cbv)
  exact ⟨hparse (some .minus) ['2'] (by decide) (List.forall_mem_singleton.2 rfl) (by cbv),
    hminus 1, hplus 1, hstart⟩

end Emend
