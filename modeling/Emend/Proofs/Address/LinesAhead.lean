import Emend.Proofs.Address.Lines

/-!
# Counting lines ahead of a range

A line address with a plus sign counts forward from dot. A dot that is not empty takes up one line
or several, and the one that holds its last character is the line that it ends in. What lies zero
lines away begins at that character. The count itself goes on from the line that dot begins in, for
the scan for the first line end sets out from the start of dot (`Cuts.lineAt_plus_of_lt`). Dot in a
single line cannot tell the two apart; otherwise the count falls short by the number of line ends
before the last character of dot, and names a line of dot itself if it is not larger than that
(`lineAddress_ahead`).
-/

namespace Emend

namespace Source

variable {text : Source} {start position index other : Nat} {line dot : Selection}
  {ranges : List Selection}

/-- The line with a number, counted from zero. Behind the last one lies the end of the text. -/
def lineNumbered (text : Source) (index : Nat) : Selection :=
  (Lines.ranges text.toList)[index]?.getD (.point text.size)

/-- Each line of a table begins behind the ones before it. -/
theorem Cuts.pairwise (h : Cuts text start ranges) :
    ranges.Pairwise fun line next => line.start < next.start := by
  induction h with
  | last _ _ _ => exact List.pairwise_singleton _ _
  | next _ inside _ _ others ih =>
    refine List.pairwise_cons.2 ⟨fun next hnext => ?_, ih⟩
    obtain ⟨hbehind, _⟩ := others.isWithin hnext
    exact Nat.lt_of_lt_of_le (Nat.lt_succ_of_le inside) hbehind

/-- A line of any number lies within the text. -/
theorem lineNumbered_isWithin (text : Source) (index : Nat) :
    (text.lineNumbered index).IsWithin text.size :=
  text.cuts_ranges.isWithin_getD (Nat.le_refl _)

/-- A line with a larger number begins further behind, unless no such line is left. -/
theorem lineNumbered_lt (text : Source) (hlt : index < other) :
    (text.lineNumbered index).start < (text.lineNumbered other).start ∨
      text.lineNumbered other = .point text.size := by
  unfold lineNumbered
  rcases Nat.lt_or_ge other (Lines.ranges text.toList).length with hinside | houtside
  · have hbefore := Nat.lt_trans hlt hinside
    rw [List.getElem?_eq_getElem hinside, List.getElem?_eq_getElem hbefore]
    exact .inl (List.pairwise_iff_getElem.1 text.cuts_ranges.pairwise _ _ hbefore hinside hlt)
  · rw [List.getElem?_eq_none houtside]
    exact .inr rfl

/-- Two numbers stand for the same line only where there is none any more, or nothing behind it. -/
theorem lineNumbered_eq_iff (text : Source) (hle : index ≤ other) :
    text.lineNumbered index = text.lineNumbered other ↔
      index = other ∨ text.lineNumbered index = .point text.size := by
  rcases Nat.eq_or_lt_of_le hle with rfl | hlt
  · exact ⟨fun _ => .inl rfl, fun _ => rfl⟩
  rcases text.lineNumbered_lt hlt with hstart | hend
  · -- A line that begins at the end of the text has none behind it.
    have hinside : (text.lineNumbered other).start ≤ text.size :=
      Nat.le_trans (text.lineNumbered_isWithin other).1 (text.lineNumbered_isWithin other).2
    constructor
    · intro hsame
      rw [hsame] at hstart
      exact absurd hstart (Nat.lt_irrefl _)
    · rintro (rfl | hpoint)
      · rfl
      · rw [hpoint] at hstart
        exact absurd hinside (Nat.not_le_of_lt hstart)
  · rw [hend]
    exact ⟨.inr, fun h => h.resolve_left (Nat.ne_of_lt hlt)⟩

/-- The lines behind a position are those with a larger number than the line that holds it. -/
theorem lt_start_lineNumbered_iff (hinside : position < text.size)
    (hholds : Lines.HoldsAt (Lines.ranges text.toList) position index line) :
    position < (text.lineNumbered other).start ↔ index < other := by
  have hhere : text.lineNumbered index = line := congrArg (Option.getD · _) hholds.entry
  constructor
  · intro hbehind
    refine Nat.lt_of_not_le fun hle => ?_
    rcases Nat.eq_or_lt_of_le hle with rfl | hlt
    · rw [hhere] at hbehind
      exact absurd hholds.begins (Nat.not_le_of_lt hbehind)
    · rcases text.lineNumbered_lt hlt with hstart | hend
      · rw [hhere] at hstart
        exact absurd hholds.begins (Nat.not_le_of_lt (Nat.lt_trans hbehind hstart))
      · have hbegins := hholds.begins
        rw [hhere] at hend
        rw [hend] at hbegins
        exact absurd hbegins (Nat.not_le_of_lt hinside)
  · intro hlt
    refine Nat.lt_of_not_le fun hle => ?_
    rw [lineNumbered] at hle
    cases hentry : (Lines.ranges text.toList)[other]? with
    | none =>
      rw [hentry] at hle
      exact absurd hle (Nat.not_le_of_lt hinside)
    | some next =>
      rw [hentry] at hle
      exact absurd (hholds.last other next hentry hle) (Nat.not_le_of_lt hlt)

/-- A plus sign counts from the line that dot begins in. -/
theorem Cuts.lineAt_plus_of_lt (h : Cuts text 0 ranges) (hdot : dot.IsWithin text.size)
    (hsome : dot.start < dot.stop) (hholds : Lines.HoldsAt ranges dot.start index line)
    (count : Nat) :
    text.lineAt dot count (some .plus) =
      if count = 0 then ⟨dot.stop - 1, line.stop⟩
      else ranges[index + count]?.getD (.point text.size) := by
  have hline := h.inLine (Nat.le_trans hdot.1 hdot.2) hholds
  have hempty : ¬dot.isEmpty = true := fun h => Nat.ne_of_lt hsome (beq_iff_eq.1 h)
  rw [lineAt, repeatStep_eq_iterate, if_neg hempty]
  cases count with
  | zero => exact congrArg (Selection.mk _) hline.ends
  | succ count =>
    rw [(h.drop hholds.entry).iterate_nextLine hline.ends, List.getElem?_drop,
      Nat.add_right_comm index 1]
    rfl

end Source

open Address in
/-- **A count ahead of dot sets out from the line that dot begins in.** Let the first character of
dot lie in the line number `first`, the last one in the line number `last`. Then the number of the
address is added to `first`. Adding it to `last` gives the same exactly if dot lies in one line or
nothing of the text lies that far ahead; and the line begins behind dot exactly if the number is
larger than that of the line ends which dot has before its last character. -/
theorem lineAddress_ahead (text : Source) (dot range : Selection)
    (hrange : dot.clamp text.size = range) (hsome : range.start < range.stop) (digits : List Char)
    (hwritten : digits ≠ []) (hdigits : ∀ c ∈ digits, c.isDigit = true)
    (hfits : decimalValue digits ≤ largestNumber) (hcount : decimalValue digits ≠ 0) :
    ∃ first last begins ends result,
      Lines.HoldsAt (Lines.ranges text.toList) range.start first begins ∧
      Lines.HoldsAt (Lines.ranges text.toList) (range.stop - 1) last ends ∧ first ≤ last ∧
      evaluateAddress (writeLine (some .plus) digits) text dot = .ok result ∧
      result = text.lineNumbered (first + decimalValue digits) ∧
      (result = text.lineNumbered (last + decimalValue digits) ↔
        first = last ∨ result = .point text.size) ∧
      (range.stop ≤ result.start ↔ last < first + decimalValue digits) := by
  have h := text.cuts_ranges
  have hwithin : range.IsWithin text.size := hrange ▸ dot.clamp_isWithin text.size
  have hlast : range.stop - 1 < text.size := by
    have := hwithin.2
    omega
  obtain ⟨first, begins, hfirst⟩ := h.exists_holdsAt (Nat.zero_le range.start)
  obtain ⟨last, ends, hends⟩ := h.exists_holdsAt (Nat.zero_le (range.stop - 1))
  have hle : first ≤ last :=
    hends.last first begins hfirst.entry (Nat.le_trans hfirst.begins (Nat.le_sub_one_of_lt hsome))
  refine ⟨first, last, begins, ends, _, hfirst, hends, hle, ?_, rfl, ?_, ?_⟩
  · have hplus := h.lineAt_plus_of_lt hwithin hsome hfirst (decimalValue digits)
    rw [if_neg hcount] at hplus
    rw [evaluateAddress, parse_writeLine (some .plus) hwritten hdigits hfits]
    show (ofLine (some .plus) (decimalValue digits)).evaluate text dot = _
    rw [evaluate_ofLine, hrange, hplus,
      Selection.clamp_of_isWithin (h.isWithin_getD (Nat.le_refl _))]
    rfl
  · rw [text.lineNumbered_eq_iff (Nat.add_le_add_right hle _), Nat.add_right_cancel_iff]
  · rw [← Source.lt_start_lineNumbered_iff hlast hends]
    omega

open Address in
/-- Two lines are selected, the second with its line end. Two lines ahead of the first one comes the
third, right behind dot, and not the empty line that is two lines ahead of the second one. -/
theorem lineAddress_ahead_second :
    evaluateAddress "+2" (.ofList "a\nb\nc\n".toList) ⟨0, 4⟩ = .ok ⟨4, 6⟩ ∧
      Source.lineNumbered (.ofList "a\nb\nc\n".toList) (1 + 2) ≠ ⟨4, 6⟩ := by
  obtain ⟨first, last, begins, ends, result, hfirst, hends, _, heval, hresult, hlast, _⟩ :=
    lineAddress_ahead (.ofList "a\nb\nc\n".toList) ⟨0, 4⟩ ⟨0, 4⟩ (by cbv) (by decide) ['2']
      (by decide) (List.forall_mem_singleton.2 rfl) (by cbv) (by cbv)
  have htable : Lines.ranges (Source.ofList "a\nb\nc\n".toList).toList =
      [⟨0, 2⟩, ⟨2, 4⟩, ⟨4, 6⟩, ⟨6, 6⟩] := by cbv
  rw [htable] at hfirst hends
  obtain rfl : first = 0 := hfirst.index_eq (.of_drop rfl (Nat.le_refl _) (by decide))
  obtain rfl : last = 1 := hends.index_eq (.of_drop rfl (by decide) (by decide))
  obtain rfl : result = ⟨4, 6⟩ := hresult.trans (by cbv)
  exact ⟨heval, fun hsame => absurd (hlast.1 hsame.symm) (by decide)⟩

open Address in
/-- A count ahead does not set out from the line of the last character of dot. -/
theorem not_lineAddress_ahead_last :
    ¬∀ (text : Source) (dot : Selection) (count last : Nat) (ends : Selection),
      dot.IsWithin text.size → dot.start < dot.stop → 1 ≤ count →
      Lines.HoldsAt (Lines.ranges text.toList) (dot.stop - 1) last ends →
      (ofLine (some .plus) count).evaluate text dot = .ok (text.lineNumbered (last + count)) := by
  intro hall
  have htable : Lines.ranges (Source.ofList "a\nb\nc".toList).toList =
      [⟨0, 2⟩, ⟨2, 4⟩, ⟨4, 5⟩] := by cbv
  have hends : Lines.HoldsAt (Lines.ranges (Source.ofList "a\nb\nc".toList).toList) 3 1 ⟨2, 4⟩ :=
    htable ▸ .of_drop rfl (by decide) (by decide)
  have hsecond := hall (.ofList "a\nb\nc".toList) ⟨0, 4⟩ 1 1 ⟨2, 4⟩ (by cbv) (by decide)
    (Nat.le_refl 1) hends
  have hthere : (ofLine (some .plus) 1).evaluate (.ofList "a\nb\nc".toList) ⟨0, 4⟩ =
      .ok ⟨2, 4⟩ := by cbv
  have hclaimed : Source.lineNumbered (.ofList "a\nb\nc".toList) (1 + 1) = ⟨4, 5⟩ := by cbv
  rw [hthere, hclaimed] at hsecond
  exact absurd (Except.ok.inj hsecond) (by decide)

end Emend
