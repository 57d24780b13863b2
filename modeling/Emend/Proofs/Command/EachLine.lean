import Emend.Proofs.Command.Visiting
import Emend.Proofs.Pattern.Greedy
import Emend.Proofs.Pattern.Window
import Emend.Proofs.Text.Lines

/-!
# Loops without a pattern

A loop that is written without a pattern looks for `linesPattern`, a choice between the rest of a
line with its newline and a part of a line without one. The pattern is steady and asserts nothing, so
from each place the preferred way is found in the text up to the end of the range
(`matchAt_eq_preferred_upTo`). If a newline is left there, the way goes through it
(`matchAt_newline`), and otherwise to the end (`matchAt_plain`); a newline behind the range does not
count. By induction on what is left of the range, the matches are its pieces, cut after each newline
(`successive_linesRegex`).
-/

namespace Emend

open Machine

/-- The tree of the pattern for lines: the rest of a line with its newline, or else what there is of
a line. -/
def linesNode : Node :=
  .group (some 0) [[.loop .zeroOrMore true (.oneOf .dot), .char '\n'],
    [.loop .oneOrMore true (.oneOf .dot)]]

/-- The pattern for lines, ready to run. -/
def linesRegex : Regex :=
  .ofProgram linesPattern (Regex.programOf linesNode true false) false

/-- The pattern for lines stands for this tree. -/
theorem parse_linesPattern : Pattern.parse linesPattern = .ok linesNode := by
  cbv

/-- The pattern for lines compiles to this program. -/
theorem compile_linesPattern : Regex.compile linesPattern true false = .ok linesRegex :=
  compile_of_parse parse_linesPattern true false

/-- The program for lines has no assertion. -/
theorem assertsNothing_linesRegex : assertsNothing linesRegex.program = true := by
  cbv

variable {text : Source} {position stop newline count : Nat}

/-- The characters up to the end of a line are all that a dot covers from there. -/
theorem covers_dot (hplain : text.IsPlain position (position + count))
    (hsize : position + count ≤ text.size)
    (hends : (text.charAt? (position + count)).all (· == '\n') = true) :
    CharClass.dot.Covers text position count := by
  constructor
  · intro place hplace hlt
    have hhere : text.charAt? place = some (text.get place) :=
      if_pos (Nat.lt_of_lt_of_le hlt hsize)
    have hother := hplain place hplace hlt
    rw [hhere] at hother ⊢
    rw [Option.any_some, CharClass.contains_dot, bne_iff_ne]
    exact fun heq => hother (congrArg some heq)
  · cases hhere : text.charAt? (position + count) with
    | none => rfl
    | some c =>
      rw [hhere] at hends
      rw [Option.any_some, CharClass.contains_dot, beq_iff_eq.1 hends]
      rfl

/-- The ways to match a line from a place in it: with its newline, or what is left of it, a longer
part before a shorter one. -/
theorem ways_linesNode (h : CharClass.dot.Covers text position count) :
    linesNode.ways text ⟨position, [none, none]⟩ =
      ((if text.charAt? (position + count) = some '\n' then
          [(⟨position + count + 1, [some position, none]⟩ : Way)] else []) ++
        Node.endingDown (position + 1) count [some position, none]).map (·.note 1) := by
  have hfirst := Node.waysOfRow_zeroOrMore_char h (CharClass.contains_dot '\n')
    [some position, none]
  have hsecond : Node.waysOfRow text [.loop .oneOrMore true (.oneOf .dot)]
      ⟨position, [some position, none]⟩ =
      Node.endingDown (position + 1) count [some position, none] := by
    rw [Node.waysOfRow_singleton, Node.ways_oneOrMore h]
  unfold linesNode
  rw [Node.ways, Node.waysOfBranches, Node.waysOfBranches, Node.waysOfBranches, List.append_nil]
  show List.map _ (Node.waysOfRow text _ ⟨position, [some position, none]⟩ ++
    Node.waysOfRow text _ ⟨position, [some position, none]⟩) = _
  rw [hfirst, hsecond]

/-- The preferred way is the first. -/
theorem preferredAt?_linesNode (h : CharClass.dot.Covers text position count) :
    linesNode.preferredAt? text 2 position =
      if text.charAt? (position + count) = some '\n' then
        some ⟨position + count + 1, [some position, some (position + count + 1)]⟩
      else if count = 0 then none
      else some ⟨position + count, [some position, some (position + count)]⟩ := by
  have hways := ways_linesNode h
  unfold Node.preferredAt?
  rw [show List.replicate 2 (none : Option Nat) = [none, none] from rfl, hways]
  split
  · rfl
  · cases count with
    | zero => rfl
    | succ count =>
      rw [Node.endingDown_succ, Nat.add_right_comm]
      rfl

/-- A search for lines finds the preferred way in the text up to its bound. -/
theorem matchAt_linesRegex_eq (hposition : position ≤ stop) (hstop : stop ≤ text.size) :
    (linesRegex.matchAt text position stop .forward).map (·.slots.toList) =
      ((List.range' position (stop + 1 - position)).findSome?
        (linesNode.preferredAt? (text.upTo stop) 2)).map (·.slots) :=
  matchAt_eq_preferred_upTo compile_linesPattern parse_linesPattern (by decide)
    assertsNothing_linesRegex hposition hstop

/-- What is preferred at a place is found from there. -/
theorem matchAt_linesRegex {last : Nat} (hposition : position ≤ stop) (hstop : stop ≤ text.size)
    (hpreferred : linesNode.preferredAt? (text.upTo stop) 2 position =
      some ⟨last, [some position, some last]⟩) :
    ∃ captures, linesRegex.matchAt text position stop .forward = some captures ∧
      captures.range = ⟨position, last⟩ := by
  have hsearch := matchAt_linesRegex_eq hposition hstop
  have hplaces : List.range' position (stop + 1 - position) =
      position :: List.range' (position + 1) (stop - position) := by
    rw [Nat.succ_sub hposition, List.range'_succ]
  rw [hplaces, List.findSome?_cons, hpreferred] at hsearch
  obtain ⟨captures, hcaptures, hslots⟩ := Option.map_eq_some_iff.1 hsearch
  have hzero : captures.slots[0]? = some (some position) := by
    rw [← Array.getElem?_toList, hslots]
    rfl
  have hone : captures.slots[1]? = some (some last) := by
    rw [← Array.getElem?_toList, hslots]
    rfl
  obtain ⟨hstart, hlast, _⟩ := captures_whole hzero hone
  exact ⟨captures, hcaptures, Selection.ext hstart hlast⟩

/-! ## Line by line -/

/-- What a dot covers in a part of the text, up to a newline or to the end of the part. -/
theorem covers_dot_upTo {last : Nat} (hposition : position ≤ last) (hlast : last ≤ stop)
    (hstop : stop ≤ text.size) (hplain : text.IsPlain position last)
    (hends : last < stop → text.charAt? last = some '\n') :
    CharClass.dot.Covers (text.upTo stop) position (last - position) := by
  have hsum : position + (last - position) = last := Nat.add_sub_cancel' hposition
  refine covers_dot ?_ ?_ ?_
  · intro place hplace hlt
    rw [hsum] at hlt
    rw [Source.charAt?_upTo, if_pos (Nat.lt_of_lt_of_le hlt hlast)]
    exact hplain place hplace hlt
  · rw [hsum, Source.size_upTo hstop]
    exact hlast
  · rw [hsum, Source.charAt?_upTo]
    split
    · next hlt =>
      rw [hends hlt]
      rfl
    · rfl

/-- A line is found with the newline that ends it. -/
theorem matchAt_newline (hposition : position ≤ newline) (hnewline : newline < stop)
    (hstop : stop ≤ text.size) (hplain : text.IsPlain position newline)
    (hhere : text.charAt? newline = some '\n') :
    ∃ captures, linesRegex.matchAt text position stop .forward = some captures ∧
      captures.range = ⟨position, newline + 1⟩ := by
  have hcovers := covers_dot_upTo hposition (Nat.le_of_lt hnewline) hstop hplain fun _ => hhere
  refine matchAt_linesRegex (Nat.le_trans hposition (Nat.le_of_lt hnewline)) hstop ?_
  have hends : (text.upTo stop).charAt? newline = some '\n' := by
    rw [Source.charAt?_upTo, if_pos hnewline, hhere]
  rw [preferredAt?_linesNode hcovers, Nat.add_sub_cancel' hposition, if_pos hends]

/-- The last line is found without a newline. -/
theorem matchAt_plain (hposition : position < stop) (hstop : stop ≤ text.size)
    (hplain : text.IsPlain position stop) :
    ∃ captures, linesRegex.matchAt text position stop .forward = some captures ∧
      captures.range = ⟨position, stop⟩ := by
  have hle := Nat.le_of_lt hposition
  have hcovers := covers_dot_upTo hle (Nat.le_refl stop) hstop hplain
    fun hlt => absurd hlt (Nat.lt_irrefl stop)
  have hends : (text.upTo stop).charAt? stop = none := by
    rw [Source.charAt?_upTo, if_neg (Nat.lt_irrefl stop)]
  refine matchAt_linesRegex hle hstop ?_
  rw [preferredAt?_linesNode hcovers, Nat.add_sub_cancel' hle, hends, if_neg nofun,
    if_neg (Nat.sub_ne_zero_of_lt hposition)]

/-- No line is left at the end. -/
theorem matchAt_end (hstop : stop ≤ text.size) :
    linesRegex.matchAt text stop stop .forward = none := by
  have hplain : text.IsPlain stop stop :=
    fun place hplace hlt => absurd hplace (Nat.not_le_of_lt hlt)
  have hcovers := covers_dot_upTo (Nat.le_refl stop) (Nat.le_refl stop) hstop hplain
    fun hlt => absurd hlt (Nat.lt_irrefl stop)
  have hends : (text.upTo stop).charAt? stop = none := by
    rw [Source.charAt?_upTo, if_neg (Nat.lt_irrefl stop)]
  have hpreferred : linesNode.preferredAt? (text.upTo stop) 2 stop = none := by
    rw [preferredAt?_linesNode hcovers, Nat.sub_self, Nat.add_zero, hends, if_neg nofun, if_pos rfl]
  have hsearch := matchAt_linesRegex_eq (Nat.le_refl stop) hstop
  rw [Nat.add_sub_cancel_left, List.range'_one, List.findSome?_cons, hpreferred] at hsearch
  exact Option.map_eq_none_iff.1 hsearch

/-- A match that takes something is the first of the successive ones. -/
theorem successive_of_matchAt {regex : Regex} {captures : Captures} {last : Nat}
    (hposition : position ≤ stop)
    (hmatch : regex.matchAt text position stop .forward = some captures)
    (hrange : captures.range = ⟨position, last⟩) (hlast : position < last) :
    (regex.successive text position stop).map (·.range) =
      ⟨position, last⟩ :: (regex.successive text last stop).map (·.range) := by
  have hstart : captures.start = position := congrArg Selection.start hrange
  have hstop : captures.stop = last := congrArg Selection.stop hrange
  have hresume : captures.resumeAt = last := by
    unfold Captures.resumeAt
    rw [hstart, hstop, if_neg (Nat.ne_of_lt hlast)]
  rw [Regex.successive, if_pos hposition]
  split
  · next hnone =>
    rw [hmatch] at hnone
    cases hnone
  · next found hfound =>
    rw [hmatch] at hfound
    cases hfound
    rw [hresume, if_pos hlast, List.map_cons, hrange]

/-- Without a match there are no successive ones. -/
theorem successive_eq_nil {regex : Regex}
    (hmatch : regex.matchAt text position stop .forward = none) :
    regex.successive text position stop = [] := by
  rw [Regex.successive]
  split
  · split
    · rfl
    · next found hfound =>
      rw [hmatch] at hfound
      cases hfound
  · rfl

/-- **The matches of the pattern for lines are the pieces of the text.** -/
theorem successive_linesRegex (hposition : position ≤ stop) (hstop : stop ≤ text.size) :
    (linesRegex.successive text position stop).map (·.range) =
      Lines.rangesFrom position (Lines.pieces (text.slice position stop)) := by
  induction hleft : stop - position using Nat.strongRecOn generalizing position with
  | ind left ih =>
    rcases text.isPlain_or_newline position stop with
      hplain | ⟨newline, hnewline, hinside, hhere, hplain⟩
    · rcases Nat.eq_or_lt_of_le hposition with rfl | hlt
      · rw [successive_eq_nil (matchAt_end hstop), Source.slice_self]
        rfl
      · obtain ⟨captures, hmatch, hrange⟩ := matchAt_plain hlt hstop hplain
        have hsome : text.slice position stop ≠ [] := by
          rw [← List.length_pos_iff, Source.length_slice, Nat.min_eq_left hstop]
          exact Nat.sub_pos_of_lt hlt
        rw [successive_of_matchAt hposition hmatch hrange hlt, successive_eq_nil (matchAt_end hstop),
          Lines.pieces_of_notMem hplain.notMem_slice hsome, Lines.rangesFrom, Lines.rangesFrom,
          Source.length_slice, Nat.min_eq_left hstop, Nat.add_sub_cancel' hposition]
        rfl
    · obtain ⟨captures, hmatch, hrange⟩ := matchAt_newline hnewline hinside hstop hplain hhere
      have hlength : position + (newline - position + 1) = newline + 1 := by omega
      rw [successive_of_matchAt hposition hmatch hrange (Nat.lt_succ_of_le hnewline),
        ih _ (by omega) hinside rfl, Source.slice_of_newline hnewline hinside hhere,
        Lines.pieces_append hplain.notMem_slice, Lines.rangesFrom, List.length_append,
        Source.length_slice, List.length_singleton,
        Nat.min_eq_left (Nat.le_trans (Nat.le_of_lt hinside) hstop), hlength]

/-! ## Pieces as ranges -/

namespace Lines

variable {start : Nat} {pieces : List (List Char)}

/-- The ranges of pieces fill up the range of the whole. -/
theorem tiles_rangesFrom (start : Nat) (pieces : List (List Char)) :
    Tiles start (rangesFrom start pieces) (start + pieces.flatten.length) := by
  induction pieces generalizing start with
  | nil => rfl
  | cons piece rest ih =>
    refine ⟨rfl, Nat.le_add_right _ _, ?_⟩
    rw [List.flatten_cons, List.length_append, ← Nat.add_assoc]
    exact ih (start + piece.length)

/-- The ranges of pieces hold the pieces. -/
theorem map_slice_rangesFrom (hstop : stop ≤ text.size)
    (hlength : start + pieces.flatten.length = stop)
    (hpieces : text.slice start stop = pieces.flatten) :
    (rangesFrom start pieces).map (fun range => text.slice range.start range.stop) = pieces := by
  induction pieces generalizing start with
  | nil => rfl
  | cons piece rest ih =>
    rw [List.flatten_cons, List.length_append, ← Nat.add_assoc] at hlength
    have hmiddle : start + piece.length ≤ stop := hlength ▸ Nat.le_add_right _ _
    rw [List.flatten_cons, ← text.slice_append (Nat.le_add_right _ _) hmiddle] at hpieces
    have hfirst : (text.slice start (start + piece.length)).length = piece.length := by
      rw [Source.length_slice, Nat.min_eq_left (Nat.le_trans hmiddle hstop),
        Nat.add_sub_cancel_left]
    obtain ⟨hpiece, hrest⟩ := List.append_inj hpieces hfirst
    rw [rangesFrom, List.map_cons, hpiece, ih hlength hrest]

/-- None of them is empty if no piece is. -/
theorem lt_of_mem_rangesFrom (hsome : ∀ piece ∈ pieces, piece ≠ []) {range : Selection}
    (hmem : range ∈ rangesFrom start pieces) : range.start < range.stop := by
  induction pieces generalizing start with
  | nil => cases hmem
  | cons piece rest ih =>
    rcases List.mem_cons.1 hmem with rfl | hlater
    · exact Nat.lt_add_of_pos_right (List.length_pos_iff.2 (hsome piece List.mem_cons_self))
    · exact ih (fun other hother => hsome other (List.mem_cons_of_mem _ hother)) hlater

end Lines

namespace Run

variable {σ : Type}

/-- **A loop without a pattern visits the lines of its range.** -/
theorem execute_visits_lines :
    (∀ program command, Command.parse program = .ok command →
      command.DefaultsMeet Command.FindsLines) ∧
    ∀ regex, Command.FindsLines regex → ∀ (text : Source) (window : Selection),
      window.IsWithin text.size →
      regex.matchesIn text window = Lines.rangesFrom window.start
          (Lines.pieces (text.slice window.start window.stop)) ∧
      (regex.matchesIn text window).map (fun range => text.slice range.start range.stop) =
          Lines.pieces (text.slice window.start window.stop) ∧
      (∀ range ∈ regex.matchesIn text window, range.start < range.stop) ∧
      (regex.matchesIn text window).Nodup ∧
      Tiles window.start (regex.matchesIn text window) window.stop ∧
      (regex.matchesIn text window).flatMap
          (fun range => text.slice range.start range.stop) =
        text.slice window.start window.stop ∧
      ∀ (σ : Type) (env : Environment σ) (collecting : Bool) (range : Address) (body : Command)
        (session : Session σ), session.document.source = text →
        range.evaluate text session.dot = .ok window →
        execute env collecting (.visit .eachMatch range none regex body) session =
          visiting env collecting .eachMatch body
            (Lines.rangesFrom window.start (Lines.pieces (text.slice window.start window.stop)))
            { session with dot := window } := by
  refine ⟨fun program command hparse => Command.defaultsMeet_parse hparse, ?_⟩
  intro regex hlines text window hwindow
  obtain rfl : linesRegex = regex := Except.ok.inj (compile_linesPattern.symm.trans hlines)
  have hmatches : linesRegex.matchesIn text window =
      Lines.rangesFrom window.start (Lines.pieces (text.slice window.start window.stop)) :=
    successive_linesRegex hwindow.1 hwindow.2
  have hflatten := Lines.flatten_pieces (text.slice window.start window.stop)
  have hlength : window.start +
      (Lines.pieces (text.slice window.start window.stop)).flatten.length = window.stop := by
    rw [hflatten, Source.length_slice, Nat.min_eq_left hwindow.2, Nat.add_sub_cancel' hwindow.1]
  have htexts := Lines.map_slice_rangesFrom hwindow.2 hlength hflatten.symm
  have htiles := Lines.tiles_rangesFrom window.start
    (Lines.pieces (text.slice window.start window.stop))
  rw [hlength] at htiles
  have hsome : ∀ range ∈ linesRegex.matchesIn text window, range.start < range.stop := by
    rw [hmatches]
    exact fun range => Lines.lt_of_mem_rangesFrom fun piece => Lines.ne_nil_of_mem_pieces
  have hnodup := (Regex.answers_successive ⟨_, compile_linesPattern⟩ hwindow.2
    window.start).scans compile_linesPattern hwindow.2 |>.nodup
  rw [← hmatches] at htexts htiles
  refine ⟨hmatches, htexts, hsome, hnodup, htiles, htiles.flatMap_slice text, ?_⟩
  rintro σ env collecting range body session rfl heval
  rw [execute_eachMatch env collecting none linesRegex body heval, hmatches]

/-- A range that begins within a line, and ends in front of the newline of its last one. -/
theorem execute_visits_lines_part :
    ∃ (session : Session Unit) (command body : Command),
      session.document.content = "one\n\ntwo\n".toList ∧
      Command.parse "#1,#7x d" = .ok command ∧ command.DefaultsMeet Command.FindsLines ∧
      ∀ env : Environment Unit, execute env false command session =
        visiting env false .eachMatch body [⟨1, 4⟩, ⟨4, 5⟩, ⟨5, 7⟩]
          { session with dot := ⟨1, 7⟩ } := by
  let session : Session Unit := .onText "one\n\ntwo\n" (.point 0)
  have hparse : Command.parse "#1,#7x d" = .ok (.visit .eachMatch
      (.between (.simple ⟨none, .char 1⟩) .comma (.simple ⟨none, .char 7⟩)) none linesRegex
      (.delete (.simple ⟨none, .dot⟩))) := by
    cbv
  have hcontent : session.document.content = "one\n\ntwo\n".toList := Session.content_onText _ _
  have hwindow : Address.evaluate session.document.source session.dot
      (.between (.simple ⟨none, .char 1⟩) .comma (.simple ⟨none, .char 7⟩)) = .ok ⟨1, 7⟩ := by
    set_option maxRecDepth 1000 in cbv
  have hpieces : Lines.rangesFrom 1 (Lines.pieces (session.document.source.slice 1 7)) =
      [⟨1, 4⟩, ⟨4, 5⟩, ⟨5, 7⟩] := by
    set_option maxRecDepth 1000 in cbv
  obtain ⟨hprograms, hlines⟩ := execute_visits_lines
  obtain ⟨_, _, _, _, _, _, hexecute⟩ := hlines linesRegex compile_linesPattern
    session.document.source ⟨1, 7⟩ (isWithin_of_evaluate hwindow)
  refine ⟨session, _, .delete (.simple ⟨none, .dot⟩), hcontent, hparse, hprograms _ _ hparse,
    fun env => ?_⟩
  have hvisits := hexecute Unit env false _ (.delete (.simple ⟨none, .dot⟩)) session rfl hwindow
  dsimp only at hvisits
  rwa [hpieces] at hvisits

end Run

end Emend
