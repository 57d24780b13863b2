import Emend.Proofs.Command.Compiled
import Mathlib

/-!
# What loops visit

A loop looks for the matches of its pattern one after the other, each from the end of the one before
it, or one further if that one was empty. `Scans` says so without the search: each range is a
leftmost match in what is left of the window, and the scan ends where no match is left. So the
ranges come in order, none of them twice, and there is at most one for each place of the window
(`Scans.pairwise`, `Scans.length_le`).

The gaps that lie between the matches fill up the window together with them: `Tiles` says of ranges
that each begins where the one before it ends, and the texts of such ranges make up the text of the
window (`Tiles.flatMap_slice`).

With these ranges a loop does one thing after the other (`visiting_nil`, `visiting_cons`): if its
body prints, it prints their texts in turn (`visiting_print`).
-/

namespace Emend

variable {text : Source} {pattern : String} {regex : Regex} {position first stop : Nat}
  {ranges : List Selection} {captures : List Captures}

/-! ## Scans -/

/-- Where a scan goes on after a match: at its end, or one further after an empty match. -/
def Selection.resume (range : Selection) : Nat :=
  if range.start = range.stop then range.stop + 1 else range.stop

/-- The ranges that a scan finds from a position up to `stop`. -/
inductive Scans (pattern : String) (text : Source) (stop : Nat) : Nat → List Selection → Prop where
  /-- No match is left. -/
  | done {position : Nat} (nothing : ∀ start last, position ≤ start → last ≤ stop →
      ¬Pattern.MatchesRange pattern text start last) : Scans pattern text stop position []
  /-- A match than which none begins earlier, and what is found after it. -/
  | next {position : Nat} {range : Selection} {rest : List Selection}
    (ahead : position ≤ range.start) (within : range.IsWithin stop)
    (matched : Pattern.MatchesRange pattern text range.start range.stop)
    (leftmost : ∀ start last, position ≤ start → last ≤ stop →
      Pattern.MatchesRange pattern text start last → range.start ≤ start)
    (others : Scans pattern text stop range.resume rest) :
    Scans pattern text stop position (range :: rest)

/-- Where a scan ends that has found these ranges. -/
def resumeAfter (position : Nat) : List Selection → Nat
  | [] => position
  | range :: rest => resumeAfter range.resume rest

namespace Selection

variable {range : Selection}

/-- A scan goes on behind the start of a match, and not before its end. -/
theorem lt_resume (h : range.start ≤ range.stop) :
    range.start < range.resume ∧ range.stop ≤ range.resume := by
  unfold resume
  split <;> omega

end Selection

namespace Scans

/-- What is found are matches from the position on. -/
theorem of_mem (h : Scans pattern text stop position ranges) {range : Selection}
    (hmem : range ∈ ranges) :
    position ≤ range.start ∧ range.IsWithin stop ∧
      Pattern.MatchesRange pattern text range.start range.stop := by
  induction h with
  | done _ => cases hmem
  | next ahead within matched _ _ ih =>
    rcases List.mem_cons.1 hmem with rfl | hlater
    · exact ⟨ahead, within, matched⟩
    · obtain ⟨hresume, hrange⟩ := ih hlater
      have hfirst := Selection.lt_resume within.1
      exact ⟨Nat.le_trans ahead (Nat.le_trans (Nat.le_of_lt hfirst.1) hresume), hrange⟩

/-- What is found comes in order, and each range begins behind the start of the one before it. -/
theorem pairwise (h : Scans pattern text stop position ranges) :
    ranges.Pairwise fun range other => range.stop ≤ other.start ∧ range.start < other.start := by
  induction h with
  | done _ => exact .nil
  | next _ within _ _ others ih =>
    refine .cons (fun other hmem => ?_) ih
    obtain ⟨hresume, _⟩ := others.of_mem hmem
    obtain ⟨hstart, hstop⟩ := Selection.lt_resume within.1
    exact ⟨Nat.le_trans hstop hresume, Nat.lt_of_lt_of_le hstart hresume⟩

/-- No range is found twice. -/
theorem nodup (h : Scans pattern text stop position ranges) : ranges.Nodup := by
  refine h.pairwise.imp fun {range other} hfollows => ?_
  rintro rfl
  exact Nat.lt_irrefl _ hfollows.2

/-- At most one range is found for each place of the window. -/
theorem length_le (h : Scans pattern text stop position ranges) :
    ranges.length ≤ stop + 1 - position := by
  induction h with
  | done _ => exact Nat.zero_le _
  | next ahead within _ _ _ ih =>
    obtain ⟨hle, hstop⟩ := within
    obtain ⟨hresume, _⟩ := Selection.lt_resume hle
    rw [List.length_cons]
    omega

/-- **Where a scan ends, no match is left.** -/
theorem exhausted (h : Scans pattern text stop position ranges) :
    ∀ start last, resumeAfter position ranges ≤ start → last ≤ stop →
      ¬Pattern.MatchesRange pattern text start last := by
  induction h with
  | done nothing => exact nothing
  | next _ _ _ _ _ ih => exact ih

end Scans

/-! ## Successive matches -/

/-- The answers of successive searches, from a position up to `stop`. -/
inductive Regex.Answers (regex : Regex) (text : Source) (stop : Nat) :
    Nat → List Captures → Prop where
  /-- The position is behind the window, or a search from there finds nothing. -/
  | done {position : Nat}
    (nothing : position ≤ stop → regex.matchAt text position stop .forward = none) :
    Answers regex text stop position []
  /-- A search finds a match, and the next one begins at its end, or one further. -/
  | next {position : Nat} {found : Captures} {rest : List Captures} (inside : position ≤ stop)
    (answer : regex.matchAt text position stop .forward = some found)
    (others : Answers regex text stop found.resumeAt rest) :
    Answers regex text stop position (found :: rest)

/-- Successive matches are the answers of successive searches: every match lets the search go on. -/
theorem Regex.answers_successive (h : regex.Searches) (hstop : stop ≤ text.size)
    (position : Nat) :
    regex.Answers text stop position (regex.successive text position stop) := by
  obtain ⟨pattern, hcompile⟩ := h
  fun_induction Regex.successive regex text position stop with
  | case1 position hle hnone => exact .done fun _ => hnone
  | case2 position hle found hfound hresume ih => exact .next hle hfound ih
  | case3 position hle found hfound hresume =>
    -- A match does not begin before the position, so the search goes on behind it.
    obtain ⟨_, hstart, hfoundLe, _⟩ := leftmost_of_matchAt hcompile hle hstop hfound
    have hrange : found.range.start ≤ found.range.stop := hfoundLe
    obtain ⟨hlt, _⟩ := Selection.lt_resume hrange
    exact absurd (Nat.lt_of_le_of_lt hstart hlt) hresume
  | case4 position hlt => exact .done fun hle => absurd hle hlt

/-- The ranges of successive matches are what a scan finds. -/
theorem Regex.Answers.scans (hcompile : Regex.compile pattern true false = .ok regex)
    (hstop : stop ≤ text.size) (h : regex.Answers text stop position captures) :
    Scans pattern text stop position (captures.map (·.range)) := by
  induction h with
  | @done position nothing =>
    refine .done fun start last hstart hlast hmatches => ?_
    have hle : start ≤ last := by
      obtain ⟨node, _, hnode⟩ := hmatches
      exact hnode.le
    have hposition : position ≤ stop := Nat.le_trans hstart (Nat.le_trans hle hlast)
    have hsome := (isSome_matchAt_iff hcompile hposition hstop).2
      ⟨start, last, hstart, hle, hlast, hmatches⟩
    rw [nothing hposition] at hsome
    cases hsome
  | @next position found rest inside answer _ ih =>
    obtain ⟨_, hstart, hle, hlast, hmatches, hleast⟩ :=
      leftmost_of_matchAt hcompile inside hstop answer
    exact .next hstart ⟨hle, hlast⟩ hmatches hleast ih

/-! ## Gaps -/

/-- Each range begins where the one before it ends, the first at `start` and the last up to
`stop`. -/
def Tiles (start : Nat) (ranges : List Selection) (stop : Nat) : Prop :=
  match ranges with
  | [] => start = stop
  | range :: rest => range.start = start ∧ range.start ≤ range.stop ∧ Tiles range.stop rest stop

/-- Ranges of two lists in turn, as far as both go, and then what is left of either. -/
def alternate : List Selection → List Selection → List Selection
  | gap :: gaps, range :: ranges => gap :: range :: alternate gaps ranges
  | gaps, [] => gaps
  | [], ranges => ranges

namespace Tiles

/-- Tiled ranges do not go backward. -/
theorem le (h : Tiles first ranges stop) : first ≤ stop := by
  induction ranges generalizing first with
  | nil => exact Nat.le_of_eq h
  | cons range rest ih =>
    obtain ⟨rfl, hle, hrest⟩ := h
    exact Nat.le_trans hle (ih hrest)

/-- **The texts of ranges that fill up a window make up its text.** -/
theorem flatMap_slice (h : Tiles first ranges stop) (text : Source) :
    ranges.flatMap (fun range => text.slice range.start range.stop) = text.slice first stop := by
  induction ranges generalizing first with
  | nil =>
    obtain rfl : first = stop := h
    simp only [List.flatMap_nil, Source.slice]
    rw [Nat.sub_eq_zero_of_le (Nat.min_le_left _ _)]
    rfl
  | cons range rest ih =>
    obtain ⟨rfl, hle, hrest⟩ := h
    rw [List.flatMap_cons, ih hrest, text.slice_append hle hrest.le]

end Tiles

namespace Captures

/-- The gaps and the matches fill up the window. -/
theorem tiles_gaps (hfirst : first ≤ stop)
    (hbounds : ∀ found ∈ captures, first ≤ found.start ∧ found.range.IsWithin stop)
    (hpairwise : (captures.map (·.range)).Pairwise fun range other => range.stop ≤ other.start) :
    Tiles first (alternate (gaps first stop captures) (captures.map (·.range))) stop := by
  induction captures generalizing first with
  | nil =>
    unfold gaps
    split
    · exact ⟨rfl, hfirst, rfl⟩
    · next hlt => exact Nat.le_antisymm hfirst (Nat.le_of_not_lt hlt)
  | cons found rest ih =>
    obtain ⟨hstart, hle, hlast⟩ := hbounds found List.mem_cons_self
    obtain ⟨hbehind, hrest⟩ := List.pairwise_cons.1 hpairwise
    refine ⟨rfl, hstart, rfl, hle, ih hlast (fun other hmem => ?_) hrest⟩
    refine ⟨hbehind _ (List.mem_map_of_mem hmem), ?_⟩
    exact (hbounds other (List.mem_cons_of_mem _ hmem)).2

/-- There is a gap before each match, and another one at the end if that is not empty. -/
theorem length_gaps (first stop : Nat) (captures : List Captures) :
    captures.length ≤ (gaps first stop captures).length ∧
      (gaps first stop captures).length ≤ captures.length + 1 ∧
      ∀ gap ∈ (gaps first stop captures).drop captures.length, gap.start < gap.stop := by
  induction captures generalizing first with
  | nil =>
    unfold gaps
    split
    · next hlt => simpa using hlt
    · exact ⟨Nat.le_refl _, Nat.zero_le _, nofun⟩
  | cons found rest ih =>
    obtain ⟨hmin, hmax, hlast⟩ := ih found.stop
    unfold gaps
    rw [List.length_cons, List.length_cons, List.drop_succ_cons]
    exact ⟨Nat.succ_le_succ hmin, Nat.succ_le_succ hmax, hlast⟩

end Captures

/-! ## Loops -/

/-- The ranges of the successive matches in a window. -/
def Regex.matchesIn (regex : Regex) (text : Source) (window : Selection) : List Selection :=
  (regex.successive text window.start window.stop).map (·.range)

/-- What the successive matches leave of a window. -/
def Regex.gapsIn (regex : Regex) (text : Source) (window : Selection) : List Selection :=
  Captures.gaps window.start window.stop (regex.successive text window.start window.stop)

namespace Run

variable {σ α : Type}

/-- Runs the body of a loop on ranges in turn, and releases what it has collected. -/
def visiting (env : Environment σ) (collecting : Bool) (kind : Visit) (body : Command)
    (ranges : List Selection) : Run σ (List Replacement) := do
  let edits ← eachRange env kind.letter (execute env true body) ranges
  release collecting (edits.getD [])

section

variable {range : Address} {session : Session σ} {sel : Selection}

/-- An address that can be evaluated gives its range. -/
theorem evaluate_ok (h : range.evaluate session.document.source session.dot = .ok sel) :
    (evaluate range : Run σ Selection) session = (.ok sel, session) := by
  unfold evaluate
  rw [h]

/-- A range of the text becomes dot as it is. -/
theorem setDot_of_isWithin (h : sel.IsWithin session.document.size) :
    (setDot sel : Run σ Unit) session = (.ok (), { session with dot := sel }) := by
  have hclamp := Selection.clamp_of_isWithin h
  show (_, { session with dot := sel.clamp session.document.size }) = _
  rw [hclamp]

/-- A range that is evaluated becomes dot, and what follows begins there. -/
theorem evaluate_setDot (h : range.evaluate session.document.source session.dot = .ok sel)
    {next : Selection → Run σ α} :
    (do
      let sel ← evaluate range
      setDot sel
      next sel : Run σ α) session = next sel { session with dot := sel } := by
  have hdot : (setDot sel : Run σ Unit) session = (.ok (), { session with dot := sel }) :=
    setDot_of_isWithin (isWithin_of_evaluate h)
  rw [bind_ok (evaluate_ok h), bind_ok hdot]

end

section

variable (env : Environment σ) (collecting : Bool) (kind : Visit) (body : Command)
  (session : Session σ)

/-- Without ranges a loop does nothing. -/
@[simp]
theorem visiting_nil : visiting env collecting kind body [] session = (.ok [], session) :=
  release_nil collecting session

/-- **One range, and then the rest.** The body runs with the range as dot. If it fails, that is
reported, and the loop ends without edits; if not, its edits go before those of the other ranges. -/
theorem visiting_cons (sel : Selection) (rest : List Selection) :
    visiting env collecting kind body (sel :: rest) session =
      match withDot sel (execute env true body) session with
      | (.error error, after) => (.ok [], { after with
          outside := env.warn (kind.letter.toString ++ ": " ++ error.message) after.outside })
      | (.ok edits, after) =>
        (do
          let others ← eachRange env kind.letter (execute env true body) rest
          release collecting ((others.map (edits ++ ·)).getD []) : Run σ (List Replacement))
          after := by
  have hattempt : attempt (withDot sel (execute env true body)) session =
      (.ok (withDot sel (execute env true body) session).1,
        (withDot sel (execute env true body) session).2) := rfl
  unfold visiting
  rw [eachRange, bind_assoc, bind_ok hattempt]
  rcases withDot sel (execute env true body) session with ⟨result, after⟩
  cases result with
  | error error => exact release_nil collecting _
  | ok edits =>
    dsimp only
    rw [bind_assoc]
    simp only [pure_bind]

/-- Printing dot changes nothing but what the environment has received. -/
theorem execute_print_dot (h : session.dot.IsWithin session.document.size) :
    execute env collecting (.print (.simple ⟨none, .dot⟩)) session =
      (.ok [], { session with
        outside := env.print (String.ofList (session.document.text session.dot))
          session.outside }) := by
  have hdot : Address.evaluate session.document.source session.dot (.simple ⟨none, .dot⟩) =
      .ok session.dot := by
    have hclamp : session.dot.clamp session.document.source.size = session.dot :=
      Selection.clamp_of_isWithin h
    unfold Address.evaluate SimpleAddress.evaluate
    simp only [hclamp, bind, Except.bind, pure, Except.pure]
  rw [execute, evaluate_setDot hdot]
  rfl

/-- A loop whose body prints dot: the texts of its ranges are printed, in turn. -/
theorem visiting_print (ranges : List Selection)
    (h : ∀ range ∈ ranges, range.IsWithin session.document.size) :
    visiting env collecting kind (.print (.simple ⟨none, .dot⟩)) ranges session =
      (.ok [], { session with
        outside := ranges.foldl (fun outside range =>
          env.print (String.ofList (session.document.text range)) outside) session.outside }) := by
  induction ranges generalizing session with
  | nil => exact visiting_nil env collecting kind _ session
  | cons sel rest ih =>
    have hsel : sel.IsWithin session.document.size := h sel List.mem_cons_self
    have hround : withDot sel (execute env true (.print (.simple ⟨none, .dot⟩))) session =
        (.ok [], { session with
          outside := env.print (String.ofList (session.document.text sel)) session.outside }) := by
      unfold withDot
      rw [Selection.clamp_of_isWithin hsel, execute_print_dot env true _ hsel]
    -- A round that collects nothing leaves the rest of the loop.
    have hrest : (do
        let others ← eachRange env kind.letter
          (execute env true (.print (.simple ⟨none, .dot⟩))) rest
        release collecting ((others.map ([] ++ ·)).getD []) : Run σ (List Replacement)) =
        visiting env collecting kind (.print (.simple ⟨none, .dot⟩)) rest := by
      simp only [visiting, List.nil_append, Option.map_id']
    rw [visiting_cons, hround]
    dsimp only
    rw [hrest]
    exact ih _ fun range hmem => h range (List.mem_cons_of_mem sel hmem)

end

section

variable (env : Environment σ) (collecting : Bool) (delimiter : Option Char) (regex : Regex)
  (body : Command) {range : Address} {session : Session σ} {window : Selection}

/-- The loop over matches visits the matches in its range. -/
theorem execute_eachMatch (h : range.evaluate session.document.source session.dot = .ok window) :
    execute env collecting (.visit .eachMatch range delimiter regex body) session =
      visiting env collecting .eachMatch body (regex.matchesIn session.document.source window)
        { session with dot := window } := by
  rw [execute, evaluate_setDot h]
  rfl

/-- The loop over gaps visits the gaps in its range. -/
theorem execute_eachGap (h : range.evaluate session.document.source session.dot = .ok window) :
    execute env collecting (.visit .eachGap range delimiter regex body) session =
      visiting env collecting .eachGap body (regex.gapsIn session.document.source window)
        { session with dot := window } := by
  rw [execute, evaluate_setDot h]
  rfl

end

/-- **What loops visit.** A loop over matches visits what a scan for the pattern finds in its range,
in order, none of it twice, and at most one match for each place of the range; it ends because no
match is left. A loop over gaps visits as many gaps, and one more if the last is not empty; gaps and
matches in turn fill up the range, so their texts make up its text. -/
theorem execute_visits (hcompile : Regex.compile pattern true false = .ok regex) (text : Source)
    {window : Selection} (hwindow : window.IsWithin text.size) :
    Scans pattern text window.stop window.start (regex.matchesIn text window) ∧
    (∀ range ∈ regex.matchesIn text window,
      window.start ≤ range.start ∧ range.start ≤ range.stop ∧ range.stop ≤ window.stop) ∧
    (regex.matchesIn text window).Pairwise (fun range other => range.stop ≤ other.start) ∧
    (regex.matchesIn text window).Nodup ∧
    (regex.matchesIn text window).length ≤ window.stop - window.start + 1 ∧
    (∀ start stop, resumeAfter window.start (regex.matchesIn text window) ≤ start →
      stop ≤ window.stop → ¬Pattern.MatchesRange pattern text start stop) ∧
    ((regex.matchesIn text window).length ≤ (regex.gapsIn text window).length ∧
      (regex.gapsIn text window).length ≤ (regex.matchesIn text window).length + 1 ∧
      ∀ gap ∈ (regex.gapsIn text window).drop (regex.matchesIn text window).length,
        gap.start < gap.stop) ∧
    Tiles window.start (alternate (regex.gapsIn text window) (regex.matchesIn text window))
      window.stop ∧
    (alternate (regex.gapsIn text window) (regex.matchesIn text window)).flatMap
        (fun range => text.slice range.start range.stop) = text.slice window.start window.stop ∧
    ∀ (σ : Type) (env : Environment σ) (collecting : Bool) (range : Address)
      (delimiter : Option Char) (body : Command) (session : Session σ),
      session.document.source = text → range.evaluate text session.dot = .ok window →
      execute env collecting (.visit .eachMatch range delimiter regex body) session =
          visiting env collecting .eachMatch body (regex.matchesIn text window)
            { session with dot := window } ∧
        execute env collecting (.visit .eachGap range delimiter regex body) session =
          visiting env collecting .eachGap body (regex.gapsIn text window)
            { session with dot := window } := by
  have hanswers := Regex.answers_successive ⟨pattern, hcompile⟩ hwindow.2 window.start
  have hscans := hanswers.scans hcompile hwindow.2
  have hpairwise := hscans.pairwise.imp fun hfollows => hfollows.1
  have hbounds : ∀ range ∈ regex.matchesIn text window,
      window.start ≤ range.start ∧ range.IsWithin window.stop := by
    intro range hmem
    obtain ⟨hstart, hrange, _⟩ := hscans.of_mem hmem
    exact ⟨hstart, hrange⟩
  have htiles := Captures.tiles_gaps hwindow.1
    (fun found hmem => hbounds _ (List.mem_map_of_mem hmem)) hpairwise
  have hlength := Captures.length_gaps window.start window.stop
    (regex.successive text window.start window.stop)
  rw [← List.length_map (f := (·.range))] at hlength
  refine ⟨hscans, hbounds, hpairwise, hscans.nodup, ?_, hscans.exhausted, hlength, htiles,
    htiles.flatMap_slice text, ?_⟩
  · have hcount : (regex.matchesIn text window).length ≤ window.stop + 1 - window.start :=
      hscans.length_le
    omega
  · rintro σ env collecting range delimiter body session rfl heval
    exact ⟨execute_eachMatch env collecting delimiter regex body heval,
      execute_eachGap env collecting delimiter regex body heval⟩

/-- A pattern that matches the empty text at every place, and letters where there are some. -/
theorem execute_visits_star :
    ∃ regex, Regex.compile "b*" true false = .ok regex ∧
      regex.matchesIn (.ofList "abbac".toList) ⟨0, 5⟩ =
        [⟨0, 0⟩, ⟨1, 3⟩, ⟨3, 3⟩, ⟨4, 4⟩, ⟨5, 5⟩] ∧
      regex.gapsIn (.ofList "abbac".toList) ⟨0, 5⟩ = [⟨0, 0⟩, ⟨0, 1⟩, ⟨3, 3⟩, ⟨3, 4⟩, ⟨4, 5⟩] ∧
      resumeAfter 0 (regex.matchesIn (.ofList "abbac".toList) ⟨0, 5⟩) = 6 ∧
      (alternate (regex.gapsIn (.ofList "abbac".toList) ⟨0, 5⟩)
          (regex.matchesIn (.ofList "abbac".toList) ⟨0, 5⟩)).flatMap
        (fun range => (Source.ofList "abbac".toList).slice range.start range.stop) =
        "abbac".toList := by
  have hcompile : Regex.compile "b*" true false = .ok ⟨"b*", #[.split [3, 1], .oneOf .any,
      .jump 0, .save 0, .split [5, 7], .char 'b', .jump 4, .save 1, .accept], 2, false⟩ := by
    cbv
  have hwindow : Selection.IsWithin ⟨0, 5⟩ (Source.ofList "abbac".toList).size :=
    ⟨by decide, by decide⟩
  obtain ⟨_, _, _, _, _, _, _, _, htext, _⟩ :=
    execute_visits hcompile (.ofList "abbac".toList) hwindow
  refine ⟨_, hcompile, ?_, ?_, ?_, htext⟩
  · cbv
  · cbv
  · cbv

end Run

end Emend
