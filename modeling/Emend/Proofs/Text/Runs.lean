import Emend.Text.Scan

/-!
# The ends of runs

What a scan for the end of a run should answer is said by `Source.RunScan`, for a scan in either
direction, forced or not, that begins in a run, outside of all runs or at the end of the text.

`Source.pastRun` answers that, with one exception. On the way backward it walks one position too
far, back into the run, only if it is forced; otherwise it stays in front of the run, unless the
text begins there (`Source.FallsShort`). All scans for words that addresses make are forced, and so
are those for white space and for paths.
-/

namespace Emend

namespace Source

variable {text : Source} {inside : Char → Bool} {force : Bool} {position start stop : Nat}
  {direction : Direction}

/-- All characters from one position up to another satisfy a condition. -/
def IsRun (text : Source) (inside : Char → Bool) (start stop : Nat) : Prop :=
  ∀ position, start ≤ position → position < stop → inside (text.get position) = true

/-- The characters from a position on satisfy a condition up to `stop`, and not any further. -/
structure EndsRun (text : Source) (inside : Char → Bool) (position stop : Nat) : Prop where
  /-- The run ends behind the position. -/
  le : position ≤ stop
  /-- The run ends in the text. -/
  le_size : stop ≤ text.size
  /-- What lies between is in the run. -/
  run : text.IsRun inside position stop
  /-- What follows is not. -/
  ends : ∀ c, text.charAt? stop = some c → inside c = false

/-- The characters up to a position and with it satisfy a condition from `start` on, and not from
any earlier position. -/
structure BeginsRun (text : Source) (inside : Char → Bool) (position start : Nat) : Prop where
  /-- The run begins no later than at the position. -/
  le : start ≤ position
  /-- What lies between is in the run, and so is the position. -/
  run : text.IsRun inside start (position + 1)
  /-- What comes before is not. -/
  begins : start = 0 ∨ inside (text.get (start - 1)) = false

/-- What a scan for the end of the run at a position should answer. -/
inductive RunScan (text : Source) (inside : Char → Bool) (force : Bool) (position : Nat) :
    Direction → Nat → Prop where
  /-- At the end of the text, and behind it, the size. -/
  | atEnd {direction : Direction} (behind : text.size ≤ position) :
    RunScan text inside force position direction text.size
  /-- Forward from inside a run, the first position past it. -/
  | past {c : Char} {stop : Nat} (here : text.charAt? position = some c) (within : inside c = true)
    (ends : text.EndsRun inside position stop) : RunScan text inside force position .forward stop
  /-- Forward from outside, the next position if the scan is forced, and else the same. -/
  | onward {c : Char} (here : text.charAt? position = some c) (outside : inside c = false) :
    RunScan text inside force position .forward (if force then position + 1 else position)
  /-- Backward from inside a run, the position where it begins. -/
  | back {c : Char} {start : Nat} (here : text.charAt? position = some c)
    (within : inside c = true) (begins : text.BeginsRun inside position start) :
    RunScan text inside force position .backward start
  /-- Backward from outside, the same position. -/
  | stays {c : Char} (here : text.charAt? position = some c) (outside : inside c = false) :
    RunScan text inside force position .backward position

/-- A scan backward that is not forced begins in a run, and the text does not begin with it. -/
structure FallsShort (text : Source) (inside : Char → Bool) (force : Bool)
    (position : Nat) (direction : Direction) (start : Nat) : Prop where
  /-- The scan goes backward. -/
  backward : direction = .backward
  /-- It is not forced. -/
  unforced : force = false
  /-- It begins in the text. -/
  lt_size : position < text.size
  /-- The run begins at this position. -/
  begins : text.BeginsRun inside position start
  /-- Something comes before it. -/
  pos : 0 < start

/-! ## Runs -/

/-- Nothing lies between a position and itself. -/
theorem isRun_self (position : Nat) : text.IsRun inside position position :=
  fun _ hle hlt => absurd hlt (Nat.not_lt_of_le hle)

/-- A run grows by a character in front of it. -/
theorem IsRun.cons (h : text.IsRun inside (position + 1) stop)
    (hhere : inside (text.get position) = true) : text.IsRun inside position stop := by
  intro other hle hlt
  rcases Nat.eq_or_lt_of_le hle with rfl | hbehind
  · exact hhere
  · exact h other hbehind hlt

/-- A run grows by the character behind it. -/
theorem IsRun.concat (h : text.IsRun inside start position)
    (hhere : inside (text.get position) = true) : text.IsRun inside start (position + 1) := by
  intro other hle hlt
  rcases Nat.eq_or_lt_of_le (Nat.le_of_lt_succ hlt) with rfl | hbefore
  · exact hhere
  · exact h other hle hbefore

/-- The position itself is in the run that begins before it. -/
theorem BeginsRun.here (h : text.BeginsRun inside position start) :
    inside (text.get position) = true :=
  h.run position h.le (Nat.lt_succ_self position)

/-- No run begins in front of another one that goes as far. -/
theorem BeginsRun.start_le {other : Nat} (h : text.BeginsRun inside position start)
    (hother : text.BeginsRun inside position other) : start ≤ other := by
  refine Nat.le_of_not_lt fun hlt => ?_
  -- The position before the start of the one run is in the other.
  have hbefore := hother.run (start - 1) (Nat.le_sub_one_of_lt hlt) (by have := h.le; omega)
  rw [h.begins.resolve_left (Nat.ne_zero_of_lt hlt)] at hbefore
  cases hbefore

/-- The run around a position begins in one place. -/
theorem BeginsRun.start_eq {other : Nat} (h : text.BeginsRun inside position start)
    (hother : text.BeginsRun inside position other) : start = other :=
  Nat.le_antisymm (h.start_le hother) (hother.start_le h)

/-! ## Scans -/

/-- A scan forward that does not step over the character at which it stops ends where the run does,
be it empty or not. -/
theorem endsRun_scanRun (inside : Char → Bool) (force : Bool) (hposition : position ≤ text.size) :
    text.EndsRun inside position (text.scanRun inside force .forward false position) := by
  induction hleft : text.size - position using Nat.strongRecOn generalizing position with
  | ind left ih =>
    rw [scanRun]
    split
    · next hlt =>
      split
      · next hinside =>
        have hrest := ih _ (by omega) (Nat.succ_le_of_lt hlt) rfl
        exact ⟨Nat.le_of_succ_le hrest.le, hrest.le_size, hrest.run.cons hinside, hrest.ends⟩
      · next houtside =>
        refine ⟨Nat.le_refl _, hposition, isRun_self position, fun c hhere => ?_⟩
        rw [← (get_of_charAt? hhere).2]
        exact Bool.eq_false_iff.2 houtside
    · next hge =>
      refine ⟨Nat.le_refl _, hposition, isRun_self position, fun c hhere => ?_⟩
      exact absurd (lt_size_of_charAt? hhere) hge

/-- A scan backward that has begun in a run ends one position before the run if it is not forced. -/
theorem exists_scanRun_backward (inside : Char → Bool) (force : Bool)
    (hposition : position < text.size) :
    ∃ start, start ≤ position + 1 ∧ text.IsRun inside start (position + 1) ∧
      (start = 0 ∨ inside (text.get (start - 1)) = false) ∧
      text.scanRun inside force .backward true position =
        if force then start else start - 1 := by
  induction position with
  | zero =>
    rw [scanRun, if_pos hposition]
    split
    · next hinside =>
      exact ⟨0, Nat.zero_le _, (isRun_self 0).concat hinside, .inl rfl, by simp [Direction.after?]⟩
    · next houtside =>
      exact ⟨1, Nat.le_refl _, isRun_self 1, .inr (Bool.eq_false_iff.2 houtside), rfl⟩
  | succ position ih =>
    rw [scanRun, if_pos hposition]
    split
    · next hinside =>
      obtain ⟨start, hle, hrun, hbegins, hscan⟩ := ih (Nat.lt_of_succ_lt hposition)
      exact ⟨start, Nat.le_succ_of_le hle, hrun.concat hinside, hbegins, hscan⟩
    · next houtside =>
      exact ⟨position + 2, Nat.le_refl _, isRun_self _, .inr (Bool.eq_false_iff.2 houtside), rfl⟩

/-- What a scan backward answers that begins in a run. -/
theorem exists_pastRun_backward (force : Bool) (hposition : position < text.size)
    (hinside : inside (text.get position) = true) :
    ∃ start, text.BeginsRun inside position start ∧
      text.pastRun inside force position .backward = if force then start else start - 1 := by
  rw [pastRun, Nat.min_eq_left (Nat.le_of_lt hposition), scanRun, if_pos hposition, if_pos hinside]
  cases position with
  | zero =>
    exact ⟨0, ⟨Nat.le_refl _, (isRun_self 0).concat hinside, .inl rfl⟩, by simp [Direction.after?]⟩
  | succ position =>
    obtain ⟨start, hle, hrun, hbegins, hscan⟩ :=
      exists_scanRun_backward inside force (Nat.lt_of_succ_lt hposition)
    exact ⟨start, ⟨hle, hrun.concat hinside, hbegins⟩, hscan⟩

/-- Behind the text a scan stays at its end. -/
theorem pastRun_of_size_le (h : text.size ≤ position) :
    text.pastRun inside force position direction = text.size := by
  rw [pastRun, Nat.min_eq_right h, scanRun, if_neg (Nat.lt_irrefl _)]

/-- A scan forward from inside a run answers the first position past it. -/
theorem endsRun_pastRun (hposition : position < text.size)
    (hinside : inside (text.get position) = true) :
    text.EndsRun inside position (text.pastRun inside force position .forward) := by
  rw [pastRun, Nat.min_eq_left (Nat.le_of_lt hposition), scanRun, if_pos hposition, if_pos hinside]
  have hrest := endsRun_scanRun inside force (Nat.succ_le_of_lt hposition)
  exact ⟨Nat.le_of_succ_le hrest.le, hrest.le_size, hrest.run.cons hinside, hrest.ends⟩

/-- Outside of a run a forward scan moves by one if it is forced to, and else not at all. -/
theorem pastRun_forward_of_outside (hposition : position < text.size)
    (houtside : inside (text.get position) = false) :
    text.pastRun inside force position .forward = if force then position + 1 else position := by
  rw [pastRun, Nat.min_eq_left (Nat.le_of_lt hposition), scanRun, if_pos hposition,
    if_neg (Bool.eq_false_iff.1 houtside)]
  rfl

/-- A backward scan stays where it is. -/
theorem pastRun_backward_of_outside (hposition : position < text.size)
    (houtside : inside (text.get position) = false) :
    text.pastRun inside force position .backward = position := by
  rw [pastRun, Nat.min_eq_left (Nat.le_of_lt hposition), scanRun, if_pos hposition,
    if_neg (Bool.eq_false_iff.1 houtside)]
  rfl

/-- Every scan for the end of a run answers a position of the text. -/
theorem pastRun_le_size : text.pastRun inside force position direction ≤ text.size := by
  by_cases hposition : position < text.size
  · cases hinside : inside (text.get position) with
    | true =>
      cases direction with
      | forward => exact (endsRun_pastRun hposition hinside).le_size
      | backward =>
        obtain ⟨start, hbegins, hscan⟩ := exists_pastRun_backward force hposition hinside
        have hle := hbegins.le
        rw [hscan]
        split <;> omega
    | false =>
      cases direction with
      | forward =>
        rw [pastRun_forward_of_outside hposition hinside]
        split <;> omega
      | backward =>
        rw [pastRun_backward_of_outside hposition hinside]
        exact Nat.le_of_lt hposition
  · exact Nat.le_of_eq (pastRun_of_size_le (Nat.le_of_not_lt hposition))

/-- A scan that falls short answers the position before the run. -/
theorem FallsShort.pastRun_add_one (h : text.FallsShort inside force position direction start) :
    text.pastRun inside force position direction + 1 = start := by
  obtain ⟨rfl, rfl, hposition, hbegins, hpos⟩ := h
  obtain ⟨other, hother, hscan⟩ := exists_pastRun_backward false hposition hbegins.here
  rw [hscan, hother.start_eq hbegins]
  exact Nat.sub_add_cancel hpos

/-- A scan that falls short does not answer what it should. -/
theorem FallsShort.not_runScan (h : text.FallsShort inside force position direction start) :
    ¬text.RunScan inside force position direction
      (text.pastRun inside force position direction) := by
  have hbefore := h.pastRun_add_one
  obtain ⟨rfl, rfl, hposition, hbegins, _⟩ := h
  intro hscan
  generalize text.pastRun inside false position .backward = answer at hbefore hscan
  cases hscan with
  | atEnd hbehind => exact Nat.not_lt_of_le hbehind hposition
  | back _ _ hother => exact Nat.succ_ne_self _ (hbefore.trans (hbegins.start_eq hother))
  | stays hhere houtside =>
    rw [← (get_of_charAt? hhere).2, hbegins.here] at houtside
    cases houtside

/-- A scan that does not fall short answers what it should. -/
theorem runScan_pastRun
    (h : ∀ start, ¬text.FallsShort inside force position direction start) :
    text.RunScan inside force position direction
      (text.pastRun inside force position direction) := by
  by_cases hposition : position < text.size
  · have hhere : text.charAt? position = some (text.get position) := if_pos hposition
    cases hinside : inside (text.get position) with
    | true =>
      cases direction with
      | forward => exact .past hhere hinside (endsRun_pastRun hposition hinside)
      | backward =>
        obtain ⟨start, hbegins, hscan⟩ := exists_pastRun_backward force hposition hinside
        have hstart : (if force then start else start - 1) = start := by
          cases force with
          | true => rfl
          | false =>
            -- Unforced, the scan comes to the start only if nothing stands before it.
            have hzero : ¬0 < start := fun hpos => h start ⟨rfl, rfl, hposition, hbegins, hpos⟩
            show start - 1 = start
            omega
        rw [hscan, hstart]
        exact .back hhere hinside hbegins
    | false =>
      cases direction with
      | forward =>
        rw [pastRun_forward_of_outside hposition hinside]
        exact .onward hhere hinside
      | backward =>
        rw [pastRun_backward_of_outside hposition hinside]
        exact .stays hhere hinside
  · have hbehind := Nat.le_of_not_lt hposition
    rw [pastRun_of_size_le hbehind]
    exact .atEnd hbehind

/-- A forced scan does not fall short. -/
theorem not_fallsShort_forced : ¬text.FallsShort inside true position direction start :=
  fun h => absurd h.unforced nofun

/-- **The ends of runs.** A scan for the end of a run answers what it should, exactly unless it goes
backward without being forced from inside a run that the text does not begin with; then it answers
the position before the run. It always answers a position of the text. So do the scans for words;
those for white space, for paths and for any other boundary are forced, and always answer what they
should. -/
theorem runScan_iff (text : Source) (position : Nat) (direction : Direction) :
    (∀ inside force,
      (text.RunScan inside force position direction
          (text.pastRun inside force position direction) ↔
        ∀ start, ¬text.FallsShort inside force position direction start) ∧
      (∀ start, text.FallsShort inside force position direction start →
        text.pastRun inside force position direction + 1 = start) ∧
      text.pastRun inside force position direction ≤ text.size) ∧
    (∀ force,
      text.RunScan isWordChar force position direction
          (text.wordBoundary force position direction) ↔
        ∀ start, ¬text.FallsShort isWordChar force position direction start) ∧
    text.RunScan (!isWhiteSpace ·) true position direction
      (text.spaceBoundary position direction) ∧
    text.RunScan isFilenameChar true position direction
      (text.filenameBoundary position direction) ∧
    ∀ stop, text.RunScan (!stop ·) true position direction
      (text.boundary stop position direction) := by
  have hiff : ∀ inside force,
      text.RunScan inside force position direction
          (text.pastRun inside force position direction) ↔
        ∀ start, ¬text.FallsShort inside force position direction start :=
    fun inside force => ⟨fun hscan start h => h.not_runScan hscan, runScan_pastRun⟩
  refine ⟨fun inside force => ⟨hiff inside force, fun start h => h.pastRun_add_one,
    pastRun_le_size⟩, hiff isWordChar, ?_, ?_, fun stop => ?_⟩
  · exact runScan_pastRun fun _ => not_fallsShort_forced
  · exact runScan_pastRun fun _ => not_fallsShort_forced
  · exact runScan_pastRun fun _ => not_fallsShort_forced

/-- **A scan backward that is not forced misses the run.** From the end of the second word it goes
to the space before that word. -/
theorem not_runScan :
    ¬ ∀ (text : Source) (force : Bool) (position : Nat) (direction : Direction),
      text.RunScan isWordChar force position direction
        (text.wordBoundary force position direction) := by
  intro hall
  have hbegins : (ofList ['a', ' ', 'b', 'c']).BeginsRun isWordChar 3 2 := by
    refine ⟨by decide, fun other hle hlt => ?_, .inr (by decide +kernel)⟩
    obtain rfl | rfl : other = 2 ∨ other = 3 := by omega
    · decide +kernel
    · decide +kernel
  have hshort : (ofList ['a', ' ', 'b', 'c']).FallsShort isWordChar false 3 .backward 2 :=
    ⟨rfl, rfl, by decide, hbegins, by decide⟩
  exact hshort.not_runScan (hall _ false 3 .backward)

end Source

end Emend
