/-!
# Text read by position

Patterns, scans and addresses read a text one character at a time, by its position. A `Source` is
such a text: how many characters it has, and the character at each position. It says nothing of how
the text is stored, so a list, an array and an editing buffer are all read in the same way.
-/

namespace Emend

/-- The two ways in which a text can be walked. -/
inductive Direction where
  /-- Towards the end of the text. -/
  | forward
  /-- Towards the beginning of the text. -/
  | backward
  deriving DecidableEq, Repr, Inhabited

/-- A text given by its size and the character at each position below it. What `get` answers at
or above `size` is never looked at. -/
structure Source where
  /-- How many characters the text has. -/
  size : Nat
  /-- The character at a position below `size`. -/
  get : Nat → Char

namespace Source

/-- The character at a position, or nothing at and after the end of the text. -/
def charAt? (text : Source) (position : Nat) : Option Char :=
  if position < text.size then some (text.get position) else none

/-- The character that a walk passes when it leaves `position`: the one after the position on the
way forward, the one before it on the way backward. -/
def next? (text : Source) : Direction → Nat → Option Char
  | .forward, position => text.charAt? position
  | .backward, 0 => none
  | .backward, position + 1 => text.charAt? position

/-- The text of an array of characters. -/
def ofArray (chars : Array Char) : Source where
  size := chars.size
  get position := chars.getD position '\x00'

/-- The text of a list of characters. -/
def ofList (chars : List Char) : Source :=
  ofArray chars.toArray

/-- The characters of the positions from `start` up to `stop`, as far as the text reaches. -/
def slice (text : Source) (start stop : Nat) : List Char :=
  (List.range' start (min stop text.size - start)).map text.get

/-- The whole text as a list. -/
def toList (text : Source) : List Char :=
  text.slice 0 text.size

end Source

namespace Direction

/-- Where a step in a direction leads; the first position has none before it. -/
def step : Direction → Nat → Nat
  | .forward, position => position + 1
  | .backward, position => position - 1

/-- A walk in this direction comes from the first place to the second. -/
def Ahead : Direction → Nat → Nat → Prop
  | .forward, position, other => position ≤ other
  | .backward, position, other => other ≤ position

/-- A position lies ahead of itself. -/
theorem Ahead.refl (direction : Direction) (position : Nat) :
    direction.Ahead position position := by
  cases direction <;> exact Nat.le_refl _

/-- What lies ahead of a position ahead lies ahead. -/
theorem Ahead.trans {direction : Direction} {position middle other : Nat}
    (h : direction.Ahead position middle) (h' : direction.Ahead middle other) :
    direction.Ahead position other := by
  cases direction with
  | forward => exact Nat.le_trans h h'
  | backward => exact Nat.le_trans h' h

/-- Two positions ahead of each other are one. -/
theorem Ahead.antisymm {direction : Direction} {position other : Nat}
    (h : direction.Ahead position other) (h' : direction.Ahead other position) :
    position = other := by
  cases direction with
  | forward => exact Nat.le_antisymm h h'
  | backward => exact Nat.le_antisymm h' h

/-- Of two positions one lies ahead of the other. -/
theorem ahead_total (direction : Direction) (position other : Nat) :
    direction.Ahead position other ∨ direction.Ahead other position := by
  cases direction with
  | forward => exact Nat.le_total position other
  | backward => exact Nat.le_total other position

/-- A step leads ahead. -/
theorem ahead_step (direction : Direction) (position : Nat) :
    direction.Ahead position (direction.step position) := by
  cases direction with
  | forward => exact Nat.le_succ _
  | backward => exact Nat.sub_le _ _

/-- What lies ahead of a place is the place itself or lies ahead of the next one. -/
theorem Ahead.eq_or_step {direction : Direction} {position other : Nat}
    (h : direction.Ahead position other) :
    position = other ∨ direction.Ahead (direction.step position) other := by
  cases direction with
  | forward => exact Nat.eq_or_lt_of_le h
  | backward =>
    rcases Nat.eq_or_lt_of_le h with heq | hlt
    · exact .inl heq.symm
    · exact .inr (Nat.le_sub_one_of_lt hlt)

end Direction

namespace Source

/-- A position with a character lies in the text. -/
theorem lt_size_of_charAt? {text : Source} {position : Nat} {c : Char}
    (h : text.charAt? position = some c) : position < text.size := by
  unfold Source.charAt? at h
  split at h
  · assumption
  · simp at h

/-- A character that stands somewhere is the one to get there. -/
theorem get_of_charAt? {text : Source} {position : Nat} {c : Char}
    (h : text.charAt? position = some c) : position < text.size ∧ text.get position = c := by
  have hinside := lt_size_of_charAt? h
  unfold charAt? at h
  rw [if_pos hinside] at h
  exact ⟨hinside, Option.some.inj h⟩

/-- The texts have the same characters before a position. -/
def AgreesBelow (bound : Nat) (text other : Source) : Prop :=
  ∀ position < bound, text.charAt? position = other.charAt? position

/-- Texts that agree below a bound agree below a smaller one. -/
theorem AgreesBelow.mono {bound less : Nat} {text other : Source}
    (h : text.AgreesBelow bound other) (hle : less ≤ bound) : text.AgreesBelow less other :=
  fun position hlt => h position (Nat.lt_of_lt_of_le hlt hle)

/-- The characters of a slice are those of its positions. -/
theorem getElem?_slice (text : Source) (start stop index : Nat) :
    (text.slice start stop)[index]? =
      if start + index < stop then text.charAt? (start + index) else none := by
  unfold slice charAt?
  rw [List.getElem?_map]
  by_cases hinside : index < min stop text.size - start
  · rw [List.getElem?_range' hinside, if_pos (by omega), if_pos (by omega), Nat.one_mul]
    rfl
  · rw [List.getElem?_eq_none (by rw [List.length_range']; omega)]
    split
    · rw [if_neg (by omega)]
      rfl
    · rfl

/-- A slice is as long as its part of the text. -/
@[simp]
theorem length_slice (text : Source) (start stop : Nat) :
    (text.slice start stop).length = min stop text.size - start := by
  rw [slice, List.length_map, List.length_range']

/-- The text of neighbouring ranges. -/
theorem slice_append (text : Source) {start middle stop : Nat} (hstart : start ≤ middle)
    (hstop : middle ≤ stop) :
    text.slice start middle ++ text.slice middle stop = text.slice start stop := by
  unfold slice
  rw [← List.map_append]
  by_cases hsize : middle ≤ text.size
  · have hmiddle : start + (min middle text.size - start) = middle := by omega
    have hlength : min middle text.size - start + (min stop text.size - middle) =
        min stop text.size - start := by omega
    have happend := List.range'_append_1 (s := start) (m := min middle text.size - start)
      (n := min stop text.size - middle)
    rw [hmiddle, hlength] at happend
    rw [happend]
  · have hrest : min stop text.size - middle = 0 := by omega
    have hlength : min middle text.size - start = min stop text.size - start := by omega
    rw [hrest, hlength, List.range'_zero, List.append_nil]

/-- The slice from a position to the next is its character. -/
theorem slice_singleton {text : Source} {position : Nat} {c : Char}
    (h : text.charAt? position = some c) :
    text.slice position (position + 1) = [c] := by
  obtain ⟨hinside, hhere⟩ := get_of_charAt? h
  have hlength : min (position + 1) text.size - position = 1 := by omega
  rw [slice, hlength, List.range'_one, List.map_singleton, hhere]

/-- Between a position and itself there is no text. -/
@[simp]
theorem slice_self (text : Source) (position : Nat) : text.slice position position = [] := by
  have hlength : min position text.size - position = 0 := by omega
  rw [slice, hlength, List.range'_zero, List.map_nil]

end Source

end Emend
