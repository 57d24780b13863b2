/-!
# Sets of code points as sorted ranges

A property of characters is stored as the closed ranges of code points that have it, disjoint and
in increasing order. Membership is decided by halving the part of the table that can still hold
the code point, so a look-up in a table of several hundred ranges inspects about ten of them.
-/

namespace Emend

/-- A set of code points: closed ranges `(first, last)`, disjoint and in increasing order. -/
structure CodeRanges where
  /-- The ranges, in increasing order. -/
  ranges : Array (Nat × Nat)

namespace CodeRanges

/-- Whether one of the ranges with index in `[lo, hi)` holds `code`. The range in the middle
decides on which side to go on. -/
def search (set : CodeRanges) (code lo hi : Nat) : Bool :=
  if lo < hi then
    let mid := lo + (hi - lo) / 2
    match set.ranges[mid]? with
    | none => false
    | some (first, last) =>
      if code < first then set.search code lo mid
      else if last < code then set.search code (mid + 1) hi
      else true
  else false
termination_by hi - lo

/-- Whether the set holds `code`. -/
def contains (set : CodeRanges) (code : Nat) : Bool :=
  set.search code 0 set.ranges.size

end CodeRanges

end Emend
