import Emend.Highlight.Region
import Emend.Text.Selection

/-!
# The scan of a whole text

What the tags of a text and its regions are, without anything remembered: those of the scan that
begins at the beginning of the text and goes on to its end.
-/

namespace Emend.ScanState

/-- The states in which a scan comes to each of its tokens, from `state` on. -/
def trace (regions : List Region) (text : Source) (state : ScanState) : List ScanState :=
  if _ : state.position < text.size then
    state :: trace regions text (state.next regions text).1
  else []
termination_by text.size - state.position
decreasing_by
  have := lt_next regions text state
  omega

/-- The tags of the characters from the position of `state` on. -/
def tagsFrom (regions : List Region) (text : Source) (state : ScanState) : List Nat :=
  if _ : state.position < text.size then
    let token := state.next regions text
    List.replicate (min token.1.position text.size - state.position) token.2 ++
      tagsFrom regions text token.1
  else []
termination_by text.size - state.position
decreasing_by
  have := lt_next regions text state
  omega

/-- The tags of a text. -/
def tags (regions : List Region) (text : Source) : List Nat :=
  tagsFrom regions text origin

/-- Where the region ends that `state` lies in: after its closing delimiter, or at the end of the
text. -/
def regionStop (regions : List Region) (text : Source) (state : ScanState) : Nat :=
  if _ : state.position < text.size then
    if state.region = none then state.position
    else regionStop regions text (state.next regions text).1
  else text.size
termination_by text.size - state.position
decreasing_by
  have := lt_next regions text state
  omega

/-- The region that the next token opens, if it opens one: where it begins, with its opening
delimiter, and where it ends. -/
def opening? (regions : List Region) (text : Source) (state : ScanState) : Option Selection :=
  let opened := (state.next regions text).1
  if state.region = none ∧ opened.region ≠ none then
    some ⟨state.position, regionStop regions text opened⟩
  else none

/-- The regions that a scan opens from `state` on. -/
def spansFrom (regions : List Region) (text : Source) (state : ScanState) : List Selection :=
  (trace regions text state).filterMap (opening? regions text)

/-- The regions of a text: where each begins, with its opening delimiter, and where it ends. -/
def spans (regions : List Region) (text : Source) : List Selection :=
  spansFrom regions text origin

/-- Every character has a tag. -/
theorem length_tagsFrom (regions : List Region) (text : Source) (state : ScanState) :
    (tagsFrom regions text state).length = text.size - state.position := by
  fun_induction tagsFrom regions text state with
  | case1 state _ token ih =>
    have hlt : state.position < token.1.position := lt_next regions text state
    rw [List.length_append, List.length_replicate, ih]
    omega
  | case2 => simp only [List.length_nil]; omega

end Emend.ScanState
