import Emend.Document.Editing
import Emend.Text.Splice

/-!
# Replaying edits on plain text

What a history and a list of events say about a text. An entry of the history can be applied to a
text that holds what the entry removed, at the place where it was removed; it can be taken back
from a text that holds what it put there. An event is a deletion or an insertion.
-/

namespace Emend

/-- Puts `text` in place of a passage, if the passage lies where it says. -/
def Passage.replace? (passage : Passage) (content text : List Char) : Option (List Char) :=
  let range : Selection := ⟨passage.start, passage.stop⟩
  if passage.start ≤ passage.stop ∧ passage.stop ≤ content.length ∧
      sliceOf content range = passage.text then
    some (splice content range text)
  else none

namespace HistoryEntry

/-- The text after the edit, for the text before it. -/
def applyTo? (entry : HistoryEntry) (content : List Char) : Option (List Char) :=
  entry.before.replace? content entry.after.text

/-- The text before the edit, for the text after it. -/
def takeBackFrom? (entry : HistoryEntry) (content : List Char) : Option (List Char) :=
  entry.after.replace? content entry.before.text

/-- The text after several edits, the first of them applied first. -/
def applyAll? (entries : List HistoryEntry) (content : List Char) : Option (List Char) :=
  entries.foldlM (fun content entry => entry.applyTo? content) content

/-- The text before several edits, the first of the list taken back first. -/
def takeBackAll? (entries : List HistoryEntry) (content : List Char) : Option (List Char) :=
  entries.foldlM (fun content entry => entry.takeBackFrom? content) content

end HistoryEntry

/-- The history tells how the text came about: taking back the applied entries leads to `base` and
applying them leads from there to `content`, and the undone entries can be applied from there on
and taken back again. -/
structure History.Explains (history : History) (base content : List Char) : Prop where
  /-- Applying the applied entries to the base gives the text. -/
  applied : HistoryEntry.applyAll? history.applied.reverse base = some content
  /-- Taking them back gives the base. -/
  takenBack : HistoryEntry.takeBackAll? history.applied content = some base
  /-- The undone entries can be applied and taken back again. -/
  undone : ∃ last, HistoryEntry.applyAll? history.undone content = some last ∧
    HistoryEntry.takeBackAll? history.undone.reverse last = some content

/-- The text after an event. -/
def EditEvent.applyTo (event : EditEvent) (content : List Char) : List Char :=
  match event.kind with
  | .delete => splice content ⟨event.start, event.stop⟩ []
  | .insert => splice content (.point event.start) event.text

/-- The text after several events. -/
def EditEvent.applyAll (events : List EditEvent) (content : List Char) : List Char :=
  events.foldl (fun content event => event.applyTo content) content

/-- A history without entries explains any text. -/
theorem History.Explains.empty (typingInterval : Nat) (content : List Char) :
    (History.empty typingInterval).Explains content content :=
  ⟨rfl, rfl, content, rfl, rfl⟩

end Emend
