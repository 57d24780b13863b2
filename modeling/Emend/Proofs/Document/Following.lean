import Emend.Proofs.Session.Registered

/-!
# Selections follow their text

When a range of the text is replaced, every registered selection but the caller's goes along with
what it covers (`selections_follow`). A selection apart from the range covers the same text as
before, one around the range covers its text with the replacement made in it, and one strictly
inside is left empty where the range began. What is inserted right at an end of a selection stays
outside of it: a position moves only if it lies behind the start of the range.

All endpoints of selections move by one rule, which keeps them in order, and a selection within the
text does not reach beyond the new one; so cutting it off at the end of the text does nothing to it
(`moveSelection_of_isWithin`).
-/

namespace Emend

variable {σ : Type}

/-! ## Where positions go -/

namespace Change

variable {change : Change} {position : Nat}

/-- The replacement of a range by `count` characters. -/
def replacing (range : Selection) (count : Nat) : Change :=
  ⟨range.start, range.length, count⟩

/-- A position up to the start of a change stays. -/
theorem movePoint_before (h : position ≤ change.start) : change.movePoint position = position :=
  if_pos h

/-- A position inside of the removed text goes to its start. -/
theorem movePoint_inside (hstart : change.start < position)
    (hstop : position < change.start + change.removed) :
    change.movePoint position = change.start := by
  rw [movePoint, if_neg (Nat.not_le_of_lt hstart), if_pos hstop]

/-- A position behind the removed text moves along with the text. -/
theorem movePoint_behind (hstart : change.start < position)
    (hstop : change.start + change.removed ≤ position) :
    change.movePoint position = position + change.inserted - change.removed := by
  rw [movePoint, if_neg (Nat.not_le_of_lt hstart), if_neg (Nat.not_lt_of_le hstop)]

/-- A position of the text goes to a position of the new text. -/
theorem movePoint_le {range : Selection} {size : Nat} (count : Nat) (hrange : range.IsWithin size)
    (h : position ≤ size) :
    (replacing range count).movePoint position + range.length ≤ size + count := by
  obtain ⟨hle, hsize⟩ := hrange
  have hlength : range.length = range.stop - range.start := rfl
  by_cases hbefore : position ≤ range.start
  · rw [movePoint_before hbefore]
    omega
  · have hstart : range.start < position := Nat.lt_of_not_le hbefore
    by_cases hinside : position < range.start + range.length
    · rw [movePoint_inside hstart hinside]
      show range.start + range.length ≤ size + count
      omega
    · rw [movePoint_behind hstart (Nat.le_of_not_lt hinside)]
      show position + count - range.length + range.length ≤ size + count
      omega

end Change

namespace Document

variable {doc after : Document} {range sel moved : Selection} {text : List Char}
  {skip handle : Option SelectionHandle}

/-! ## What a moved selection covers -/

/-- What has become of a selection of a document when `text` was put in place of `range`: it was
`sel`, and is `moved` now. -/
structure Follows (doc after : Document) (range : Selection) (text : List Char)
    (sel moved : Selection) : Prop where
  /-- It is a range of the new text. -/
  within : moved.IsWithin after.size
  /-- Apart from the range, it covers the text that it covered before. -/
  apart : sel.stop ≤ range.start ∨ range.stop ≤ sel.start ∧ range.start < sel.start →
    after.text moved = doc.text sel
  /-- Around the range, it covers its text with the range replaced in it. -/
  around : sel.start ≤ range.start → range.stop ≤ sel.stop → range.start < sel.stop →
    after.text moved =
      splice (doc.text sel) ⟨range.start - sel.start, range.stop - sel.start⟩ text
  /-- Strictly inside the range, it is left empty where the range began. -/
  inside : range.start < sel.start → sel.stop < range.stop → moved = .point range.start

/-- How long the new text is. -/
theorem size_of_splice (hvalid : doc.IsValid) (hafter : after.IsValid)
    (hcontent : after.content = splice doc.content range text)
    (hrange : range.IsWithin doc.size) : after.size + range.length = doc.size + text.length := by
  have hlength : (splice doc.content range text).length + range.length =
      doc.content.length + text.length := length_splice (length_content hvalid ▸ hrange)
  rwa [← hcontent, length_content hafter, length_content hvalid] at hlength

/-- A selection of the text is not cut off when it is moved. -/
theorem moveSelection_of_isWithin (hsize : after.size + range.length = doc.size + text.length)
    (hrange : range.IsWithin doc.size) (hsel : sel.IsWithin doc.size) :
    (Change.replacing range text.length).moveSelection after.size sel =
      ⟨(Change.replacing range text.length).movePoint sel.start,
        (Change.replacing range text.length).movePoint sel.stop⟩ := by
  obtain ⟨hle, hstop⟩ := hsel
  have hstartMoved := Change.movePoint_le text.length hrange (Nat.le_trans hle hstop)
  have hstopMoved := Change.movePoint_le text.length hrange hstop
  rw [Change.moveSelection, Nat.min_eq_left (by omega), Nat.min_eq_left (by omega)]

/-- **Where the ends of a selection go, its text is.** -/
theorem follows_of_splice (hvalid : doc.IsValid) (hafter : after.IsValid)
    (hcontent : after.content = splice doc.content range text) (hrange : range.IsWithin doc.size)
    (hsel : sel.IsWithin doc.size) :
    doc.Follows after range text sel
      ⟨(Change.replacing range text.length).movePoint sel.start,
        (Change.replacing range text.length).movePoint sel.stop⟩ := by
  have hsize := size_of_splice hvalid hafter hcontent hrange
  have hwithin := (Change.replacing range text.length).moveSelection_isWithin after.size hsel.1
  rw [moveSelection_of_isWithin hsize hrange hsel] at hwithin
  have hrange' : range.IsWithin doc.content.length := length_content hvalid ▸ hrange
  have hsel' : sel.IsWithin doc.content.length := length_content hvalid ▸ hsel
  obtain ⟨hle, hstop⟩ := hsel
  obtain ⟨hrangeLe, hrangeStop⟩ := hrange
  -- The end of the range, as the change knows it.
  have hend : range.start + range.length = range.stop := by
    simp only [Selection.length]
    omega
  refine ⟨hwithin, ?apart, ?around, ?inside⟩
  case apart =>
    intro hapart
    rw [text_of_isWithin hafter hwithin, hcontent, text_of_isWithin hvalid ⟨hle, hstop⟩]
    obtain hbefore | ⟨hbehind, hstart⟩ := hapart
    · rw [Change.movePoint_before (Nat.le_trans hle hbefore), Change.movePoint_before hbefore]
      exact sliceOf_splice_before text hrange' hbefore
    · have hremoved : range.start + range.length ≤ sel.start := hend ▸ hbehind
      rw [Change.movePoint_behind hstart hremoved,
        Change.movePoint_behind (Nat.lt_of_lt_of_le hstart hle) (Nat.le_trans hremoved hle)]
      exact sliceOf_splice_behind text hrange' hbehind
  case around =>
    intro hbefore hbehind hstart
    have hremoved : range.start + range.length ≤ sel.stop := hend ▸ hbehind
    rw [text_of_isWithin hafter hwithin, hcontent, text_of_isWithin hvalid ⟨hle, hstop⟩,
      Change.movePoint_before hbefore, Change.movePoint_behind hstart hremoved]
    exact sliceOf_splice_around text hrange' hsel' hbefore hbehind
  case inside =>
    intro hstart hlt
    have hremoved : sel.stop < range.start + range.length := by omega
    rw [Change.movePoint_inside hstart (Nat.lt_of_le_of_lt hle hremoved),
      Change.movePoint_inside (Nat.lt_of_lt_of_le hstart hle) hremoved]
    rfl

/-! ## Edits -/

/-- The document takes an edit: an accepted replacement, which leaves the selection of `skip` to its
caller, or an entry of the history that is replayed. `replaceAll` replaces a range as well, but then
puts every selection back where it was. -/
inductive Takes (doc : Document) (range : Selection) (text : List Char) :
    Option SelectionHandle → Document → Prop where
  /-- A range is replaced that is not registered. -/
  | replace {target : Selection} (accepted : doc.accept target = .ok range) (solid : Bool)
    (origin : EditOrigin) : Takes doc range text none (doc.replace text target solid origin).1
  /-- The range of a registered selection is replaced. -/
  | replaceAt {handle : SelectionHandle} {target : Selection}
    (registered : doc.selections.get? handle = some target)
    (accepted : doc.accept target = .ok range) (solid : Bool) (origin : EditOrigin) :
    Takes doc range text (some handle) (doc.replaceAt text handle solid origin)
  /-- A side of an entry of the history is put back. -/
  | replay (passage : Passage)
    (clamped : Selection.clamp ⟨passage.start, passage.stop⟩ doc.size = range)
    (skip : Option SelectionHandle) : Takes doc range text skip (doc.replay passage text skip).1

/-- What becomes of the registered selections when a range is replaced, apart from that of
`skip`. -/
structure Moves (doc after : Document) (range : Selection) (text : List Char)
    (skip : Option SelectionHandle) : Prop where
  /-- The buffer is valid. -/
  valid : after.IsValid
  /-- The text is replaced. -/
  content : after.content = splice doc.content range text
  /-- The others are moved. -/
  get? : ∀ other, skip ≠ some other → after.selections.get? other =
    (doc.selections.get? other).map
      ((Change.replacing range text.length).moveSelection after.size)

/-- An edit of the text moves the registered selections along. -/
theorem moves_apply (hvalid : doc.IsValid) (text : List Char) (hrange : range.IsWithin doc.size)
    (skip : Option SelectionHandle) : doc.Moves (doc.apply text range skip) range text skip := by
  refine ⟨isValid_apply hvalid text range skip, content_apply hvalid text skip hrange, ?_⟩
  intro other hother
  show Selections.get? (Selections.shift _ _ _ _) other = _
  rw [Selections.get?_shift, if_neg hother, selections_substitute]
  rfl

/-- An accepted replacement moves the registered selections. -/
theorem selections_replaceAccepted (doc : Document) (text : List Char) (range : Selection)
    (skip : Option SelectionHandle) (solid : Bool) (origin : EditOrigin) :
    (doc.replaceAccepted text range skip solid origin).selections =
      doc.selections.shift (.replacing range text.length) skip
        (doc.replaceAccepted text range skip solid origin).size := by
  -- The entry in the history has no part in the size.
  have hsize : (({ doc with modified := true }.record text range solid origin).substitute text
      range).size = (doc.substitute text range).size := by
    unfold substitute
    split <;> rfl
  rw [size_replaceAccepted, ← hsize]
  unfold replaceAccepted
  rw [selections_countFilesAdded]
  show Selections.shift _ _ _ _ = _
  rw [selections_substitute]
  rfl

/-- An edit that is recorded moves the registered selections along. -/
theorem moves_replaceAccepted (hvalid : doc.IsValid) (text : List Char)
    (hrange : range.IsWithin doc.size) (skip : Option SelectionHandle) (solid : Bool)
    (origin : EditOrigin) :
    doc.Moves (doc.replaceAccepted text range skip solid origin) range text skip := by
  refine ⟨isValid_replaceAccepted hvalid, content_replaceAccepted hvalid hrange, ?_⟩
  intro other hother
  rw [selections_replaceAccepted, Selections.get?_shift, if_neg hother]

/-- Every edit replaces a range of the text, and moves the selections. -/
theorem Takes.moves (h : doc.Takes range text skip after) (hvalid : doc.IsValid) :
    range.IsWithin doc.size ∧ doc.Moves after range text skip := by
  cases h with
  | @replace target accepted solid origin =>
    have hrange := isWithin_of_accept accepted
    refine ⟨hrange, ?_⟩
    unfold Document.replace replaceSkipping
    rw [accepted]
    exact moves_replaceAccepted hvalid text hrange none solid origin
  | @replaceAt handle target registered accepted solid origin =>
    have hrange := isWithin_of_accept accepted
    refine ⟨hrange, ?_⟩
    obtain ⟨hafter, hcontent, hget⟩ :=
      moves_replaceAccepted hvalid text hrange (some handle) solid origin
    unfold Document.replaceAt replaceSkipping
    rw [registered]
    dsimp only
    rw [accepted]
    refine ⟨hafter, hcontent, fun other hother => ?_⟩
    -- The caller's own selection is set in the end.
    have hne : other ≠ handle := fun heq => hother (heq ▸ rfl)
    dsimp only
    rw [Selections.get?_set, if_neg fun hand => hne hand.1]
    exact hget other hother
  | replay passage clamped skip =>
    subst clamped
    have hrange := Selection.clamp_isWithin ⟨passage.start, passage.stop⟩ doc.size
    obtain ⟨hafter, hcontent, hget⟩ := moves_apply hvalid text hrange skip
    exact ⟨hrange, hafter, hcontent, hget⟩

/-- **Selections follow their text.** When an edit puts a text in place of a range, the ends of all
registered selections but the caller's move by one rule, which keeps any two positions in order. A
selection within the text stays within it, and covers the same text as before if it lies apart from
the range, its text with the replacement made in it if it lies around the range, and nothing, at the
start of the range, if it lies strictly inside. -/
theorem selections_follow (hvalid : doc.IsValid) (htakes : doc.Takes range text skip after) :
    (∀ position other, position ≤ other →
      (Change.replacing range text.length).movePoint position ≤
        (Change.replacing range text.length).movePoint other) ∧
    ∀ handle sel, skip ≠ some handle → doc.selections.get? handle = some sel →
      sel.IsWithin doc.size →
      ∃ moved, after.selections.get? handle = some moved ∧
        moved = ⟨(Change.replacing range text.length).movePoint sel.start,
          (Change.replacing range text.length).movePoint sel.stop⟩ ∧
        doc.Follows after range text sel moved := by
  obtain ⟨hrange, hafter, hcontent, hmoved⟩ := htakes.moves hvalid
  refine ⟨fun _ _ => Change.movePoint_mono _, fun handle sel hother hget hsel => ?_⟩
  have hsize := size_of_splice hvalid hafter hcontent hrange
  refine ⟨_, ?_, rfl, follows_of_splice hvalid hafter hcontent hrange hsel⟩
  rw [hmoved handle hother, hget, Option.map_some, moveSelection_of_isWithin hsize hrange hsel]

/-- A text of which the last character is registered. -/
def selected : Document :=
  (Operation.run [.replace "abcd".toList (.point 0) true .program, .addSelection ⟨3, 4⟩]
    (⟨.scratch "+notes", .empty, (), .point 0, true⟩ : Session Unit)).document

/-- The selection behind two characters that are replaced by three. -/
theorem selections_follow_behind :
    ∃ moved, (selected.replace "xyz".toList ⟨1, 3⟩ true .program).1.selections.get? ⟨0⟩ =
        some moved ∧ moved = ⟨4, 5⟩ ∧
      (selected.replace "xyz".toList ⟨1, 3⟩ true .program).1.text moved = "d".toList := by
  have hvalid : selected.IsValid := isValid_run _ _ (.blank _ _ _ .plain)
  have hget : selected.selections.get? ⟨0⟩ = some ⟨3, 4⟩ := by decide +kernel
  have hwithin : Selection.IsWithin ⟨3, 4⟩ selected.size := ⟨by decide, by decide +kernel⟩
  have haccept : selected.accept ⟨1, 3⟩ = .ok ⟨1, 3⟩ :=
    accept_of_isWithin (by decide +kernel) (by decide +kernel) ⟨by decide, by decide +kernel⟩
  have htext : selected.text ⟨3, 4⟩ = "d".toList := by decide +kernel
  obtain ⟨_, hfollow⟩ := selections_follow hvalid (.replace haccept true .program)
  obtain ⟨moved, hmoved, rfl, hfollows⟩ := hfollow ⟨0⟩ ⟨3, 4⟩ nofun hget hwithin
  have hbehind : (3 : Nat) ≤ 3 ∧ 1 < 3 := by decide
  exact ⟨_, hmoved, by decide, (hfollows.apart (.inr hbehind)).trans htext⟩

end Document

end Emend
