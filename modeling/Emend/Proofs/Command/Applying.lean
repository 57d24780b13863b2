import Emend.Command.Together
import Emend.Proofs.Command.Keeping
import Emend.Proofs.Document.Editing

/-!
# Applying collected edits

Collected edits are arranged and then made one after the other, each moved by what the ones before
it did to the length of the text. On an editable document without a protected part this comes to
making them all at once: `content_editAll`. The invariant of the induction is that the text is what
has been written so far, followed by the old text from the end of the last replaced range on; the
offset is by how much the first is longer than the part of the old text that it stands for.

`AppliedTogether` says what making edits at once means, without the sort and without the offset.
Edits that lie in order already are applied as they stand (`InOrder.arrange`).
-/

namespace Emend

namespace Replacement

variable {edits sorted : List Replacement}

/-! ## Arranging -/

/-- One edit comes no later than another: it begins before it, or there and ends no later. -/
def NoLater (edit other : Replacement) : Prop :=
  edit.range.start < other.range.start ∨
    edit.range.start = other.range.start ∧ edit.range.stop ≤ other.range.stop

/-- The edits in the order of their ranges, those with one range in the order in which they were
given. -/
structure StablySorted (edits sorted : List Replacement) : Prop where
  /-- They are the same edits. -/
  perm : sorted.Perm edits
  /-- Their ranges are in order. -/
  ordered : sorted.Pairwise NoLater
  /-- Those with one range keep their order. -/
  stable : ∀ range : Selection,
    sorted.filter (·.range = range) = edits.filter (·.range = range)

/-- The text that comes of a content by making the edits at once: in stable order, without those
that begin before the end of the last one that was kept. -/
def AppliedTogether (content : List Char) (edits : List Replacement) (after : List Char) : Prop :=
  ∃ sorted, StablySorted edits sorted ∧ InOrder content.length 0 (dropOverlaps 0 sorted) ∧
    after = together content 0 (dropOverlaps 0 sorted)

/-- Whether a replacement comes before another one can be told from where they begin and end. -/
theorem comesBefore_iff (edit other : Replacement) :
    edit.comesBefore other = true ↔ NoLater edit other := by
  unfold comesBefore NoLater
  simp only [Bool.or_eq_true, Bool.and_eq_true, decide_eq_true_eq, beq_iff_eq]

/-- The order of replacements is transitive. -/
theorem comesBefore_trans (first second third : Replacement)
    (h : first.comesBefore second = true) (h' : second.comesBefore third = true) :
    first.comesBefore third = true := by
  rw [comesBefore_iff] at h h' ⊢
  unfold NoLater at h h' ⊢
  omega

/-- Of two replacements one comes before the other. -/
theorem comesBefore_total (edit other : Replacement) :
    (edit.comesBefore other || other.comesBefore edit) = true := by
  rw [Bool.or_eq_true, comesBefore_iff, comesBefore_iff]
  unfold NoLater
  omega

/-- **Merge sort arranges edits stably.** -/
theorem stablySorted_mergeSort (edits : List Replacement) :
    StablySorted edits (edits.mergeSort comesBefore) := by
  have hperm : (edits.mergeSort comesBefore).Perm edits := List.mergeSort_perm _ _
  refine ⟨hperm, ?_, fun range => ?_⟩
  · have hpairwise : (edits.mergeSort comesBefore).Pairwise (comesBefore · · = true) :=
      List.pairwise_mergeSort comesBefore_trans comesBefore_total edits
    exact hpairwise.imp fun {edit other} => (comesBefore_iff edit other).1
  · -- The edits with this range are sorted among themselves, so sorting keeps their order, and
    -- there are as many of them afterwards.
    have hsame : (edits.filter (·.range = range)).Pairwise (comesBefore · · = true) := by
      refine List.pairwise_of_forall_mem_list fun edit hedit other hother => ?_
      have hrange : edit.range = range := by simpa using (List.mem_filter.1 hedit).2
      have hrange' : other.range = range := by simpa using (List.mem_filter.1 hother).2
      rw [comesBefore_iff, NoLater, hrange, hrange']
      exact .inr ⟨rfl, Nat.le_refl _⟩
    have hsublist : (edits.filter (·.range = range)).Sublist (edits.mergeSort comesBefore) :=
      List.sublist_mergeSort comesBefore_trans comesBefore_total hsame List.filter_sublist
    have hfilter := hsublist.filter (·.range = range)
    rw [List.filter_filter] at hfilter
    simp only [Bool.and_self] at hfilter
    exact (hfilter.eq_of_length (hperm.filter _).length_eq.symm).symm

/-- What is kept of edits in a text lies in order. -/
theorem inOrder_dropOverlaps {size : Nat} (h : ∀ edit ∈ edits, edit.range.IsWithin size)
    (bound : Nat) : InOrder size bound (dropOverlaps bound edits) := by
  induction edits generalizing bound with
  | nil => exact trivial
  | cons edit rest ih =>
    have hrest := ih fun other hmem => h other (List.mem_cons_of_mem _ hmem)
    unfold dropOverlaps
    split
    · exact hrest bound
    · next hge => exact ⟨Nat.le_of_not_lt hge, h edit List.mem_cons_self, hrest _⟩

section InOrder

variable {size position : Nat}

/-- Edits in order lie in the text, behind the position. -/
theorem InOrder.of_mem (h : InOrder size position edits) {edit : Replacement}
    (hmem : edit ∈ edits) : position ≤ edit.range.start ∧ edit.range.IsWithin size := by
  induction edits generalizing position with
  | nil => cases hmem
  | cons first rest ih =>
    obtain ⟨hposition, hrange, hrest⟩ := h
    rcases List.mem_cons.1 hmem with rfl | hlater
    · exact ⟨hposition, hrange⟩
    · obtain ⟨hbehind, hwithin⟩ := ih hrest hlater
      exact ⟨Nat.le_trans hposition (Nat.le_trans hrange.1 hbehind), hwithin⟩

/-- They are in the order of their ranges. -/
theorem InOrder.pairwise (h : InOrder size position edits) : edits.Pairwise NoLater := by
  induction edits generalizing position with
  | nil => exact .nil
  | cons edit rest ih =>
    obtain ⟨_, ⟨hle, _⟩, hrest⟩ := h
    refine .cons (fun other hmem => ?_) (ih hrest)
    obtain ⟨hbehind, hother, _⟩ := hrest.of_mem hmem
    unfold NoLater
    omega

/-- None of them begins before the end of the one before it. -/
theorem InOrder.dropOverlaps {bound : Nat} (h : InOrder size position edits)
    (hbound : bound ≤ position) : Replacement.dropOverlaps bound edits = edits := by
  induction edits generalizing position bound with
  | nil => rfl
  | cons edit rest ih =>
    obtain ⟨hposition, _, hrest⟩ := h
    rw [Replacement.dropOverlaps, if_neg (Nat.not_lt_of_le (Nat.le_trans hbound hposition)),
      ih hrest (Nat.le_refl _)]

/-- **Edits that lie in order are applied as they stand.** -/
theorem InOrder.arrange (h : InOrder size position edits) : Replacement.arrange edits = edits := by
  have hsorted : edits.Pairwise (comesBefore · · = true) :=
    h.pairwise.imp fun {edit other} => (comesBefore_iff edit other).2
  rw [Replacement.arrange, List.mergeSort_of_pairwise hsorted, h.dropOverlaps (Nat.zero_le _)]

end InOrder

end Replacement

namespace Run

open Replacement

variable {σ : Type}

/-! ## Making edits one after the other -/

/-- The document can be edited anywhere. -/
structure Open (doc : Document) : Prop where
  /-- The buffer is valid. -/
  valid : doc.IsValid
  /-- Edits are not ignored. -/
  editable : doc.editable = true
  /-- No part is protected. -/
  free : doc.protected? = none

/-- An edit of a range of an open document splices its content, and the document stays open. Dot goes
along. -/
theorem edit_of_open {session : Session σ} (h : Open session.document) {replacement : Replacement}
    (hrange : replacement.range.IsWithin session.document.size) :
    ∃ sel after, edit replacement session = (.ok sel, after) ∧ Open after.document ∧
      after.document.content =
        splice session.document.content replacement.range replacement.text ∧
      after.dot = Change.moveSelection
        ⟨replacement.range.start, replacement.range.length, replacement.text.length⟩
        after.document.size session.dot := by
  -- Nothing is refused, and nothing is clamped.
  have haccept := Document.accept_of_isWithin h.editable h.free hrange
  let edited := session.document.replaceAccepted replacement.text replacement.range none
    session.fresh .program
  have hopen : Open edited := by
    refine ⟨Document.isValid_replaceAccepted h.valid, ?_, ?_⟩
    · rw [Document.editable_replaceAccepted, h.editable]
    · rw [Document.protected_replaceAccepted, h.free]
  have hcontent : edited.content =
      splice session.document.content replacement.range replacement.text :=
    Document.content_replaceAccepted h.valid hrange
  let change : Change := ⟨replacement.range.start, replacement.range.length,
    replacement.text.length⟩
  let after : Session σ := { session with
    document := edited, dot := change.moveSelection edited.size session.dot, fresh := false }
  have hedit : edit replacement session =
      (.ok (.point (replacement.range.start + replacement.text.length)), after) := by
    unfold edit step
    dsimp only
    rw [haccept]
  exact ⟨_, after, hedit, hopen, hcontent, rfl⟩

/-- The text after a step of the edits: what is written, what stays up to the range, what is put in,
and the old text behind the range. -/
theorem splice_moved {content written : List Char} {position : Nat} {range : Selection}
    (hposition : position ≤ range.start) (hrange : range.IsWithin content.length)
    (text : List Char) :
    splice (written ++ content.drop position)
      ⟨written.length + (range.start - position),
        written.length + (range.start - position) + range.length⟩ text =
      written ++ (content.take range.start).drop position ++ text ++ content.drop range.stop := by
  have hbefore : (written ++ content.drop position).take
      (written.length + (range.start - position)) =
      written ++ (content.take range.start).drop position := by
    rw [List.take_length_add_append, List.drop_take]
  have hstop : written.length + (range.start - position) + range.length =
      written.length + (range.stop - position) := by
    have hle := hrange.1
    unfold Selection.length
    omega
  have hafter : (written ++ content.drop position).drop
      (written.length + (range.start - position) + range.length) = content.drop range.stop := by
    have hle : position ≤ range.stop := Nat.le_trans hposition hrange.1
    rw [hstop, List.drop_length_add_append, List.drop_drop, Nat.add_sub_cancel' hle]
  unfold splice
  dsimp only
  rw [hbefore, hafter]

section

variable {content written : List Char} {position : Nat} {offset : Int} {session : Session σ}

/-- An edit in its turn: the offset moves its range to where its text is now, and what is written
afterwards ends with the text that was put in. -/
theorem edit_moved {replacement : Replacement} (hposition : position ≤ replacement.range.start)
    (hrange : replacement.range.IsWithin content.length) (hopen : Open session.document)
    (hcontent : session.document.content = written ++ content.drop position)
    (hoffset : (written.length : Int) = position + offset) :
    ∃ sel after, edit (replacement.moved offset) session = (.ok sel, after) ∧
      Open after.document ∧
      after.document.content =
        written ++ (content.take replacement.range.start).drop position ++ replacement.text ++
          content.drop replacement.range.stop ∧
      ((written ++ (content.take replacement.range.start).drop position ++
        replacement.text).length : Int) = replacement.range.stop + (offset + replacement.shift) ∧
      after.dot = Change.moveSelection ⟨written.length + (replacement.range.start - position),
        replacement.range.length, replacement.text.length⟩ after.document.size session.dot := by
  have hle := hrange.1
  have hsize := hrange.2
  -- The offset is by how much what is written is longer than what it stands for.
  have hstart : ((replacement.range.start : Int) + offset).toNat =
      written.length + (replacement.range.start - position) := by
    omega
  have hmoved : replacement.moved offset =
      ⟨⟨written.length + (replacement.range.start - position),
        written.length + (replacement.range.start - position) + replacement.range.length⟩,
        replacement.text⟩ := by
    unfold moved
    dsimp only
    rw [hstart]
  have hlength : session.document.size = written.length + (content.length - position) :=
    calc session.document.size = session.document.content.length :=
          (Document.length_content hopen.valid).symm
      _ = (written ++ content.drop position).length := by rw [hcontent]
      _ = written.length + (content.length - position) := by
          rw [List.length_append, List.length_drop]
  have hwithin : (replacement.moved offset).range.IsWithin session.document.size := by
    rw [hmoved, hlength]
    unfold Selection.IsWithin Selection.length
    dsimp only
    omega
  obtain ⟨sel, after, hedit, hafter, hspliced, hdot⟩ := edit_of_open hopen hwithin
  -- In the text as it is now, the range lies in the part that is left of the old text.
  rw [hmoved, hcontent, splice_moved hposition hrange] at hspliced
  have hsame : (replacement.moved offset).range.length = replacement.range.length := by
    rw [hmoved]
    exact Nat.add_sub_cancel_left _ _
  rw [hsame, hmoved] at hdot
  have hwritten : ((written ++ (content.take replacement.range.start).drop position ++
      replacement.text).length : Int) =
      replacement.range.stop + (offset + replacement.shift) := by
    rw [List.length_append, List.length_append, List.length_drop, List.length_take]
    unfold shift Selection.length
    omega
  exact ⟨sel, after, hedit, hafter, hspliced, hwritten, hdot⟩

/-- **Making edits one after the other makes them at once.** -/
theorem content_editAll {kept : List Replacement} (horder : InOrder content.length position kept)
    (hopen : Open session.document)
    (hcontent : session.document.content = written ++ content.drop position)
    (hoffset : (written.length : Int) = position + offset) :
    ∃ after, editAll (inTurn offset kept) session = (.ok (), after) ∧ Open after.document ∧
      after.document.content = written ++ together content position kept := by
  induction kept generalizing position written session offset with
  | nil => exact ⟨session, rfl, hopen, hcontent⟩
  | cons replacement rest ih =>
    obtain ⟨hposition, hrange, hrest⟩ := horder
    obtain ⟨sel, middle, hedit, hmiddle, hspliced, hwritten, _⟩ :=
      edit_moved hposition hrange hopen hcontent hoffset
    obtain ⟨after, hall, hstill, hafter⟩ := ih hrest hmiddle hspliced hwritten
    refine ⟨after, ?_, hstill, ?_⟩
    · unfold inTurn editAll
      rw [bind_ok hedit]
      exact hall
    · rw [hafter, together_cons]
      simp only [List.append_assoc]

end

/-- Edits that lie in order are made in the text from its beginning. -/
theorem editAll_of_inOrder {session : Session σ} (h : Open session.document)
    {kept : List Replacement} (horder : InOrder session.document.content.length 0 kept) :
    ∃ after, editAll (inTurn 0 kept) session = (.ok (), after) ∧ Open after.document ∧
      after.document.content = together session.document.content 0 kept := by
  -- At first nothing is written and nothing is moved.
  have hnothing : session.document.content = [] ++ session.document.content.drop 0 := rfl
  have hstill : (([] : List Char).length : Int) = ((0 : Nat) : Int) + 0 := rfl
  exact content_editAll horder h hnothing hstill

/-- What is released in order is made as it stands. -/
theorem release_of_inOrder {session : Session σ} (h : Open session.document)
    {edits : List Replacement} (horder : InOrder session.document.content.length 0 edits) :
    ∃ after, release false edits session = (.ok [], after) ∧ Open after.document ∧
      after.document.content = together session.document.content 0 edits := by
  obtain ⟨after, hall, hopen, hafter⟩ := editAll_of_inOrder h horder
  refine ⟨after, ?_, hopen, hafter⟩
  unfold release
  rw [if_neg Bool.false_ne_true, horder.arrange, bind_ok hall]
  rfl

/-- **What is released is applied together.** -/
theorem release_of_open {session : Session σ} (h : Open session.document)
    {edits : List Replacement}
    (hedits : ∀ edit ∈ edits, edit.range.IsWithin session.document.size) :
    ∃ after, release false edits session = (.ok [], after) ∧
      AppliedTogether session.document.content edits after.document.content := by
  have hsorted := stablySorted_mergeSort edits
  have hlength := Document.length_content h.valid
  have horder : InOrder session.document.content.length 0
      (dropOverlaps 0 (edits.mergeSort comesBefore)) := by
    refine inOrder_dropOverlaps (fun edit hmem => ?_) 0
    rw [hlength]
    exact hedits edit (hsorted.perm.mem_iff.1 hmem)
  obtain ⟨after, hall, _, hafter⟩ := editAll_of_inOrder h horder
  refine ⟨after, ?_, _, hsorted, horder, hafter⟩
  unfold release arrange
  rw [if_neg (by decide), bind_ok hall]
  rfl

end Run

end Emend
