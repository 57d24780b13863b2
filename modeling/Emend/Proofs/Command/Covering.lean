import Emend.Proofs.Command.Failing
import Emend.Proofs.Command.Substituting
import Emend.Proofs.Command.Transferring

/-!
# What dot covers after a loop

A loop makes its range dot, and releases the edits of its rounds when all of them are done. If these
lie in the range, dot goes along with each of them that begins before its end (`spans_moved`), also
with a text that is put in right at its start. A text that is put in right at its end comes behind
dot, for a position stays where it is if an edit begins there. Edits come in order, so once a text
has been put in at the end, only others of this kind are left: what dot covers in the end is the
range rewritten by all other edits (`RewritesIn`), and this is the whole rewritten range exactly if
nothing is put in at its end (`Session.interpret_covers`).

A substitution spares itself the case, as it does not replace a match that begins at the end of its
range.
-/

namespace Emend

variable {content : List Char} {window : Selection} {position : Nat}

namespace Replacement

variable {edits : List Replacement} {size last : Nat}

/-- What edits put in right at a position, in their order. -/
def putInAt (last : Nat) (edits : List Replacement) : List Char :=
  (edits.filter (·.range = .point last)).flatMap (·.text)

/-- What becomes of a window, except for what is put in right at its end. -/
def rewritten (content : List Char) (window : Selection) (edits : List Replacement) : List Char :=
  together (content.take window.stop) window.start (edits.filter (·.range ≠ .point window.stop))

/-- Nothing is put in there just if every edit there puts in nothing. -/
theorem putInAt_eq_nil_iff :
    putInAt last edits = [] ↔ ∀ edit ∈ edits, edit.range = .point last → edit.text = [] := by
  simp only [putInAt, List.flatMap_eq_nil_iff, List.mem_filter, decide_eq_true_eq, and_imp]

/-- An insertion at the place comes before the others there. -/
theorem putInAt_cons_of_eq {edit : Replacement} (h : edit.range = .point last)
    (rest : List Replacement) : putInAt last (edit :: rest) = edit.text ++ putInAt last rest := by
  rw [putInAt, List.filter_cons_of_pos (by simpa using h), List.flatMap_cons]
  rfl

/-- Other replacements put nothing in there. -/
theorem putInAt_cons_of_ne {edit : Replacement} (h : edit.range ≠ .point last)
    (rest : List Replacement) : putInAt last (edit :: rest) = putInAt last rest := by
  rw [putInAt, List.filter_cons_of_neg (by simpa using h)]
  rfl

/-- An edit up to a position, other than at it, begins before it. -/
theorem start_lt_of_ne_point {edit : Replacement} (hrange : edit.range.IsWithin last)
    (h : edit.range ≠ .point last) : edit.range.start < last := by
  obtain ⟨hle, hstop⟩ := hrange
  refine Nat.lt_of_not_le fun hge => h ?_
  exact Selection.ext (Nat.le_antisymm (Nat.le_trans hle hstop) hge)
    (Nat.le_antisymm hstop (Nat.le_trans hge hle))

/-- What lies in order from a position on, and up to it, lies at it. -/
theorem InOrder.eq_point (h : InOrder last last edits) :
    ∀ edit ∈ edits, edit.range = .point last := by
  intro edit hmem
  obtain ⟨hstart, hrange⟩ := h.of_mem hmem
  by_contra hne
  exact Nat.not_le_of_lt (start_lt_of_ne_point hrange hne) hstart

/-- What lies at one position is put in there. -/
theorem together_of_eq_point (h : ∀ edit ∈ edits, edit.range = .point last)
    (content : List Char) :
    together content last edits = putInAt last edits ++ content.drop last := by
  induction edits with
  | nil => rfl
  | cons edit rest ih =>
    have hhere := h edit List.mem_cons_self
    have hnothing : (content.take last).drop last = [] :=
      List.drop_of_length_le (List.length_take_le _ _)
    have hstart : edit.range.start = last := congrArg Selection.start hhere
    have hstop : edit.range.stop = last := congrArg Selection.stop hhere
    rw [together, hstart, hstop, hnothing, List.nil_append,
      ih fun other hmem => h other (List.mem_cons_of_mem _ hmem), putInAt_cons_of_eq hhere,
      List.append_assoc]

/-- **Edits up to a position rewrite the text before it**, and then put in what is put in there. -/
theorem together_eq_putInAt (h : InOrder last position edits) (hposition : position ≤ last)
    (content : List Char) :
    together content position edits =
      together (content.take last) position (edits.filter (·.range ≠ .point last)) ++
        (putInAt last edits ++ content.drop last) := by
  induction edits generalizing position with
  | nil =>
    have hdrop : content.drop last = (content.drop position).drop (last - position) := by
      rw [List.drop_drop, Nat.add_sub_cancel' hposition]
    show content.drop position = (content.take last).drop position ++ ([] ++ content.drop last)
    rw [List.nil_append, hdrop, List.drop_take, List.take_append_drop]
  | cons edit rest ih =>
    obtain ⟨_, hrange, hrest⟩ := h
    by_cases hend : edit.range = .point last
    · -- All edits behind this one put something in at the same place.
      have hstop : edit.range.stop = last := congrArg Selection.stop hend
      have hstart : edit.range.start = last := congrArg Selection.start hend
      rw [hstop] at hrest
      have hpoints : ∀ other ∈ edit :: rest, other.range = .point last :=
        List.forall_mem_cons.2 ⟨hend, hrest.eq_point⟩
      have hnone : (edit :: rest).filter (·.range ≠ .point last) = [] :=
        List.filter_eq_nil_iff.2 fun other hmem => by simpa using hpoints other hmem
      rw [hnone, together, together, hstart, hstop, together_of_eq_point hrest.eq_point,
        putInAt_cons_of_eq hend]
      simp only [List.append_assoc]
    · have hkept : (edit :: rest).filter (·.range ≠ .point last) =
          edit :: rest.filter (·.range ≠ .point last) :=
        List.filter_cons_of_pos (decide_eq_true hend)
      have hstart := start_lt_of_ne_point hrange hend
      rw [hkept, together, together, ih hrest hrange.2, putInAt_cons_of_ne hend, List.take_take,
        Nat.min_eq_left (Nat.le_of_lt hstart)]
      simp only [List.append_assoc]

/-! ## Edits that are all made -/

/-- What is left after overlaps are dropped is in the order in which it was. -/
theorem dropOverlaps_sublist (bound : Nat) (edits : List Replacement) :
    (dropOverlaps bound edits).Sublist edits := by
  induction edits generalizing bound with
  | nil => exact .refl _
  | cons edit rest ih =>
    unfold dropOverlaps
    split
    · exact (ih bound).cons edit
    · exact (ih _).cons_cons edit

/-- If none is left out, arranging edits sorts them. -/
theorem stablySorted_arrange (h : (arrange edits).Perm edits) :
    StablySorted edits (arrange edits) := by
  have hsorted := stablySorted_mergeSort edits
  have hsame : arrange edits = edits.mergeSort comesBefore :=
    (dropOverlaps_sublist 0 _).eq_of_length (h.length_eq.trans hsorted.perm.length_eq.symm)
  rwa [hsame]

/-- What is put in at a position is put in there in the order in which it was collected. -/
theorem StablySorted.putInAt_eq {sorted : List Replacement} (h : StablySorted edits sorted)
    (last : Nat) : putInAt last sorted = putInAt last edits := by
  rw [putInAt, putInAt, h.stable (.point last)]

/-- Arranged edits of a window lie in it in order. -/
theorem inOrder_arrange
    (hwindow : ∀ edit ∈ edits, window.start ≤ edit.range.start ∧ edit.range.IsWithin window.stop) :
    InOrder window.stop window.start (arrange edits) := by
  have hsorted := stablySorted_mergeSort edits
  have hwithin : ∀ edit ∈ edits.mergeSort comesBefore, edit.range.IsWithin window.stop :=
    fun edit hmem => (hwindow edit (hsorted.perm.mem_iff.1 hmem)).2
  have horder : InOrder window.stop 0 (arrange edits) := inOrder_dropOverlaps hwithin 0
  -- The first of them begins in the window, and the others behind it.
  cases harrange : arrange edits with
  | nil => exact trivial
  | cons first rest =>
    have hfirst : first ∈ arrange edits := harrange ▸ List.mem_cons_self
    have hmem : first ∈ edits :=
      hsorted.perm.mem_iff.1 ((dropOverlaps_sublist 0 _).subset hfirst)
    rw [harrange] at horder
    exact ⟨(hwindow first hmem).1, horder.2⟩

end Replacement

/-- What a session has become by making edits in a window that is dot. -/
structure Session.RewritesIn {σ : Type} (session : Session σ) (window : Selection)
    (edits : List Replacement) (after : Session σ) : Prop where
  /-- The window is rewritten, with the texts behind it that are put in right at its end. -/
  content : after.document.content =
    session.document.content.take window.start ++
      Replacement.rewritten session.document.content window edits ++
      (Replacement.putInAt window.stop edits ++ session.document.content.drop window.stop)
  /-- Dot is the rewritten window without these texts. -/
  dot : after.dot = ⟨window.start,
    window.start + (Replacement.rewritten session.document.content window edits).length⟩

namespace Run

open Replacement

variable {σ : Type} {written : List Char} {offset : Int} {session after : Session σ}
  {kept edits : List Replacement}

/-! ## Making the edits -/

/-- A selection up to the place where a text is put in stays as it is. -/
theorem moveSelection_of_le {sel : Selection} {change : Change} {size : Nat}
    (hstart : sel.start ≤ change.start) (hstop : sel.stop ≤ change.start)
    (hsize : change.start ≤ size) : change.moveSelection size sel = sel := by
  rw [Change.moveSelection, Change.movePoint_before hstart, Change.movePoint_before hstop,
    Nat.min_eq_left (Nat.le_trans hstart hsize), Nat.min_eq_left (Nat.le_trans hstop hsize)]

/-- Together with what has been put in right at the end of the window, dot spans it. -/
theorem spans_editAll_putInAt {left : Nat} (horder : InOrder window.stop position kept)
    (hopen : Open session.document)
    (hcontent : session.document.content = written ++ content.drop position)
    (hoffset : (written.length : Int) = position + offset)
    (hwindow : window.stop ≤ content.length) (hfirst : window.start ≤ written.length)
    (hleft : left = 0 ∨ position = window.stop)
    (hspans : Spans window content session.document.content
      ⟨session.dot.start, session.dot.stop + left⟩)
    (hall : editAll (inTurn offset kept) session = (.ok (), after)) :
    Spans window content after.document.content
      ⟨after.dot.start, after.dot.stop + (left + (putInAt window.stop kept).length)⟩ := by
  induction kept generalizing position written session offset left with
  | nil =>
    cases hall
    exact hspans
  | cons replacement rest ih =>
    obtain ⟨hposition, hrange, hrest⟩ := horder
    have hinside : replacement.range.IsWithin content.length :=
      ⟨hrange.1, Nat.le_trans hrange.2 hwindow⟩
    obtain ⟨sel, middle, hedit, hmiddle, hspliced, hwritten, hdot⟩ :=
      edit_moved hposition hinside hopen hcontent hoffset
    rw [inTurn, editAll, bind_ok hedit] at hall
    rw [← Document.length_content hmiddle.valid] at hdot
    have hnext := length_spliced hposition hinside hcontent hspliced
    have hfurther : window.start ≤ (written ++
        (content.take replacement.range.start).drop position ++ replacement.text).length := by
      rw [List.append_assoc, List.length_append]
      exact Nat.le_trans hfirst (Nat.le_add_right _ _)
    by_cases hend : replacement.range = .point window.stop
    · -- Dot ends before the text that is put in, and stays as it is.
      have hstart : replacement.range.start = window.stop := congrArg Selection.start hend
      have hstop : replacement.range.stop = window.stop := by
        rw [hend]
        rfl
      have hlength : session.document.content.length =
          written.length + (content.length - position) := by
        rw [hcontent, List.length_append, List.length_drop]
      have hbefore := hspans.start
      have hbehind := hspans.stop
      dsimp only at hbefore hbehind
      unfold Selection.length at hnext
      have hsame : middle.dot = session.dot := by
        rw [hdot]
        apply moveSelection_of_le <;> dsimp only <;> omega
      have hmoved : Spans window content middle.document.content
          ⟨middle.dot.start, middle.dot.stop + (left + replacement.text.length)⟩ := by
        rw [hsame]
        exact ⟨hbefore, by dsimp only; omega⟩
      rw [putInAt_cons_of_eq hend, List.length_append, ← Nat.add_assoc left]
      exact ih hrest hmiddle hspliced hwritten hfurther (.inr hstop) hmoved hall
    · -- Nothing has been put in at the end so far, as this edit begins before it.
      have hlt := start_lt_of_ne_point hrange hend
      obtain rfl : left = 0 := hleft.resolve_right fun heq => by omega
      have hmoved : Spans window content middle.document.content middle.dot := by
        rw [hdot]
        exact spans_moved hposition hinside hcontent hspliced hwindow hfirst hlt hrange.2 hspans
      rw [putInAt_cons_of_ne hend]
      exact ih hrest hmiddle hspliced hwritten hfurther (.inl rfl) hmoved hall

/-- **Edits of a window rewrite it**, if none of them is left out. -/
theorem release_rewrites (hopen : Open session.document) (hdot : session.dot = window)
    (hwindow : window.IsWithin session.document.size)
    (hinside : ∀ edit ∈ edits, window.start ≤ edit.range.start ∧
      edit.range.IsWithin window.stop)
    (hrelease : release false edits session = (.ok [], after)) :
    session.RewritesIn window (arrange edits) after := by
  obtain ⟨hle, hsize⟩ := hwindow
  rw [← Document.length_content hopen.valid] at hsize
  have hkept := inOrder_arrange hinside
  have horder : InOrder session.document.content.length window.start (arrange edits) :=
    hkept.mono hsize
  -- The text in front of the window counts as written.
  have hcontent : session.document.content = session.document.content.take window.start ++
      session.document.content.drop window.start :=
    (List.take_append_drop _ _).symm
  have hfront : (session.document.content.take window.start).length = window.start :=
    List.length_take_of_le (Nat.le_trans hle hsize)
  have hoffset : ((session.document.content.take window.start).length : Int) =
      window.start + 0 := by
    rw [hfront, Int.add_zero]
  obtain ⟨last, hall, _, hlast⟩ := content_editAll horder hopen hcontent hoffset
  obtain rfl : last = after := by
    unfold release at hrelease
    rw [if_neg Bool.false_ne_true, bind_ok hall] at hrelease
    exact congrArg Prod.snd hrelease
  have hspans : Spans window session.document.content session.document.content
      ⟨session.dot.start, session.dot.stop + 0⟩ := by
    rw [hdot]
    exact ⟨rfl, by dsimp only; omega⟩
  obtain ⟨hstart, hstop⟩ := spans_editAll_putInAt hkept hopen hcontent hoffset hsize
    (Nat.le_of_eq hfront.symm) (.inl rfl) hspans hall
  rw [together_eq_putInAt hkept hle, ← List.append_assoc] at hlast
  refine ⟨hlast, Selection.ext hstart ?_⟩
  dsimp only at hstop ⊢
  rw [hlast, List.length_append, List.length_append, List.length_append, List.length_drop,
    hfront] at hstop
  unfold rewritten
  omega

/-! ## Loops -/

/-- The rounds of a loop neither fail nor edit, and dot is where it was after them. -/
theorem eachRange_ok {env : Environment σ} (letter : Char) {body : Run σ (List Replacement)}
    (h : Spares env body) (ranges : List Selection) (session : Session σ) :
    ∃ result after, eachRange env letter body ranges session = (.ok result, after) ∧
      after.document = session.document ∧ after.dot = session.dot := by
  induction ranges generalizing session with
  | nil => exact ⟨_, session, rfl, rfl, rfl⟩
  | cons sel rest ih =>
    have hdocument := (Spares.withDot sel h).document_eq session
    have hattempt : attempt (withDot sel body) session =
        (.ok (withDot sel body session).1, (withDot sel body session).2) := rfl
    have hdot : (withDot sel body session).2.dot = session.dot := rfl
    rw [eachRange, bind_ok hattempt]
    cases (withDot sel body session).1 with
    | error error => exact ⟨none, _, rfl, hdocument, hdot⟩
    | ok edits =>
      obtain ⟨result, after, hrest, hdocument', hdot'⟩ := ih (withDot sel body session).2
      exact ⟨_, after, bind_ok hrest _, hdocument'.trans hdocument, hdot'.trans hdot⟩

/-- A loop gathers edits with its range as dot, and then releases them. -/
theorem execute_loop (env : Environment σ) (session : Session σ) {kind : Visit} {range : Address}
    {delimiter : Option Char} {regex : Regex} {body : Command}
    (hgathers : (Command.visit kind range delimiter regex body).gathers = true)
    (h : range.evaluate session.document.source session.dot = .ok window) :
    ∃ edits gathered,
      execute env true (.visit kind range delimiter regex body) session = (.ok edits, gathered) ∧
      gathered.document = session.document ∧ gathered.dot = window ∧
      execute env false (.visit kind range delimiter regex body) session =
        release false edits gathered := by
  have hvisits : ∃ ranges, execute env true (.visit kind range delimiter regex body) session =
      visiting env true kind body ranges { session with dot := window } := by
    cases kind with
    | eachMatch => exact ⟨_, execute_eachMatch env true delimiter regex body h⟩
    | eachGap => exact ⟨_, execute_eachGap env true delimiter regex body h⟩
    | ifFound => cases hgathers
    | unlessFound => cases hgathers
  obtain ⟨ranges, hranges⟩ := hvisits
  have hbody : Spares env (execute env true body) := spares_execute body
  obtain ⟨result, gathered, hrounds, hdocument, hdot⟩ :=
    eachRange_ok kind.letter hbody ranges { session with dot := window }
  have hgather : execute env true (.visit kind range delimiter regex body) session =
      (.ok (result.getD []), gathered) := by
    rw [hranges, visiting, bind_ok hrounds]
    rfl
  refine ⟨_, gathered, hgather, hdocument, hdot, ?_⟩
  rw [execute_eq_gather hgathers, bind_ok hgather]

end Run

open Replacement in
/-- **What dot covers after a loop.** A loop over matches or gaps whose range can be evaluated
succeeds. If the edits that it gathers lie in its range, and none of them is left out, they rewrite
the range, and dot covers all that has become of it except the texts that they put in right at its
end. So dot is the whole rewritten range, as long as it was and by how much the text has grown
besides, exactly if no edit puts anything in there. -/
theorem Session.interpret_covers {σ : Type} (env : Environment σ) (session : Session σ)
    {program : String} {kind : Visit} {range : Address} {delimiter : Option Char} {regex : Regex}
    {body : Command} {window : Selection}
    (hparse : Command.parse program = .ok (.visit kind range delimiter regex body))
    (hgathers : (Command.visit kind range delimiter regex body).gathers = true)
    (hvalid : session.document.IsValid) (heditable : session.document.editable = true)
    (hfree : session.document.protected? = none)
    (hwindow : range.evaluate session.document.source session.begun.dot = .ok window) :
    ∃ edits after,
      (Run.execute env true (.visit kind range delimiter regex body) session.begun).1 =
        .ok edits ∧
      session.interpret env program = (.ok (), after) ∧
      ((∀ edit ∈ edits, window.start ≤ edit.range.start ∧ edit.range.stop ≤ window.stop) →
        (arrange edits).Perm edits →
        StablySorted edits (arrange edits) ∧
        after.document.content = session.document.content.take window.start ++
          rewritten session.document.content window (arrange edits) ++
          (putInAt window.stop edits ++ session.document.content.drop window.stop) ∧
        sliceOf after.document.content after.dot =
          rewritten session.document.content window (arrange edits) ∧
        after.dot.start = window.start ∧
        (Spans window session.document.content after.document.content after.dot ↔
          ∀ edit ∈ edits, edit.range = .point window.stop → edit.text = [])) := by
  -- The loop gathers edits in the text, with its range as dot, and they are released.
  have hwithin : window.IsWithin session.document.size := Run.isWithin_of_evaluate hwindow
  obtain ⟨edits, gathered, hgather, hdocument, hdot, hexecute⟩ :=
    Run.execute_loop env session.begun hgathers hwindow
  have hsame : gathered.document = session.document := hdocument
  have hok : (Run.execute env true (.visit kind range delimiter regex body) session.begun).1 =
      .ok edits := by
    rw [hgather]
  have hgathered := Run.isWithin_of_gathered hparse hok
  have hopen : Run.Open gathered.document := hsame ▸ ⟨hvalid, heditable, hfree⟩
  have hedits : ∀ edit ∈ edits, edit.range.IsWithin gathered.document.size := hsame ▸ hgathered
  obtain ⟨after, hrelease, _⟩ := Run.release_of_open hopen hedits
  refine ⟨edits, after, hok, ?_, fun hinside hall => ?_⟩
  · rw [session.interpret_of_parse env hparse, hexecute, hrelease]
    rfl
  -- If all of them are kept, they rewrite the range and move dot along.
  have hsorted := stablySorted_arrange hall
  obtain ⟨hcontent, hafter⟩ := Run.release_rewrites hopen hdot (hsame ▸ hwithin)
    (fun edit hmem => ⟨(hinside edit hmem).1, (hgathered edit hmem).1, (hinside edit hmem).2⟩)
    hrelease
  rw [hsame] at hcontent hafter
  rw [hsorted.putInAt_eq] at hcontent
  have hsize := Document.length_content hvalid
  have hfront : (session.document.content.take window.start).length = window.start :=
    List.length_take_of_le (hsize.symm ▸ Nat.le_trans hwithin.1 hwithin.2)
  have hstart : after.dot.start = window.start := by
    rw [hafter]
  refine ⟨hsorted, hcontent, ?_, hstart, ?_⟩
  · -- The text of dot is the middle one of three pieces.
    have hplace : after.dot = ⟨(session.document.content.take window.start).length,
        (session.document.content.take window.start).length +
          (rewritten session.document.content window (arrange edits)).length⟩ := by
      rw [hafter, hfront]
    rw [hcontent, hplace]
    exact sliceOf_middle _ _ _
  · -- Dot is as long as the range and what the text has grown by, less what is put in at the end.
    have hlength := congrArg List.length hcontent
    have hstop := hwithin.2
    rw [List.length_append, List.length_append, List.length_append, List.length_drop, hfront,
      hsize] at hlength
    rw [← putInAt_eq_nil_iff, ← List.length_eq_zero_iff]
    constructor
    · rintro ⟨_, hspans⟩
      rw [hafter] at hspans
      dsimp only at hspans
      omega
    · intro hnothing
      refine ⟨hstart, ?_⟩
      rw [hafter]
      dsimp only
      omega

/-- The loop that puts an `X` behind every `b`, with its pattern compiled. -/
def Command.behindEach : Command :=
  .visit .eachMatch (.between (.simple ⟨none, .line 0⟩) .comma (.simple ⟨none, .last⟩)) (some '/')
    ⟨"b", #[.split [3, 1], .oneOf .any, .jump 0, .save 0, .char 'b', .save 1, .accept], 2, false⟩
    (.place .after (.simple ⟨none, .dot⟩) '/' "X")

/-- How the loop is written. -/
theorem Command.parse_behindEach : Command.parse ",x/b/a/X/" = .ok .behindEach := by
  set_option maxRecDepth 1000 in cbv

/-- The range of the loop is the whole text. -/
theorem Session.evaluate_letters : Address.evaluate Session.letters.document.source
    Session.letters.begun.dot (.between (.simple ⟨none, .line 0⟩) .comma (.simple ⟨none, .last⟩)) =
    .ok ⟨0, 3⟩ := by
  set_option maxRecDepth 1000 in cbv

/-- The loop gathers one insertion inside of the range and one at its end. -/
theorem Session.gathered_letters :
    (Run.execute .silent true .behindEach Session.letters.begun).1 =
      .ok [⟨⟨2, 2⟩, ['X']⟩, ⟨⟨3, 3⟩, ['X']⟩] := by
  set_option maxRecDepth 1000 in cbv

/-- The two insertions are in order, and do not overlap. -/
theorem Session.arrange_letters : Replacement.arrange [⟨⟨2, 2⟩, ['X']⟩, ⟨⟨3, 3⟩, ['X']⟩] =
    [⟨⟨2, 2⟩, ['X']⟩, ⟨⟨3, 3⟩, ['X']⟩] := by
  have horder : Replacement.InOrder 3 0 [⟨⟨2, 2⟩, ['X']⟩, ⟨⟨3, 3⟩, ['X']⟩] :=
    ⟨by decide, ⟨by decide, by decide⟩, by decide, ⟨by decide, by decide⟩, trivial⟩
  exact horder.arrange

/-- One `X` is put in inside the range, and one at its end, which dot leaves out. -/
theorem Session.interpret_covers_letters :
    ∃ after, Session.letters.interpret .silent ",x/b/a/X/" = (.ok (), after) ∧
      after.document.content = "abXbX".toList ∧
      sliceOf after.document.content after.dot = "abXb".toList := by
  obtain ⟨edits, after, hgather, hinterpret, hcovers⟩ := Session.letters.interpret_covers .silent
    Command.parse_behindEach rfl Session.isValid_letters rfl rfl Session.evaluate_letters
  obtain rfl := Except.ok.inj (hgather.symm.trans Session.gathered_letters)
  obtain ⟨_, hcontent, hslice, _⟩ := hcovers (by decide)
    (by rw [Session.arrange_letters])
  rw [Session.arrange_letters, Session.content_letters] at hcontent hslice
  exact ⟨after, hinterpret, hcontent, hslice⟩

/-- Dot is not always the whole rewritten range of a loop. -/
theorem Session.not_interpret_covers :
    ¬∀ (env : Environment Unit) (session after : Session Unit) (program : String) (kind : Visit)
      (range : Address) (delimiter : Option Char) (regex : Regex) (body : Command)
      (window : Selection) (edits : List Replacement),
      Command.parse program = .ok (.visit kind range delimiter regex body) →
      (Command.visit kind range delimiter regex body).gathers = true →
      session.document.IsValid → session.document.editable = true →
      session.document.protected? = none →
      range.evaluate session.document.source session.begun.dot = .ok window →
      (Run.execute env true (.visit kind range delimiter regex body) session.begun).1 =
        .ok edits →
      session.interpret env program = (.ok (), after) →
      (∀ edit ∈ edits, window.start ≤ edit.range.start ∧ edit.range.stop ≤ window.stop) →
      (Replacement.arrange edits).Perm edits →
      Spans window session.document.content after.document.content after.dot := by
  intro hall
  have hok : (Session.letters.interpret .silent ",x/b/a/X/").1 = .ok () := by
    set_option maxRecDepth 1000 in cbv
  have hdot : (Session.letters.interpret .silent ",x/b/a/X/").2.dot = ⟨0, 4⟩ := by
    set_option maxRecDepth 1000 in cbv
  have hafter : (Session.letters.interpret .silent ",x/b/a/X/").2.document.content.length = 5 := by
    set_option maxRecDepth 1000 in cbv
  have hbefore : Session.letters.document.content.length = 3 := by
    rw [Session.content_letters]
    rfl
  obtain ⟨_, hstop⟩ := hall .silent Session.letters _ ",x/b/a/X/" _ _ _ _ _ ⟨0, 3⟩ _
    Command.parse_behindEach rfl Session.isValid_letters rfl rfl Session.evaluate_letters
    Session.gathered_letters (Prod.ext hok rfl) (by decide) (by rw [Session.arrange_letters])
  rw [hdot, hafter, hbefore] at hstop
  exact absurd hstop (by decide)

end Emend
