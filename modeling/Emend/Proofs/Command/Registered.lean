import Emend.Command.Registered
import Emend.Proofs.Command.Keeping
import Emend.Proofs.Document.Selections

/-!
# Registered ranges move as dot does

A run on registered ranges and a run with a dot of its own are followed side by side. At every point
the range of the handle that a command is given is the dot of the other run (`Run.Mirrors`), and
what a command does keeps it so (`Run.Follows`). The handles in use before a command are in use
after it, and no others are; while edits are only collected, no range changes but that of the
command itself.

A range that is registered for a while is a dot of its own (`Run.exists_registering`). A block or a
loop only collects on it, and so finds its own range as it left it, where the other run comes back
to its old dot; the range of a substitution moves along with the replacements, as dot does.
-/

namespace Emend

variable {σ α β : Type}

/-! ## Other selections -/

/-- An edit of a document with other selections makes the same document, with these moved along. -/
theorem Document.replaceAccepted_selections (doc : Document) (selections : Selections)
    (text : List Char) (range : Selection) (solid : Bool) :
    { doc with selections }.replaceAccepted text range none solid .program =
      { doc.replaceAccepted text range none solid .program with
        selections := selections.shift ⟨range.start, range.length, text.length⟩ none
          (doc.replaceAccepted text range none solid .program).size } := by
  unfold replaceAccepted apply substitute
  split
  · rfl
  · rfl

/-- The session with other registered selections and another dot. -/
def Session.keeping (session : Session σ) (selections : Selections) (dot : Selection) :
    Session σ :=
  { session with document := { session.document with selections }, dot }

namespace Run

variable {collecting : Bool} {handle : SelectionHandle} {skip : Option SelectionHandle}
  {selections : Selections} {session : Session σ}

/-! ## Two runs side by side -/

/-- The selections are those of the session and more, among them its dot, which is the range of a
handle that the session itself does not know. -/
structure Mirrors (handle : SelectionHandle) (selections : Selections) (session : Session σ) :
    Prop where
  /-- The range of the handle is dot. -/
  dot : selections.get? handle = some session.dot
  /-- Dot is a range of the text. -/
  within : session.dot.IsWithin session.document.size
  /-- The handle is not in use in the session. -/
  free : session.document.selections.get? handle = none
  /-- All handles of the session are. -/
  all : selections.Extends session.document.selections

/-- What a command leaves of the session, and of the selections that are those of the session and
more. While edits are collected nothing changes but the range of the handle `skip`. -/
structure Leaves (collecting : Bool) (skip : Option SelectionHandle) (session final : Session σ)
    (selections after : Selections) : Prop where
  /-- The handles of the session. -/
  known : session.document.selections.SameHandles final.document.selections
  /-- All handles. -/
  live : selections.SameHandles after
  /-- The document, when edits are collected. -/
  document : collecting = true → final.document = session.document
  /-- The ranges of other handles, when edits are collected. -/
  others : collecting = true →
    ∀ other, skip ≠ some other → after.get? other = selections.get? other

/-- Among selections of which one is its dot, the first run does what the second does with dot. -/
def Follows (collecting : Bool) (handle : SelectionHandle) (registered plain : Run σ α) : Prop :=
  ∀ session selections dot, Mirrors handle selections session →
    ∃ result final after last,
      plain session = (result, final) ∧
      registered (session.keeping selections dot) = (result, final.keeping after last) ∧
      Mirrors handle after final ∧ Leaves collecting (some handle) session final selections after

/-- Nothing leaves everything as it is. -/
theorem Leaves.refl (collecting : Bool) (skip : Option SelectionHandle) (session : Session σ)
    (selections : Selections) : Leaves collecting skip session session selections selections :=
  ⟨.refl _, .refl _, fun _ => rfl, fun _ _ _ => rfl⟩

/-- What two runs leave as it was is left by both together. -/
theorem Leaves.trans {middle final : Session σ} {between after : Selections}
    (h : Leaves collecting skip session middle selections between)
    (hnext : Leaves collecting skip middle final between after) :
    Leaves collecting skip session final selections after where
  known := h.known.trans hnext.known
  live := h.live.trans hnext.live
  document hcollecting := (hnext.document hcollecting).trans (h.document hcollecting)
  others hcollecting other hother :=
    (hnext.others hcollecting other hother).trans (h.others hcollecting other hother)

/-! ## Putting runs together -/

/-- A result that is there already does not depend on registered selections. -/
theorem Follows.ofExcept (result : Except EditError α) :
    Follows collecting handle (ExceptT.mk (Pure.pure result) : Run σ α)
      (ExceptT.mk (Pure.pure result)) :=
  fun session selections dot h =>
    ⟨result, session, selections, dot, rfl, rfl, h, .refl _ _ _ _⟩

/-- A value does not depend on registered selections. -/
theorem Follows.pure (value : α) :
    Follows collecting handle (pure value : Run σ α) (pure value) :=
  .ofExcept (.ok value)

/-- What follows a failure is not done. -/
theorem Follows.throw (error : EditError) (next plainNext : α → Run σ β) :
    Follows collecting handle (throw error >>= next) (throw error >>= plainNext) :=
  .ofExcept (.error error)

/-- Runs put together come to the same if their parts do. -/
theorem Follows.bind {registered plain : Run σ α} {next plainNext : α → Run σ β}
    (h : Follows collecting handle registered plain)
    (hnext : ∀ value, Follows collecting handle (next value) (plainNext value)) :
    Follows collecting handle (registered >>= next) (plain >>= plainNext) := by
  intro session selections dot hmirrors
  obtain ⟨result, middle, between, last, hplain, hregistered, hbetween, hleaves⟩ :=
    h session selections dot hmirrors
  rw [bind_apply, bind_apply, hplain, hregistered]
  cases result with
  | error error => exact ⟨.error error, middle, between, last, rfl, rfl, hbetween, hleaves⟩
  | ok value =>
    obtain ⟨result, final, after, last, hplain, hregistered, hafter, hrest⟩ :=
      hnext value middle between last hbetween
    exact ⟨result, final, after, last, hplain, hregistered, hafter, hleaves.trans hrest⟩

/-- A run whose failure is a result comes to the same if the run does. -/
theorem Follows.attempt {registered plain : Run σ α}
    (h : Follows collecting handle registered plain) :
    Follows collecting handle (attempt registered) (attempt plain) := by
  intro session selections dot hmirrors
  obtain ⟨result, final, after, last, hplain, hregistered, hafter, hleaves⟩ :=
    h session selections dot hmirrors
  refine ⟨.ok result, final, after, last, ?_, ?_, hafter, hleaves⟩
  · rw [Run.attempt, hplain]
  · rw [Run.attempt, hregistered]

/-- What does not touch the document or dot, and does not look at dot or at other selections. -/
theorem Follows.stepAside {f : Session σ → α × Session σ}
    (hdocument : ∀ session, (f session).2.document = session.document)
    (hdot : ∀ session, (f session).2.dot = session.dot)
    (hkeeping : ∀ session selections dot, f (session.keeping selections dot) =
      ((f session).1, (f session).2.keeping selections dot)) :
    Follows collecting handle (step f) (step f) := by
  intro session selections dot h
  have hdocument := hdocument session
  have hdot := hdot session
  have hkeeping := hkeeping session selections dot
  rcases hstep : f session with ⟨value, final⟩
  rw [hstep] at hdocument hdot hkeeping
  refine ⟨.ok value, final, selections, dot, ?_, ?_, ?_, ?_⟩
  · rw [step, hstep]
  · rw [step, hkeeping]
  · refine ⟨hdot ▸ h.dot, ?_, hdocument ▸ h.free, hdocument ▸ h.all⟩
    rw [hdot, hdocument]
    exact h.within
  · exact ⟨hdocument ▸ .refl _, .refl _, fun _ => hdocument, fun _ _ _ => rfl⟩

/-- Looking comes to the same if it looks at neither the selections nor dot. -/
theorem Follows.look {f : Session σ → α}
    (h : ∀ session selections dot, f (session.keeping selections dot) = f session) :
    Follows collecting handle (Run.look f) (Run.look f) :=
  .stepAside (fun _ => rfl) (fun _ => rfl) fun session selections dot => by
    rw [h session selections dot]

/-! ## Ranges -/

/-- An address is evaluated from the registered dot. -/
theorem follows_evaluate (address : Address) :
    Follows collecting handle (evaluateAt handle address : Run σ Selection)
      (evaluate address) := by
  intro session selections dot h
  refine ⟨_, session, selections, dot, rfl, ?_, h, .refl _ _ _ _⟩
  show (address.evaluate session.document.source ((selections.get? handle).getD (.point 0)), _) = _
  rw [h.dot]
  rfl

/-- Setting the range of a live handle makes it dot. -/
theorem Mirrors.set (hlive : (selections.get? handle).isSome)
    (hwithin : session.dot.IsWithin session.document.size)
    (hfree : session.document.selections.get? handle = none)
    (hall : selections.Extends session.document.selections) :
    Mirrors handle (selections.set handle session.dot) session where
  dot := by rw [Selections.get?_set, if_pos ⟨rfl, hlive⟩]
  within := hwithin
  free := hfree
  all := hall.set hfree session.dot

/-- A run may change the selection that stands for dot. -/
theorem Leaves.set {final : Session σ} {after : Selections}
    (h : Leaves collecting (some handle) session final selections after) (sel : Selection) :
    Leaves collecting (some handle) session final selections (after.set handle sel) where
  known := h.known
  live := h.live.trans (Selections.sameHandles_set _ _ _)
  document := h.document
  others hcollecting other hother := by
    rw [Selections.get?_set, if_neg fun heq => hother (congrArg some heq.1.symm)]
    exact h.others hcollecting other hother

/-- Setting dot changes the registered one. -/
theorem follows_setDot (sel : Selection) :
    Follows collecting handle (select handle sel : Run σ Unit) (setDot sel) := by
  intro session selections dot h
  let final := { session with dot := sel.clamp session.document.size }
  have hmirrors : Mirrors handle (selections.set handle final.dot) final :=
    .set (by rw [h.dot]; rfl) (Selection.clamp_isWithin _ _) h.free h.all
  have hleaves : Leaves collecting (some handle) session final selections selections :=
    ⟨.refl _, .refl _, fun _ => rfl, fun _ _ _ => rfl⟩
  exact ⟨.ok (), final, _, dot, rfl, rfl, hmirrors, hleaves.set final.dot⟩

/-- **A range that is registered for a while.** The run with the range registered does what the
other does with the range as dot, and ends with the handles that it had. -/
theorem exists_registering {body : SelectionHandle → Run σ α} {plain : Run σ α}
    (h : ∀ inner, Follows collecting inner (body inner) plain) (session : Session σ)
    (hall : selections.Extends session.document.selections) (dot sel : Selection) :
    ∃ result final after last,
      plain { session with dot := sel.clamp session.document.size } = (result, final) ∧
      registering sel body (session.keeping selections dot) =
        (result, some final.dot, final.keeping after last) ∧
      final.dot.IsWithin final.document.size ∧
      after.Extends final.document.selections ∧
      Leaves collecting none session final selections after := by
  let first := sel.clamp session.document.size
  let inner := (selections.add first).1
  have hdot : (selections.add first).2.get? inner = some first := by
    rw [Selections.get?_add, if_pos rfl]
  have hfree := hall.get?_eq_none (selections.get?_add_fst first)
  have hmirrors : Mirrors inner (selections.add first).2 { session with dot := first } :=
    ⟨hdot, Selection.clamp_isWithin _ _, hfree, hall.add first⟩
  obtain ⟨result, final, between, last, hplain, hregistered, hbetween, hleaves⟩ :=
    h inner { session with dot := first } (selections.add first).2 dot hmirrors
  refine ⟨result, final, between.erase inner, last, hplain, ?_, hbetween.within,
    hbetween.all.erase hbetween.free, hleaves.known, hleaves.live.erase_add, hleaves.document,
    fun hcollecting other _ => ?_⟩
  · have hregistering : registering sel body (session.keeping selections dot) =
        (result, between.get? inner, final.keeping (between.erase inner) last) :=
      congrArg (fun run : Except EditError α × Session σ =>
        (run.1, run.2.document.selections.get? inner,
          { run.2 with document := run.2.document.eraseSelection inner })) hregistered
    rw [hregistering, hbetween.dot]
  · refine Selections.get?_erase_add id between fun hother => ?_
    exact hleaves.others hcollecting other fun heq => hother (Option.some.inj heq).symm

/-- A run with another dot has it registered, and takes it out again. -/
theorem follows_withDot {body : SelectionHandle → Run σ α} {plain : Run σ α}
    (h : ∀ inner, Follows true inner (body inner) plain) (sel : Selection) :
    Follows collecting handle (onRange sel body) (withDot sel plain) := by
  intro session selections dot hmirrors
  obtain ⟨result, final, after, last, hplain, hregistered, _, hextends, hleaves⟩ :=
    exists_registering h session hmirrors.all dot sel
  -- The body only collects, so dot and the other ranges are as they were.
  have hkept (other : SelectionHandle) : after.get? other = selections.get? other :=
    hleaves.others rfl other nofun
  have hdocument : final.document = session.document := hleaves.document rfl
  refine ⟨result, { final with dot := session.dot }, after, last, ?_, ?_, ⟨?_, ?_, ?_, ?_⟩,
    ⟨hleaves.known, hleaves.live, fun _ => hdocument, fun _ other _ => hkept other⟩⟩
  · rw [withDot, hplain]
  · rw [onRange, hregistered]
    rfl
  · rw [hkept, hmirrors.dot]
  · show session.dot.IsWithin final.document.size
    rw [hdocument]
    exact hmirrors.within
  · show final.document.selections.get? handle = none
    rw [hdocument]
    exact hmirrors.free
  · exact hextends

/-! ## Edits -/

/-- Dot and the range of its handle move in the same way. -/
theorem Mirrors.shift (h : Mirrors handle selections session) {change : Change}
    {edited : Document} (fresh : Bool) (hedited : edited.selections =
      session.document.selections.shift change none edited.size) :
    Mirrors handle (selections.shift change none edited.size)
      { session with
        document := edited
        dot := change.moveSelection edited.size session.dot
        fresh } where
  dot := by
    rw [Selections.get?_shift_none, h.dot]
    rfl
  within := change.moveSelection_isWithin edited.size h.within.1
  free := by
    rw [hedited, Selections.get?_shift_none, h.free]
    rfl
  all := by
    rw [hedited]
    exact h.all.shift change edited.size

/-- An edit moves the registered dot as it moves dot. -/
theorem follows_edit (replacement : Replacement) :
    Follows false handle (edit replacement : Run σ Selection) (edit replacement) := by
  intro session selections dot h
  obtain ⟨document, files, outside, place, fresh⟩ := session
  cases haccept : document.accept replacement.range with
  | error sel =>
    -- A refused edit gives where dot would go, and moves nothing.
    have hother : { document with selections }.accept replacement.range = .error sel := haccept
    refine ⟨.ok sel, ⟨document, files, outside, place, false⟩, selections, dot, ?_, ?_,
      ⟨h.dot, h.within, h.free, h.all⟩, .refl _, .refl _, nofun, nofun⟩
    · simp only [edit, step, haccept]
    · simp only [edit, step, Session.keeping, hother]
  | ok range =>
    -- An accepted one moves dot and all registered selections by the same change.
    have hother : { document with selections }.accept replacement.range = .ok range := haccept
    let change : Change := ⟨range.start, range.length, replacement.text.length⟩
    let edited := document.replaceAccepted replacement.text range none fresh .program
    have hedited : edited.selections = document.selections.shift change none edited.size :=
      congrArg Document.selections (document.replaceAccepted_selections document.selections
        replacement.text range fresh)
    refine ⟨.ok (.point (range.start + replacement.text.length)),
      ⟨edited, files, outside, change.moveSelection edited.size place, false⟩,
      selections.shift change none edited.size, change.moveSelection edited.size dot,
      ?_, ?_, h.shift false hedited, ?_, Selections.sameHandles_shift _ _ _, nofun, nofun⟩
    · simp only [edit, step, haccept]
      rfl
    · simp only [edit, step, Session.keeping, hother]
      rw [Document.replaceAccepted_selections]
      rfl
    · show document.selections.SameHandles edited.selections
      rw [hedited]
      exact Selections.sameHandles_shift _ _ _

/-- Several edits move the registered dot as they move dot. -/
theorem follows_editAll (replacements : List Replacement) :
    Follows false handle (editAll replacements : Run σ Unit) (editAll replacements) := by
  induction replacements with
  | nil => exact .pure ()
  | cons replacement rest ih => exact .bind (follows_edit replacement) fun _ => ih

/-- Edits that are released move the registered dot as they move dot. -/
theorem follows_release (edits : List Replacement) :
    Follows collecting handle (release collecting edits : Run σ (List Replacement))
      (release collecting edits) := by
  unfold release
  cases collecting with
  | true => exact .pure edits
  | false => exact .bind (follows_editAll _) fun _ => .pure []

/-- A text that is put in moves the registered dot as it moves dot. -/
theorem follows_put (replacement : Replacement) :
    Follows collecting handle (put collecting replacement : Run σ (Selection × List Replacement))
      (put collecting replacement) := by
  unfold put
  cases collecting with
  | true => exact .pure _
  | false => exact .bind (follows_edit replacement) fun _ => .pure _

/-- What is put in place of a range, with dot set afterwards. -/
theorem follows_put_setDot (replacement : Replacement) (place : Selection → Selection) :
    Follows collecting handle
      (do
        let (after, edits) ← put collecting replacement
        select handle (place after)
        return edits : Run σ (List Replacement))
      (do
        let (after, edits) ← put collecting replacement
        setDot (place after)
        return edits) :=
  .bind (follows_put replacement) fun _ => .bind (follows_setDot _) fun _ => .pure _

/-- The range of a substitution moves along with the replacements made in it, as dot does. -/
theorem follows_substitute (sel : Selection) (edits : List Replacement) :
    Follows collecting handle
      (substituteAt collecting handle sel edits : Run σ (List Replacement))
      (do
        setDot sel
        release collecting edits) := by
  intro session selections dot h
  have hbody (inner : SelectionHandle) : Follows collecting inner
      (release collecting edits : Run σ (List Replacement)) (release collecting edits) :=
    follows_release edits
  obtain ⟨result, final, after, last, hplain, hregistered, hwithin, hextends, hleaves⟩ :=
    exists_registering hbody session h.all dot sel
  have hlive : (after.get? handle).isSome := by
    rw [hleaves.live, h.dot]
    rfl
  have hleaves : Leaves collecting (some handle) session final selections after :=
    ⟨hleaves.known, hleaves.live, hleaves.document,
      fun hcollecting other _ => hleaves.others hcollecting other nofun⟩
  refine ⟨result, final, after.set handle final.dot, last, ?_, ?_,
    .set hlive hwithin (hleaves.known.get?_eq_none h.free) hextends, hleaves.set final.dot⟩
  · exact (bind_ok rfl _).trans hplain
  · rw [substituteAt, hregistered]
    show (result, Session.keeping final (after.set handle (final.dot.clamp final.document.size))
      last) = _
    rw [Selection.clamp_of_isWithin hwithin]

end Run

end Emend
