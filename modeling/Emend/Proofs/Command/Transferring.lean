import Emend.Proofs.Command.Applying
import Emend.Proofs.Command.Gathering
import Emend.Proofs.Command.Visiting

/-!
# Moving and copying

A move is two edits that are made together: the text is put in at its new place, and taken out where
it was. Those at one place are made in the order in which they are listed, so the list begins with
the edit that lies in front, also where the two touch, and it is in order as it stands. A copy is the
first of the two edits alone. What comes of them is then read off (`together`): the pieces of the
text in their new order, with dot around the piece that was transferred (`release_landing`).

A range cannot be moved to a place inside it, where the two edits would overlap. That is refused
before anything is changed, and it is the only move that is.
-/

namespace Emend

/-- What lies between two other parts of a list. -/
theorem sliceOf_middle {α : Type} (before middle behind : List α) :
    sliceOf (before ++ middle ++ behind) ⟨before.length, before.length + middle.length⟩ =
      middle := by
  rw [sliceOf, ← List.length_append, List.take_left, List.drop_left]

namespace Run

open Replacement

variable {σ : Type} {session : Session σ} {window : Selection} {target : Nat}

/-- Edits in order are made, and a part of what comes of them becomes dot. -/
theorem release_landing (h : Open session.document) {edits : List Replacement}
    (horder : InOrder session.document.content.length 0 edits)
    {before middle behind : List Char} {landed : Selection}
    (hcontent : together session.document.content 0 edits = before ++ middle ++ behind)
    (hstart : landed.start = before.length) (hstop : landed.stop = before.length + middle.length) :
    ∃ after, (do
        let edits ← release false edits
        setDot landed
        return edits : Run σ (List Replacement)) session = (.ok [], after) ∧
      after.document.content = before ++ middle ++ behind ∧ after.dot = landed ∧
      sliceOf after.document.content after.dot = middle := by
  obtain ⟨released, hrelease, hopen, hreleased⟩ := release_of_inOrder h horder
  rw [hcontent] at hreleased
  have hwithin : landed.IsWithin released.document.size := by
    rw [← Document.length_content hopen.valid, hreleased, List.length_append, List.length_append]
    constructor <;> omega
  have hdot : (setDot landed : Run σ Unit) released = (.ok (), { released with dot := landed }) :=
    setDot_of_isWithin hwithin
  have hlanded : landed = ⟨before.length, before.length + middle.length⟩ :=
    Selection.ext hstart hstop
  refine ⟨{ released with dot := landed }, ?_, hreleased, rfl, ?_⟩
  · rw [bind_ok hrelease, bind_ok hdot]
    rfl
  · dsimp only
    rw [hreleased, hlanded, sliceOf_middle]

/-- A move into the range itself is refused. -/
theorem transfer_inside (hstart : window.start < target) (hstop : target < window.stop) :
    transfer false true window target session =
      (.error (.address (.moveInside window)), session) := by
  have hinside : (true && decide (window.start < target) && decide (target < window.stop)) =
      true := by
    rw [decide_eq_true hstart, decide_eq_true hstop]
    rfl
  unfold transfer
  rw [if_pos hinside]
  rfl

/-- The edits of a transfer, as they are listed. -/
def transferEdits (moving : Bool) (window : Selection) (target : Nat) (text : List Char) :
    List Replacement :=
  if !moving then [⟨.point target, text⟩]
  else if window.stop ≤ target then [⟨window, []⟩, ⟨.point target, text⟩]
  else [⟨.point target, text⟩, ⟨window, []⟩]

/-- Where the text lies afterwards. -/
def landing (moving : Bool) (window : Selection) (target : Nat) : Selection :=
  if moving && window.stop ≤ target then ⟨target - window.length, target⟩
  else ⟨target, target + window.length⟩

/-- It is as long as it was. -/
theorem stop_landing (moving : Bool) (window : Selection) (target : Nat) :
    (landing moving window target).stop =
      (landing moving window target).start + window.length := by
  unfold landing
  split
  · next hbehind =>
    have hle : window.stop ≤ target := of_decide_eq_true (Bool.and_eq_true_iff.1 hbehind).2
    exact (Nat.sub_add_cancel (Nat.le_trans (Nat.sub_le _ _) hle)).symm
  · rfl

/-- Any other transfer makes its edits, and the text at its new place becomes dot. -/
theorem transfer_lands {moving : Bool} (h : Open session.document)
    (hwindow : window.IsWithin session.document.size)
    (houtside : ¬(moving = true ∧ window.start < target ∧ target < window.stop))
    {before behind : List Char}
    (horder : InOrder session.document.content.length 0
      (transferEdits moving window target (sliceOf session.document.content window)))
    (hcontent : together session.document.content 0
        (transferEdits moving window target (sliceOf session.document.content window)) =
      before ++ sliceOf session.document.content window ++ behind)
    (hstart : (landing moving window target).start = before.length) :
    ∃ after, transfer false moving window target session = (.ok [], after) ∧
      after.document.content = before ++ sliceOf session.document.content window ++ behind ∧
      after.dot = landing moving window target ∧
      sliceOf after.document.content after.dot = sliceOf session.document.content window := by
  have hguard : ¬(moving && decide (window.start < target) && decide (target < window.stop)) =
      true := by
    rwa [Bool.and_eq_true, Bool.and_eq_true, decide_eq_true_eq, decide_eq_true_eq, and_assoc]
  have htext : (textOf window : Run σ (List Char)) session =
      (.ok (sliceOf session.document.content window), session) := by
    rw [← Document.text_of_isWithin h.valid hwindow]
    rfl
  have hlength : (sliceOf session.document.content window).length = window.length :=
    length_sliceOf ((Document.length_content h.valid).symm ▸ hwindow)
  have hstop : (landing moving window target).stop =
      before.length + (sliceOf session.document.content window).length := by
    rw [stop_landing, hstart, hlength]
  obtain ⟨after, hreleased, hafter⟩ := release_landing h horder hcontent hstart hstop
  refine ⟨after, ?_, hafter⟩
  unfold transfer
  rw [if_neg hguard]
  dsimp only
  rw [bind_ok htext]
  exact hreleased

variable (h : Open session.document) (hwindow : window.IsWithin session.document.size)
  (htarget : target ≤ session.document.size)

include h hwindow htarget

/-- A copy puts the text in at its new place. -/
theorem transfer_copy :
    ∃ after, transfer false false window target session = (.ok [], after) ∧
      after.document.content = session.document.content.take target ++
        sliceOf session.document.content window ++ session.document.content.drop target ∧
      after.dot = ⟨target, target + window.length⟩ ∧
      sliceOf after.document.content after.dot = sliceOf session.document.content window := by
  rw [← Document.length_content h.valid] at htarget
  refine transfer_lands h hwindow (fun hmoving => Bool.false_ne_true hmoving.1) ?_ rfl ?_
  · exact ⟨Nat.zero_le _, ⟨Nat.le_refl _, htarget⟩, trivial⟩
  · exact (List.length_take_of_le htarget).symm

/-- A move to a place behind the range takes the text out in front of that place. -/
theorem transfer_behind (hbehind : window.stop ≤ target) :
    ∃ after, transfer false true window target session = (.ok [], after) ∧
      after.document.content = session.document.content.take window.start ++
        sliceOf session.document.content ⟨window.stop, target⟩ ++
        sliceOf session.document.content window ++ session.document.content.drop target ∧
      after.dot = ⟨target - window.length, target⟩ ∧
      sliceOf after.document.content after.dot = sliceOf session.document.content window := by
  have hle := hwindow.1
  have houtside : ¬(true = true ∧ window.start < target ∧ target < window.stop) :=
    fun hinside => Nat.not_lt_of_le hbehind hinside.2.2
  have hedits : ∀ text, transferEdits true window target text =
      [⟨window, []⟩, ⟨.point target, text⟩] := fun text => if_pos hbehind
  have hplace : landing true window target = ⟨target - window.length, target⟩ :=
    if_pos (decide_eq_true hbehind)
  have hsize := Document.length_content h.valid
  rw [← hplace]
  refine transfer_lands h hwindow houtside ?_ ?_ ?_
  · rw [hedits, hsize]
    exact ⟨Nat.zero_le _, hwindow, hbehind, ⟨Nat.le_refl _, htarget⟩, trivial⟩
  · rw [hedits]
    simp only [together_cons, together_nil, sliceOf, Selection.point, List.drop_zero,
      List.append_nil, List.append_assoc]
  · rw [hplace, List.length_append, List.length_take_of_le (by omega),
      length_sliceOf ⟨hbehind, hsize.symm ▸ htarget⟩]
    unfold Selection.length
    dsimp only
    omega

/-- A move to a place in front of the range takes the text out behind that place. -/
theorem transfer_ahead (hahead : target ≤ window.start) (hlt : target < window.stop) :
    ∃ after, transfer false true window target session = (.ok [], after) ∧
      after.document.content = session.document.content.take target ++
        sliceOf session.document.content window ++
        (sliceOf session.document.content ⟨target, window.start⟩ ++
          session.document.content.drop window.stop) ∧
      after.dot = ⟨target, target + window.length⟩ ∧
      sliceOf after.document.content after.dot = sliceOf session.document.content window := by
  have houtside : ¬(true = true ∧ window.start < target ∧ target < window.stop) :=
    fun hinside => Nat.not_lt_of_le hahead hinside.2.1
  have hedits : ∀ text, transferEdits true window target text =
      [⟨.point target, text⟩, ⟨window, []⟩] := fun text => if_neg (Nat.not_le_of_lt hlt)
  have hplace : landing true window target = ⟨target, target + window.length⟩ :=
    if_neg fun hbehind => Nat.not_le_of_lt hlt (of_decide_eq_true hbehind)
  have hsize := Document.length_content h.valid
  rw [← hplace]
  refine transfer_lands h hwindow houtside ?_ ?_ ?_
  · rw [hedits, hsize]
    exact ⟨Nat.zero_le _, ⟨Nat.le_refl _, htarget⟩, hahead, hwindow, trivial⟩
  · rw [hedits]
    simp only [together_cons, together_nil, sliceOf, Selection.point, List.drop_zero,
      List.append_nil, List.append_assoc]
  · rw [hplace, List.length_take_of_le (hsize.symm ▸ htarget)]

end Run

/-- **Moving and copying neither lose nor duplicate text.** A move fails just if its target lies
inside its range, and then changes nothing. Otherwise the text of the range goes from its old place to
the new one, or is put in there once more if it is copied; everything else stays in its order. Dot
is where the text of the range lies afterwards. -/
theorem Session.interpret_transfers {σ : Type} (env : Environment σ) (session : Session σ)
    {program : String} {moving : Bool} {range target : Address} {window aim : Selection}
    (hparse : Command.parse program = .ok (.transfer moving range target))
    (hvalid : session.document.IsValid) (heditable : session.document.editable = true)
    (hfree : session.document.protected? = none)
    (hwindow : range.evaluate session.document.source session.begun.dot = .ok window)
    (haim : target.evaluate session.document.source session.begun.dot = .ok aim) :
    (session.interpret env program = (.error (.address (.moveInside window)), session.begun) ↔
      moving = true ∧ window.start < aim.stop ∧ aim.stop < window.stop) ∧
    (¬(moving = true ∧ window.start < aim.stop ∧ aim.stop < window.stop) →
      ∃ after, session.interpret env program = (.ok (), after) ∧
        (moving = true → window.stop ≤ aim.stop →
          after.document.content = session.document.content.take window.start ++
            sliceOf session.document.content ⟨window.stop, aim.stop⟩ ++
            sliceOf session.document.content window ++
            session.document.content.drop aim.stop ∧
          after.dot = ⟨aim.stop - window.length, aim.stop⟩) ∧
        (moving = true → aim.stop ≤ window.start →
          after.document.content = session.document.content.take aim.stop ++
            sliceOf session.document.content window ++
            sliceOf session.document.content ⟨aim.stop, window.start⟩ ++
            session.document.content.drop window.stop ∧
          after.dot = ⟨aim.stop, aim.stop + window.length⟩) ∧
        (moving = false →
          after.document.content = session.document.content.take aim.stop ++
            sliceOf session.document.content window ++
            session.document.content.drop aim.stop ∧
          after.dot = ⟨aim.stop, aim.stop + window.length⟩) ∧
        sliceOf after.document.content after.dot =
          sliceOf session.document.content window) := by
  have hwithin : window.IsWithin session.begun.document.size := Run.isWithin_of_evaluate hwindow
  have htarget : aim.stop ≤ session.begun.document.size := (Run.isWithin_of_evaluate haim).2
  have hopen : Run.Open session.begun.document := ⟨hvalid, heditable, hfree⟩
  -- Both addresses are evaluated before anything is done.
  have hinterpret : session.interpret env program =
      ((Run.transfer false moving window aim.stop session.begun).1.map fun _ => (),
        (Run.transfer false moving window aim.stop session.begun).2) := by
    rw [session.interpret_of_parse env hparse, Run.execute, Run.bind_ok (Run.evaluate_ok hwindow),
      Run.bind_ok (Run.evaluate_ok haim)]
  rw [hinterpret]
  -- A copy, a move behind the range, one ahead of it, and one into it.
  cases moving with
  | false =>
    obtain ⟨after, htransfer, hcontent, hdot, htext⟩ := Run.transfer_copy hopen hwithin htarget
    rw [htransfer]
    exact ⟨iff_of_false nofun fun hinside => Bool.false_ne_true hinside.1,
      fun _ => ⟨after, rfl, nofun, nofun, fun _ => ⟨hcontent, hdot⟩, htext⟩⟩
  | true =>
    by_cases hbehind : window.stop ≤ aim.stop
    · obtain ⟨after, htransfer, hcontent, hdot, htext⟩ :=
        Run.transfer_behind hopen hwithin htarget hbehind
      rw [htransfer]
      refine ⟨iff_of_false nofun fun hinside => Nat.not_lt_of_le hbehind hinside.2.2,
        fun _ => ⟨after, rfl, fun _ _ => ⟨hcontent, hdot⟩, fun _ hahead => ?_, nofun, htext⟩⟩
      -- Only an empty range begins behind a place and ends in front of it.
      obtain ⟨first, last⟩ := window
      obtain ⟨hle, _⟩ := hwithin
      dsimp only at hle hahead hbehind hcontent hdot
      obtain rfl : first = aim.stop := Nat.le_antisymm (Nat.le_trans hle hbehind) hahead
      obtain rfl : last = aim.stop := Nat.le_antisymm hbehind hle
      refine ⟨hcontent, hdot.trans ?_⟩
      rw [Selection.length, Nat.sub_self]
      rfl
    · by_cases hahead : aim.stop ≤ window.start
      · obtain ⟨after, htransfer, hcontent, hdot, htext⟩ :=
          Run.transfer_ahead hopen hwithin htarget hahead (Nat.lt_of_not_le hbehind)
        rw [htransfer]
        rw [← List.append_assoc] at hcontent
        exact ⟨iff_of_false nofun fun hinside => Nat.not_lt_of_le hahead hinside.2.1,
          fun _ => ⟨after, rfl, fun _ hle => absurd hle hbehind, fun _ _ => ⟨hcontent, hdot⟩,
            nofun, htext⟩⟩
      · have hstart := Nat.lt_of_not_le hahead
        have hstop := Nat.lt_of_not_le hbehind
        rw [Run.transfer_inside hstart hstop]
        exact ⟨iff_of_true rfl ⟨rfl, hstart, hstop⟩,
          fun houtside => absurd ⟨rfl, hstart, hstop⟩ houtside⟩

/-- A letter is moved behind the next one. -/
theorem Session.interpret_transfers_letter :
    ∃ session after : Session Unit, session.document.content = "abcd".toList ∧
      session.interpret .silent "#1,#2m#3" = (.ok (), after) ∧
      after.document.content = "acbd".toList ∧ after.dot = ⟨2, 3⟩ := by
  let session : Session Unit := .onText "abcd" (.point 0)
  have hparse : Command.parse "#1,#2m#3" = .ok (.transfer true
      (.between (.simple ⟨none, .char 1⟩) .comma (.simple ⟨none, .char 2⟩))
      (.simple ⟨none, .char 3⟩)) := by
    cbv
  have hcontent : session.document.content = "abcd".toList := Session.content_onText _ _
  have hvalid : session.document.IsValid := Session.isValid_onText _ _
  have hwindow : Address.evaluate session.document.source session.begun.dot
      (.between (.simple ⟨none, .char 1⟩) .comma (.simple ⟨none, .char 2⟩)) = .ok ⟨1, 2⟩ := by
    set_option maxRecDepth 1000 in cbv
  have haim : Address.evaluate session.document.source session.begun.dot
      (.simple ⟨none, .char 3⟩) = .ok ⟨3, 3⟩ := by
    set_option maxRecDepth 1000 in cbv
  obtain ⟨_, hmoves⟩ :=
    session.interpret_transfers .silent hparse hvalid rfl rfl hwindow haim
  obtain ⟨after, hinterpret, hbehind, _⟩ := hmoves (by decide)
  obtain ⟨hafter, hdot⟩ := hbehind rfl (by decide)
  rw [hcontent] at hafter
  exact ⟨session, after, hcontent, hinterpret, hafter, hdot⟩

end Emend
