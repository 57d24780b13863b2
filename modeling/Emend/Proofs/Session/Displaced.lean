import Emend.Proofs.Session.OneStep
import Emend.Proofs.Session.Protected

/-!
# Edits that are refused displace those that are made

Collected edits are made one after the other, each at the place to which the ones before it have
moved it. An edit that begins in the protected part of the text is refused, but it counts as if it
had moved the text: the offset of the later edits takes in the change of length that it would have
made. So the edits are refused up to the first one that its offset brings behind the protected part;
all that come after it are made, each of them displaced by the changes of length that were refused
(`Replacement.displaced`), and cut off where the text ends.

`content_replaceEach_displaced` says that the displaced edits are made at once, as if they had been
collected at their displaced places. They are where they were meant to be if every edit that begins
in the protected part keeps the length of the text; then exactly those edits are missing
(`Splits.map_displaced`).
-/

namespace Emend

variable {σ : Type}

namespace Replacement

variable {count size bound written position : Nat} {offset drift : Int} {edit : Replacement}
  {edits refused taken : List Replacement}

/-! ## Refused edits -/

/-- By how much all of the edits together move the text after them. -/
def totalShift (edits : List Replacement) : Int :=
  (edits.map shift).sum

/-- An edit at the place to which a drift moves it in a text of `size` characters. -/
def displaced (size : Nat) (drift : Int) (edit : Replacement) : Replacement :=
  { edit with range := (edit.moved drift).range.clamp size }

/-- None of the edits, each moved by the ones before it, begins behind the first `count` characters
of a text of `size` characters. -/
def Refused (count size : Nat) (offset : Int) : List Replacement → Prop
  | [] => True
  | edit :: rest =>
    (edit.displaced size offset).range.start < count ∧
      Refused count size (offset + edit.shift) rest

/-- The edits come apart into those that are refused in the beginning and those from the first one
on that is moved behind the protected characters. -/
structure Splits (count size : Nat) (offset : Int) (edits refused taken : List Replacement) :
    Prop where
  /-- They are these edits. -/
  append : edits = refused ++ taken
  /-- The first ones are refused. -/
  refuses : Refused count size offset refused
  /-- The next one is not. -/
  takes : ∀ edit ∈ taken.head?,
    count ≤ (edit.displaced size (offset + totalShift refused)).range.start

/-- The first replacement shifts the text as well. -/
@[simp]
theorem totalShift_cons (edit : Replacement) (rest : List Replacement) :
    totalShift (edit :: rest) = edit.shift + totalShift rest :=
  List.sum_cons

/-- Replacements split into those that are refused and those that are taken. -/
theorem exists_splits (count size : Nat) (offset : Int) (edits : List Replacement) :
    ∃ refused taken, Splits count size offset edits refused taken := by
  induction edits generalizing offset with
  | nil => exact ⟨[], [], rfl, trivial, nofun⟩
  | cons edit rest ih =>
    by_cases hstart : (edit.displaced size offset).range.start < count
    · obtain ⟨refused, taken, rfl, hrefused, htaken⟩ := ih (offset + edit.shift)
      refine ⟨edit :: refused, taken, rfl, ⟨hstart, hrefused⟩, ?_⟩
      rw [totalShift_cons, ← Int.add_assoc]
      exact htaken
    · refine ⟨[], edit :: rest, rfl, trivial, fun first hfirst => ?_⟩
      cases hfirst
      rw [totalShift, List.map_nil, List.sum_nil, Int.add_zero]
      exact Nat.le_of_not_lt hstart

/-- Where a displaced edit begins and ends. -/
theorem range_displaced (edit : Replacement) (size : Nat) (drift : Int) :
    (edit.displaced size drift).range =
      ⟨min (edit.range.start + drift).toNat size,
        min ((edit.range.start + drift).toNat + edit.range.length) size⟩ := by
  simp only [displaced, moved, Selection.clamp]
  ext
  · dsimp only
    omega
  · rfl

/-- What is behind the first edits of a list lies in order as well. -/
theorem InOrder.of_append (h : InOrder size bound (refused ++ taken)) :
    ∃ bound', InOrder size bound' taken := by
  induction refused generalizing bound with
  | nil => exact ⟨bound, h⟩
  | cons edit rest ih => exact ih h.2.2

/-! ## Edits that keep the length -/

/-- Every edit that begins among the protected characters keeps the length of the text. -/
def KeepsLength (count : Nat) (edits : List Replacement) : Prop :=
  ∀ edit ∈ edits, edit.range.start < count → edit.text.length = edit.range.length

/-- An edit in the text that is not displaced stays as it is. -/
theorem displaced_zero (h : edit.range.IsWithin size) : edit.displaced size 0 = edit := by
  obtain ⟨hle, hsize⟩ := h
  have hrange := range_displaced edit size 0
  have hsame : (edit.displaced size 0).range = edit.range := by
    rw [hrange]
    ext <;> simp only [Selection.length] <;> omega
  obtain ⟨range, text⟩ := edit
  exact congrArg (Replacement.mk · text) hsame

/-- Refused edits that keep the length begin among the protected characters, and move nothing. -/
theorem Refused.of_keepsLength (h : Refused count size 0 refused)
    (hwithin : ∀ edit ∈ refused, edit.range.IsWithin size)
    (hkeeps : KeepsLength count refused) :
    (∀ edit ∈ refused, edit.range.start < count) ∧ totalShift refused = 0 := by
  induction refused with
  | nil => exact ⟨nofun, rfl⟩
  | cons edit rest ih =>
    obtain ⟨hstart, hrest⟩ := h
    rw [displaced_zero (hwithin edit List.mem_cons_self)] at hstart
    have hshift : edit.shift = 0 := by
      rw [shift, hkeeps edit List.mem_cons_self hstart, Int.sub_self]
    rw [hshift, Int.zero_add] at hrest
    obtain ⟨hall, htotal⟩ := ih hrest (fun other hmem => hwithin other (List.mem_cons_of_mem _ hmem))
      fun other hmem => hkeeps other (List.mem_cons_of_mem _ hmem)
    refine ⟨List.forall_mem_cons.2 ⟨hstart, hall⟩, ?_⟩
    rw [totalShift_cons, hshift, htotal, Int.zero_add]

/-- **If nothing is displaced, the edits that begin among the protected characters are missing, and
no others.** -/
theorem Splits.map_displaced (h : Splits count size 0 edits refused taken)
    (horder : InOrder size 0 edits) (hkeeps : KeepsLength count edits) :
    taken.map (displaced size (totalShift refused)) =
      edits.filter (count ≤ ·.range.start) := by
  obtain ⟨rfl, hrefuses, htakes⟩ := h
  have hwithin : ∀ edit ∈ refused ++ taken, edit.range.IsWithin size :=
    fun edit hmem => (horder.of_mem hmem).2
  -- Refused edits begin among the protected characters, and leave the text as long as it was.
  obtain ⟨hbefore, htotal⟩ := hrefuses.of_keepsLength
    (fun edit hmem => hwithin edit (List.mem_append_left taken hmem))
    fun edit hmem => hkeeps edit (List.mem_append_left taken hmem)
  -- The first edit that is taken begins behind these characters, and so do all after it.
  have hbehind : ∀ edit ∈ taken, count ≤ edit.range.start := by
    obtain ⟨bound, htaken⟩ := horder.of_append
    cases taken with
    | nil => exact nofun
    | cons first rest =>
      have htake := htakes first rfl
      rw [htotal, Int.zero_add, displaced_zero htaken.2.1] at htake
      intro edit hmem
      rcases List.mem_cons.1 hmem with rfl | hmem
      · exact htake
      · exact Nat.le_trans htake (Nat.le_trans htaken.2.1.1 (htaken.2.2.of_mem hmem).1)
  -- So the filter drops the first part and keeps the second, whose edits are not displaced.
  have hrefused : refused.filter (count ≤ ·.range.start) = [] := by
    rw [List.filter_eq_nil_iff]
    intro edit hmem hle
    exact Nat.not_le_of_lt (hbefore edit hmem) (of_decide_eq_true hle)
  have htaken : taken.filter (count ≤ ·.range.start) = taken := by
    rw [List.filter_eq_self]
    exact fun edit hmem => decide_eq_true (hbehind edit hmem)
  have hsame : taken.map (displaced size 0) = taken.map id :=
    List.map_congr_left fun edit hmem =>
      displaced_zero (hwithin edit (List.mem_append_right refused hmem))
  rw [List.filter_append, hrefused, htaken, htotal, hsame, List.map_id, List.nil_append]

/-! ## Edits that are made -/

/-- How a text that has been written in part stands to the old one, of which what lies behind
`position` is left. The edits to come begin at `bound` or after it in the old text, where they are
displaced by `drift`, and are moved by `offset` in the new one: both lead to the same place, or
behind the end of the text. Their places are behind the protected characters. -/
structure Advances (count size : Nat) (drift : Int) (bound : Nat) (offset : Int)
    (written position : Nat) : Prop where
  /-- No edit to come is displaced to before the position. -/
  ahead : (position : Int) ≤ bound + drift
  /-- The position is one of the text. -/
  within : position ≤ size
  /-- Both lead to the same place. -/
  place : offset + position = drift + written ∨
    (size ≤ bound + drift ∧ (written : Int) + size ≤ bound + offset + position)
  /-- The place is behind the protected characters. -/
  behind : (count : Int) + position ≤ written + min (bound + drift) size

/-- Before the first edit, if that is displaced to behind the protected characters. -/
theorem advances_start {start : Nat} (hstart : 0 ≤ start + drift)
    (hbehind : count ≤ min (start + drift).toNat size) :
    Advances count size drift start drift 0 0 := by
  constructor <;> omega

/-- Where the next edit finds its range in the new text. -/
theorem Advances.range (h : Advances count size drift bound offset written position)
    (hbound : bound ≤ edit.range.start) (hrange : edit.range.IsWithin size) :
    position ≤ (edit.displaced size drift).range.start ∧
      (edit.displaced size drift).range.IsWithin size ∧
      (edit.displaced (written + (size - position)) offset).range =
        ⟨written + ((edit.displaced size drift).range.start - position),
          written + ((edit.displaced size drift).range.start - position) +
            (edit.displaced size drift).range.length⟩ ∧
      count ≤ (edit.displaced (written + (size - position)) offset).range.start := by
  obtain ⟨hahead, hwithin, hplace, hbehind⟩ := h
  obtain ⟨hle, hsize⟩ := hrange
  rw [range_displaced, range_displaced]
  simp only [Selection.length, Selection.IsWithin, Selection.mk.injEq]
  refine ⟨?_, ?_, ⟨?_, ?_⟩, ?_⟩ <;> omega

/-- After an edit its text has been written, and what is left lies behind its range. -/
theorem Advances.next (h : Advances count size drift bound offset written position)
    (hbound : bound ≤ edit.range.start) (hrange : edit.range.IsWithin size) :
    Advances count size drift edit.range.stop (offset + edit.shift)
      (written + ((edit.displaced size drift).range.start - position) + edit.text.length)
      (edit.displaced size drift).range.stop := by
  obtain ⟨hahead, hwithin, hplace, hbehind⟩ := h
  obtain ⟨hle, hsize⟩ := hrange
  rw [range_displaced]
  simp only [shift, Selection.length]
  constructor <;> omega

end Replacement

namespace Document

open Replacement

variable {doc : Document} {count : Nat} {offset drift : Int}

/-- What begins in the protected part is refused, and everything else is accepted where it lies in
the text. -/
theorem accept_moved (hguarded : doc.Guarded count) (hedit : doc.editable = true)
    (edit : Replacement) (offset : Int) :
    doc.accept (edit.moved offset).range =
      if (edit.displaced doc.size offset).range.start < count then .error (.point count)
      else .ok (edit.displaced doc.size offset).range := by
  unfold accept
  rw [hedit, hguarded.protected?]
  rfl

/-- Edits that are refused leave the document alone, and their changes of length in the offset. -/
theorem replaceEach_refused (hguarded : doc.Guarded count) (hedit : doc.editable = true)
    {refused : List Replacement} (h : Refused count doc.size offset refused)
    (rest : List Replacement) (solid : Bool) :
    ∃ solid', doc.replaceEach solid (inTurn offset (refused ++ rest)) =
      doc.replaceEach solid' (inTurn (offset + totalShift refused) rest) := by
  induction refused generalizing offset solid with
  | nil =>
    refine ⟨solid, ?_⟩
    rw [totalShift, List.map_nil, List.sum_nil, Int.add_zero]
    rfl
  | cons edit others ih =>
    obtain ⟨hstart, hothers⟩ := h
    have haccept := accept_moved hguarded hedit edit offset
    rw [if_pos hstart] at haccept
    obtain ⟨solid', hrest⟩ := ih hothers false
    refine ⟨solid', ?_⟩
    rw [totalShift_cons, ← Int.add_assoc, ← hrest]
    exact replaceEach_of_error haccept solid

/-! ## Making the edits -/

/-- **From the first edit that is made, all are**, at the places to which the drift displaces
them. -/
theorem content_replaceEach_advances {content written : List Char} {bound position : Nat}
    {edits : List Replacement} (horder : InOrder content.length bound edits)
    (hguarded : doc.Guarded count) (hedit : doc.editable = true)
    (hcontent : doc.content = written ++ content.drop position)
    (h : Advances count content.length drift bound offset written.length position)
    (solid : Bool) :
    (doc.replaceEach solid (inTurn offset edits)).content =
      written ++ together content position (edits.map (displaced content.length drift)) := by
  induction edits generalizing doc bound written position offset solid with
  | nil => exact hcontent
  | cons edit rest ih =>
    obtain ⟨hbound, hrange, hrest⟩ := horder
    obtain ⟨hahead, hwithin, hplace, hbehind⟩ := h.range hbound hrange
    have hsize : doc.size = written.length + (content.length - position) := by
      rw [← length_content hguarded.valid, hcontent, List.length_append, List.length_drop]
    rw [← hsize] at hplace hbehind
    have haccept := accept_moved hguarded hedit edit offset
    rw [if_neg (Nat.not_lt_of_le hbehind)] at haccept
    -- The edit is made in what is left of the old text.
    have hspliced : (doc.replaceAccepted edit.text (edit.displaced doc.size offset).range none solid
        .program).content =
        written ++ (content.take (edit.displaced content.length drift).range.start).drop position ++
          edit.text ++ content.drop (edit.displaced content.length drift).range.stop := by
      rw [content_replaceAccepted hguarded.valid (isWithin_of_accept haccept), hplace, hcontent]
      exact Run.splice_moved hahead hwithin edit.text
    have hwritten : (written ++ (content.take (edit.displaced content.length
        drift).range.start).drop position ++ edit.text).length =
        written.length + ((edit.displaced content.length drift).range.start - position) +
          edit.text.length := by
      obtain ⟨hle, hstop⟩ := hwithin
      rw [List.length_append, List.length_append, List.length_drop, List.length_take]
      omega
    have hnext := h.next hbound hrange
    rw [← hwritten] at hnext
    have hmade : doc.replaceEach solid (inTurn offset (edit :: rest)) =
        (doc.replaceAccepted edit.text (edit.displaced doc.size offset).range none solid
          .program).replaceEach false (inTurn (offset + edit.shift) rest) :=
      replaceEach_of_ok haccept solid
    rw [hmade, ih hrest (hguarded.replaceAccepted _ _ _ _ _)
      (editable_replaceAccepted.trans hedit) hspliced hnext false]
    simp only [List.append_assoc, List.map_cons, together_cons]
    rfl

/-- **What edits make of a document with a protected part.** The first of them are refused; those
that are made are made at once, each at the place to which the changes of length that were refused
displace it. -/
theorem content_replaceEach_displaced (hguarded : doc.Guarded count)
    (hedit : doc.editable = true) {edits refused taken : List Replacement}
    (horder : InOrder doc.content.length 0 edits)
    (h : Splits count doc.size 0 edits refused taken) (solid : Bool) :
    (doc.replaceEach solid (inTurn 0 edits)).content =
      together doc.content 0 (taken.map (displaced doc.size (totalShift refused))) := by
  have hlength := length_content hguarded.valid
  obtain ⟨rfl, hrefuses, htakes⟩ := h
  obtain ⟨solid', hrefused⟩ := replaceEach_refused hguarded hedit hrefuses taken solid
  rw [Int.zero_add] at htakes hrefused
  rw [hrefused]
  cases taken with
  | nil => rfl
  | cons edit rest =>
    obtain ⟨bound, _, hrange, hrest⟩ := horder.of_append
    have htake := htakes edit rfl
    rw [range_displaced] at htake
    -- The first edit that is made is not displaced to before the text, as nothing is refused there.
    have hstart : 0 ≤ (edit.range.start : Int) + totalShift refused := by
      cases refused with
      | nil => exact Int.natCast_nonneg _
      | cons first others =>
        have hpositive : 0 < count := Nat.zero_lt_of_lt hrefuses.1
        dsimp only at htake
        omega
    rw [← hlength] at htake ⊢
    have horder' : InOrder doc.content.length edit.range.start (edit :: rest) :=
      ⟨Nat.le_refl _, hrange, hrest⟩
    have hnothing : doc.content = [] ++ doc.content.drop 0 := rfl
    have hadvances : Advances count doc.content.length (totalShift refused) edit.range.start
      (totalShift refused) ([] : List Char).length 0 := advances_start hstart htake
    exact content_replaceEach_advances horder' hguarded hedit hnothing hadvances solid'

end Document

/-! ## Programs -/

/-- A program that succeeds, and whose command gathers, makes the edits that it has gathered. -/
theorem Session.exists_gathered (env : Environment σ) {session : Session σ} {program : String}
    {command : Command} (hparse : Command.parse program = .ok command)
    (hgathers : command.gathers = true) (hok : (session.interpret env program).1 = .ok ()) :
    ∃ edits, (Run.execute env true command session.begun).1 = .ok edits ∧
      session.edits env program = Replacement.inTurn 0 (Replacement.arrange edits) := by
  rw [session.interpret_of_parse env hparse, Run.execute_eq_gather hgathers, Run.bind_apply] at hok
  unfold Session.edits
  rw [hparse]
  dsimp only
  generalize Run.execute env true command session.begun = run at hok ⊢
  rcases run with ⟨error | edits, after⟩
  · cases hok
  · exact ⟨edits, rfl, rfl⟩

open Replacement in
/-- **What becomes of gathered edits when a part of the text is protected.** A program whose
outermost command gathers has its edits arranged and made on the text as it was: not the first of
them, up to the one that its offset brings behind the protected part, but all from there on, each
displaced by the changes of length that were refused. If every kept edit that begins in the
protected part keeps the length of the text, nothing is displaced: the edits that begin behind the
protected part are made at their own places, and the others have no effect at all. -/
theorem Session.interpret_displaces (env : Environment σ) (session : Session σ) {program : String}
    {command : Command} (hparse : Command.parse program = .ok command)
    (hgathers : command.gathers = true) (hvalid : session.document.IsValid)
    (hedit : session.document.editable = true) {count : Nat}
    (hprotected : session.document.protected? = some count)
    (hok : (session.interpret env program).1 = .ok ()) :
    ∃ edits sorted refused taken, (Run.execute env true command session.begun).1 = .ok edits ∧
      StablySorted edits sorted ∧
      Splits count session.document.size 0 (dropOverlaps 0 sorted) refused taken ∧
      (session.interpret env program).2.document.content =
        together session.document.content 0
          (taken.map (displaced session.document.size (totalShift refused))) ∧
      (KeepsLength count (dropOverlaps 0 sorted) →
        (session.interpret env program).2.document.content =
          together session.document.content 0
            ((dropOverlaps 0 sorted).filter (count ≤ ·.range.start))) := by
  obtain ⟨edits, hrun, hedits⟩ := Session.exists_gathered env hparse hgathers hok
  have hsorted := stablySorted_mergeSort edits
  have hlength := Document.length_content hvalid
  have hgathered := Run.isWithin_of_gathered hparse hrun
  have hwithin : ∀ edit ∈ edits, edit.range.IsWithin session.document.size := hgathered
  have horder : InOrder session.document.content.length 0 (arrange edits) := by
    rw [hlength]
    exact inOrder_dropOverlaps (fun edit hmem => hwithin edit (hsorted.perm.mem_iff.1 hmem)) 0
  obtain ⟨refused, taken, hsplits⟩ :=
    exists_splits count session.document.size 0 (arrange edits)
  have hcontent : (session.interpret env program).2.document.content =
      together session.document.content 0
        (taken.map (displaced session.document.size (totalShift refused))) := by
    rw [session.document_interpret, hedits]
    exact Document.content_replaceEach_displaced ⟨hvalid, hprotected⟩ hedit horder hsplits true
  refine ⟨edits, _, refused, taken, hrun, hsorted, hsplits, hcontent, fun hkeeps => ?_⟩
  rw [hcontent, hsplits.map_displaced (hlength ▸ horder) hkeeps]
  rfl

/-- A text is put in, and its first character is protected. -/
def Operation.lettered : List (Operation Unit) :=
  [.replace "abcd".toList (.point 0) true .program, .protect (some 1)]

/-- The session on the text `abcd` with its first character protected. -/
def Session.lettered : Session Unit :=
  Operation.run Operation.lettered .notes

/-- The substitution `,s/a|c/xy/`, with its pattern compiled. -/
def Command.twoLetters (text : String) : Command :=
  .substitute (.between (.simple ⟨none, .line 0⟩) .comma (.simple ⟨none, .last⟩)) 0 '/'
    ⟨"a|c", #[.split [3, 1], .oneOf .any, .jump 0, .save 0, .split [5, 7], .char 'a', .jump 8,
      .char 'c', .save 1, .accept], 2, false⟩ text false

/-- The document of the session has the text. -/
theorem Session.content_lettered : Session.lettered.document.content = "abcd".toList := by
  set_option maxRecDepth 1000 in cbv

/-- The document of the session can be edited. -/
theorem Session.editable_lettered : Session.lettered.document.editable = true := by
  set_option maxRecDepth 1000 in cbv

/-- One character of the session's text is protected. -/
theorem Session.protected_lettered : Session.lettered.document.protected? = some 1 := by
  set_option maxRecDepth 1000 in cbv

/-- Two edits in order stay as they are. -/
theorem Replacement.StablySorted.pair {first second : Replacement} {sorted : List Replacement}
    (h : Replacement.StablySorted [first, second] sorted)
    (hlt : first.range.start < second.range.start) : sorted = [first, second] := by
  have hpair : [first, second].Pairwise Replacement.NoLater :=
    List.pairwise_pair.2 (.inl hlt)
  refine List.Perm.eq_of_pairwise (fun a b ha hb hle hle' => ?_) h.ordered hpair h.perm
  have ha' := h.perm.mem_iff.1 ha
  simp only [List.mem_cons, List.not_mem_nil, or_false] at ha' hb
  unfold Replacement.NoLater at hle hle'
  -- The two do not begin at one place, so each of them can only be no later than itself.
  obtain rfl | rfl := ha' <;> obtain rfl | rfl := hb
  · rfl
  · omega
  · omega
  · rfl

/-- Both edits keep the length, and only the one behind the protected character is made. -/
theorem Session.interpret_displaces_lettered :
    Session.lettered.document.content = "abcd".toList ∧
      (Session.lettered.interpret .silent ",s/a|c/x/").2.document.content = "abxd".toList ∧
      ∃ sorted : List Replacement,
        (Session.lettered.interpret .silent ",s/a|c/x/").2.document.content =
          Replacement.together Session.lettered.document.content 0
            ((Replacement.dropOverlaps 0 sorted).filter (1 ≤ ·.range.start)) := by
  have hparse : Command.parse ",s/a|c/x/" = .ok (.twoLetters "x") := by
    cbv
  have hvalid : Session.lettered.document.IsValid := isValid_run _ _ (.blank "." "+notes" {} .plain)
  have hok : (Session.lettered.interpret .silent ",s/a|c/x/").1 = .ok () := by
    set_option maxRecDepth 1000 in cbv
  have hrun : (Run.execute .silent true (.twoLetters "x") Session.lettered.begun).1 =
      .ok [⟨⟨0, 1⟩, ['x']⟩, ⟨⟨2, 3⟩, ['x']⟩] := by
    set_option maxRecDepth 1000 in cbv
  have hafter : (Session.lettered.interpret .silent ",s/a|c/x/").2.document.content =
      "abxd".toList := by
    set_option maxRecDepth 1000 in cbv
  obtain ⟨edits, sorted, refused, taken, hedits, hsorted, _, _, hkept⟩ :=
    Session.interpret_displaces .silent Session.lettered hparse rfl hvalid
      Session.editable_lettered Session.protected_lettered hok
  rw [hrun] at hedits
  obtain rfl := Except.ok.inj hedits
  obtain rfl := hsorted.pair (by decide)
  refine ⟨Session.content_lettered, hafter, _, hkept ?_⟩
  intro edit hmem _
  have hboth : ∀ edit ∈ Replacement.dropOverlaps 0 [⟨⟨0, 1⟩, ['x']⟩, ⟨⟨2, 3⟩, ['x']⟩],
      edit.text.length = edit.range.length := by
    decide
  exact hboth edit hmem

/-- One edit is refused that would have made the text longer by one character, and the other takes
the place of the character behind its own. -/
theorem Session.not_interpret_displaces :
    ¬∀ (env : Environment Unit) (session start : Session Unit)
      (operations : List (Operation Unit)) (program : String) (command : Command) (count : Nat),
      start.document.Created → session.document = (Operation.run operations start).document →
      session.document.editable = true → session.document.protected? = some count →
      Command.parse program = .ok command → command.gathers = true →
      (session.interpret env program).1 = .ok () →
      ∃ edits sorted, (Run.execute env true command session.begun).1 = .ok edits ∧
        Replacement.StablySorted edits sorted ∧
        (session.interpret env program).2.document.content =
          Replacement.together session.document.content 0
            ((Replacement.dropOverlaps 0 sorted).filter (count ≤ ·.range.start)) := by
  intro h
  have hparse : Command.parse ",s/a|c/xy/" = .ok (.twoLetters "xy") := by
    cbv
  have hok : (Session.lettered.interpret .silent ",s/a|c/xy/").1 = .ok () := by
    set_option maxRecDepth 1000 in cbv
  have hrun : (Run.execute .silent true (.twoLetters "xy") Session.lettered.begun).1 =
      .ok [⟨⟨0, 1⟩, ['x', 'y']⟩, ⟨⟨2, 3⟩, ['x', 'y']⟩] := by
    set_option maxRecDepth 1000 in cbv
  have hafter : (Session.lettered.interpret .silent ",s/a|c/xy/").2.document.content =
      "abcxy".toList := by
    set_option maxRecDepth 1000 in cbv
  obtain ⟨edits, sorted, hedits, hsorted, hcontent⟩ := h .silent Session.lettered .notes
    Operation.lettered ",s/a|c/xy/" (.twoLetters "xy") 1 (.blank "." "+notes" {} .plain) rfl
    Session.editable_lettered Session.protected_lettered hparse rfl hok
  rw [hrun] at hedits
  obtain rfl := Except.ok.inj hedits
  obtain rfl := hsorted.pair (by decide)
  rw [hafter, Session.content_lettered] at hcontent
  exact absurd hcontent (by decide)

end Emend
