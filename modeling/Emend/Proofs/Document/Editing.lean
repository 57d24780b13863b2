import Emend.Document.Storing
import Emend.Proofs.Buffer.Gap

/-!
# What edits do to the text of a document

Every change of a text goes through `Document.apply`, and on the list of characters it is a
`splice`: `content_apply`. The rest of an edit (the entry in the history, the registered
selections, the highlighter, the words, the listener) does not touch the text, and the text of a
refused edit stays as it is.

The buffer of a document has to be valid for this, which every document is from its creation on;
`IsValid` is kept by all that a document can do. The clamp inside of an edit is dealt with here:
what `accept` lets through lies within the text.
-/

namespace Emend

namespace Document

/-- The gap of the buffer lies within its cells. -/
def IsValid (doc : Document) : Prop :=
  doc.buffer.IsValid

/-- A document without text is valid. -/
theorem isValid_blank (directory name : String) (settings : Settings) :
    (blank directory name settings).IsValid :=
  GapBuffer.empty_isValid

/-- The content is the characters of the buffer's list. -/
theorem content_eq_toList (doc : Document) : doc.content = doc.buffer.toList.map (·.char) :=
  rfl

/-- A document without text has no content. -/
@[simp]
theorem content_blank (directory name : String) (settings : Settings) :
    (blank directory name settings).content = [] := by
  have hsize : (blank directory name settings).size = 0 := GapBuffer.size_empty
  rw [content_eq_toList, ← List.length_eq_zero_iff, List.length_map]
  exact (GapBuffer.length_toList GapBuffer.empty_isValid).trans hsize

/-- The content is as long as the document says. -/
theorem length_content {doc : Document} (h : doc.IsValid) : doc.content.length = doc.size := by
  rw [content_eq_toList, List.length_map, GapBuffer.length_toList h, size]

/-- The text of a selection is a slice of the content, after clamping. -/
theorem text_eq_sliceOf {doc : Document} (h : doc.IsValid) (sel : Selection) :
    doc.text sel = sliceOf doc.content (sel.clamp doc.size) :=
  GapBuffer.chars_eq_sliceOf h sel.start sel.stop

/-- The text of a range of the document needs no clamping. -/
theorem text_of_isWithin {doc : Document} (h : doc.IsValid) {sel : Selection}
    (hsel : sel.IsWithin doc.size) : doc.text sel = sliceOf doc.content sel := by
  rw [text_eq_sliceOf h, Selection.clamp_of_isWithin hsel]

/-- Mapping goes through splicing. -/
theorem map_splice {α β : Type} (f : α → β) (list inserted : List α) (range : Selection) :
    (splice list range inserted).map f = splice (list.map f) range (inserted.map f) := by
  simp only [splice, List.map_append, List.map_take, List.map_drop]

/-- Fresh glyphs of a text have the characters of the text. -/
theorem map_char_fresh (text : List Char) : (text.map Glyph.fresh).map (·.char) = text := by
  rw [List.map_map]
  exact List.map_id text

/-! ## Accepting -/

/-- An accepted range lies within the text. -/
theorem isWithin_of_accept {doc : Document} {target range : Selection}
    (h : doc.accept target = .ok range) : range.IsWithin doc.size := by
  -- Whatever is let through has been clamped.
  have hclamp := target.clamp_isWithin doc.size
  unfold accept at h
  split at h
  · cases h
  · dsimp only at h
    split at h
    · split at h
      · cases h
      · cases h
        exact hclamp
    · cases h
      exact hclamp

/-- A document that is editable and has no protected part accepts every range that lies within its
text as it is. -/
theorem accept_of_isWithin {doc : Document} {range : Selection} (hedit : doc.editable = true)
    (hfree : doc.protected? = none) (h : range.IsWithin doc.size) :
    doc.accept range = .ok range := by
  unfold accept
  rw [hedit, hfree, Selection.clamp_of_isWithin h]
  rfl

/-! ## Substituting -/

/-- Exchanging a range in the buffer keeps the document valid. -/
theorem isValid_substitute {doc : Document} (h : doc.IsValid) (text : List Char)
    (range : Selection) : (doc.substitute text range).IsValid := by
  unfold substitute
  split
  · exact GapBuffer.isValid_insert h _ _
  · exact GapBuffer.isValid_insert (GapBuffer.isValid_delete h _ _) _ _

/-- The glyphs of a list after a deletion and an insertion at one place. -/
theorem insert_delete_eq_splice {glyphs : List Glyph} {range : Selection} (text : List Char)
    (h : range.IsWithin glyphs.length) (hne : range.start ≠ range.stop) :
    Glyphs.insert (Glyphs.delete glyphs range.start range.stop) range.start text =
      splice glyphs range (text.map .fresh) := by
  obtain ⟨hle, hsize⟩ := h
  have hmin : min range.stop glyphs.length = range.stop := Nat.min_eq_left hsize
  have hlength : (glyphs.take range.start).length = range.start := by
    rw [List.length_take]
    omega
  rw [Glyphs.delete, if_pos (by omega), hmin, Glyphs.insert]
  -- What is left is still long enough for the insertion to go where the deletion was.
  have hstart : min range.start (splice glyphs range []).length = range.start := by
    simp only [splice, List.length_append, hlength]
    omega
  rw [hstart]
  simp only [splice, Selection.point, List.append_nil]
  rw [List.take_left' hlength, List.drop_left' hlength]

/-- Substituting within a text splices its content. -/
theorem content_substitute {doc : Document} {range : Selection} (h : doc.IsValid)
    (text : List Char) (hrange : range.IsWithin doc.size) :
    (doc.substitute text range).content = splice doc.content range text := by
  have hlist : range.IsWithin doc.buffer.toList.length := by
    rw [GapBuffer.length_toList h]
    exact hrange
  -- It is enough to compare the glyphs.
  have hmap : splice doc.content range text =
      (splice doc.buffer.toList range (text.map .fresh)).map (·.char) := by
    rw [map_splice, map_char_fresh, content_eq_toList]
  rw [hmap]
  unfold substitute
  split
  · next hempty =>
    have heq : range.start = range.stop := by simpa [Selection.isEmpty] using hempty
    have hmin : min range.start doc.buffer.toList.length = range.start := by
      obtain ⟨_, hsize⟩ := hlist
      omega
    have hpoint : Selection.point range.start = range := by
      ext
      · rfl
      · exact heq
    rw [content_eq_toList, GapBuffer.toList_insert h, Glyphs.insert, hmin, hpoint]
  · next hempty =>
    have hne : range.start ≠ range.stop := by simpa [Selection.isEmpty] using hempty
    rw [content_eq_toList, GapBuffer.toList_insert (GapBuffer.isValid_delete h _ _),
      GapBuffer.toList_delete h, insert_delete_eq_splice text hlist hne]

/-- Exchanging a range in the buffer is not recorded. -/
@[simp]
theorem history_substitute (doc : Document) (text : List Char) (range : Selection) :
    (doc.substitute text range).history = doc.history := by
  unfold substitute
  split <;> rfl

/-- Exchanging a range does not change whether the document can be edited. -/
@[simp]
theorem editable_substitute (doc : Document) (text : List Char) (range : Selection) :
    (doc.substitute text range).editable = doc.editable := by
  unfold substitute
  split <;> rfl

/-- Exchanging a range does not change what is protected. -/
@[simp]
theorem protected_substitute (doc : Document) (text : List Char) (range : Selection) :
    (doc.substitute text range).protected? = doc.protected? := by
  unfold substitute
  split <;> rfl

/-! ## Applying and recording -/

/-- Applying an edit keeps a document valid. -/
theorem isValid_apply {doc : Document} (h : doc.IsValid) (text : List Char) (range : Selection)
    (skip : Option SelectionHandle) : (doc.apply text range skip).IsValid :=
  isValid_substitute h text range

/-- **An edit is a splice.** -/
theorem content_apply {doc : Document} {range : Selection} (h : doc.IsValid) (text : List Char)
    (skip : Option SelectionHandle) (hrange : range.IsWithin doc.size) :
    (doc.apply text range skip).content = splice doc.content range text :=
  content_substitute h text hrange

/-- The entry that `record` hands to the history. -/
def entryFor (doc : Document) (text : List Char) (range : Selection) (solid : Bool)
    (origin : EditOrigin) : HistoryEntry where
  revision := doc.revision
  before := ⟨range.start, range.stop, doc.text range⟩
  after := .at range.start text
  time := doc.clock
  saved := false
  solid
  typed := origin = .keyboard

/-- Two documents that differ at most in what no edit, no history and no file depends on: the
registered selections, the highlighter, the words, the listener and the count of changes. -/
structure SameCore (doc other : Document) : Prop where
  /-- They have the same directory. -/
  directory : doc.directory = other.directory
  /-- They have the same name. -/
  name : doc.name = other.name
  /-- One is editable if the other is. -/
  editable : doc.editable = other.editable
  /-- As many characters are protected. -/
  protected? : doc.protected? = other.protected?
  /-- One counts as modified if the other does. -/
  modified : doc.modified = other.modified
  /-- They have the same buffer. -/
  buffer : doc.buffer = other.buffer
  /-- They have the same history. -/
  history : doc.history = other.history
  /-- They load files up to the same size. -/
  maxFileSize : doc.maxFileSize = other.maxFileSize
  /-- The present time is the same. -/
  clock : doc.clock = other.clock

/-- A document has its own core. -/
theorem SameCore.refl (doc : Document) : doc.SameCore doc :=
  ⟨rfl, rfl, rfl, rfl, rfl, rfl, rfl, rfl, rfl⟩

/-- Documents with the core of a third one have the same core. -/
theorem SameCore.trans {first second third : Document} (h : first.SameCore second)
    (h' : second.SameCore third) : first.SameCore third :=
  ⟨h.directory.trans h'.directory, h.name.trans h'.name, h.editable.trans h'.editable,
    h.protected?.trans h'.protected?, h.modified.trans h'.modified, h.buffer.trans h'.buffer,
    h.history.trans h'.history, h.maxFileSize.trans h'.maxFileSize, h.clock.trans h'.clock⟩

/-- Counting what file operations put in touches nothing that matters to edits. -/
theorem sameCore_countFilesAdded (doc : Document) (count : Nat) (origin : EditOrigin) :
    (doc.countFilesAdded count origin).SameCore doc := by
  unfold countFilesAdded
  split
  · dsimp only
    split <;> constructor <;> rfl
  · exact .refl doc

/-- Nor does what moves along with a substitution. -/
theorem sameCore_apply (doc : Document) (text : List Char) (range : Selection)
    (skip : Option SelectionHandle) :
    (doc.apply text range skip).SameCore (doc.substitute text range) := by
  constructor <;> rfl

/-- What an accepted replacement makes of a document, apart from what `SameCore` leaves open: it
substitutes the text, adds one entry to the history, and marks the document as modified. -/
def replaced (doc : Document) (text : List Char) (range : Selection) (solid : Bool)
    (origin : EditOrigin) : Document :=
  { doc.substitute text range with
    modified := true
    history := doc.history.add (doc.entryFor text range solid origin) doc.clock }

section ReplaceAccepted

variable {doc : Document} {text : List Char} {range : Selection} {skip : Option SelectionHandle}
  {solid : Bool} {origin : EditOrigin}

/-- Apart from what follows the text, an edit exchanges the range and records it. -/
theorem sameCore_replaceAccepted (doc : Document) (text : List Char) (range : Selection)
    (skip : Option SelectionHandle) (solid : Bool) (origin : EditOrigin) :
    (doc.replaceAccepted text range skip solid origin).SameCore
      (doc.replaced text range solid origin) := by
  unfold replaceAccepted
  -- Counting and announcing come last, and neither is seen.
  refine (sameCore_countFilesAdded _ _ _).trans ?_
  have hannounce : ∀ other : Document, (other.announce text range origin).SameCore other := by
    intro other
    constructor <;> rfl
  refine (hannounce _).trans ((sameCore_apply _ _ _ _).trans ?_)
  unfold replaced substitute
  split <;> constructor <;> rfl

/-- An edit keeps a document valid. -/
theorem isValid_replaceAccepted (h : doc.IsValid) :
    (doc.replaceAccepted text range skip solid origin).IsValid := by
  unfold IsValid
  rw [(sameCore_replaceAccepted doc text range skip solid origin).buffer]
  exact isValid_substitute h text range

/-- An accepted replacement splices the content. -/
theorem content_replaceAccepted (h : doc.IsValid) (hrange : range.IsWithin doc.size) :
    (doc.replaceAccepted text range skip solid origin).content =
      splice doc.content range text := by
  rw [content_eq_toList, (sameCore_replaceAccepted doc text range skip solid origin).buffer]
  exact content_substitute h text hrange

/-- An accepted replacement adds its entry to the history. -/
theorem history_replaceAccepted :
    (doc.replaceAccepted text range skip solid origin).history =
      doc.history.add (doc.entryFor text range solid origin) doc.clock :=
  (sameCore_replaceAccepted doc text range skip solid origin).history

/-- An edit does not change whether the document can be edited. -/
@[simp]
theorem editable_replaceAccepted :
    (doc.replaceAccepted text range skip solid origin).editable = doc.editable :=
  (sameCore_replaceAccepted doc text range skip solid origin).editable.trans
    (editable_substitute doc text range)

/-- An edit does not change what is protected. -/
@[simp]
theorem protected_replaceAccepted :
    (doc.replaceAccepted text range skip solid origin).protected? = doc.protected? :=
  (sameCore_replaceAccepted doc text range skip solid origin).protected?.trans
    (protected_substitute doc text range)

end ReplaceAccepted

/-! ## What holds after an edit

A property of documents that does not depend on the registered selections holds after an edit if it
holds before and after the accepted replacement that the edit may come to. -/

section AfterEdit

variable {P : Document → Prop} {doc : Document} {text : List Char} {target : Selection}
  {skip : Option SelectionHandle} {solid : Bool} {origin : EditOrigin}

/-- What accepted edits keep, a replacement keeps, accepted or not. -/
theorem replaceSkipping_of_accepted (h : P doc)
    (haccepted : ∀ range, doc.accept target = .ok range →
      P (doc.replaceAccepted text range skip solid origin)) :
    P (doc.replaceSkipping text target skip solid origin).1 := by
  unfold replaceSkipping
  split
  · exact h
  · next range haccept => exact haccepted range haccept

/-- What accepted edits and changes of the selections keep, an edit of a registered selection keeps.
-/
theorem replaceAt_of_accepted {handle : SelectionHandle}
    (hselections : ∀ doc selections, P doc → P { doc with selections }) (h : P doc)
    (haccepted : ∀ target range, doc.accept target = .ok range →
      P (doc.replaceAccepted text range (some handle) solid origin)) :
    P (doc.replaceAt text handle solid origin) := by
  unfold replaceAt
  split
  · exact h
  · next sel _ =>
    exact hselections _ _ (replaceSkipping_of_accepted h fun range => haccepted sel range)

/-- What accepted edits and changes of the selections keep, another text keeps. -/
theorem replaceAll_of_accepted
    (hselections : ∀ doc selections, P doc → P { doc with selections }) (h : P doc)
    (haccepted : ∀ target range, doc.accept target = .ok range →
      P (doc.replaceAccepted text range none true .program)) : P (doc.replaceAll text) :=
  hselections _ _ (replaceSkipping_of_accepted h fun range => haccepted _ range)

end AfterEdit

/-! ## Taking a whole new text -/

section Whole

variable {doc : Document}

/-- The document takes a whole new text: it is editable, and no part of it is protected. -/
def TakesAll (doc : Document) : Prop :=
  doc.editable = true ∧ ∀ count, doc.protected? = some count → count = 0

/-- The range of the whole text. -/
def whole (doc : Document) : Selection :=
  ⟨0, doc.size⟩

/-- The range of the whole text lies within it. -/
theorem whole_isWithin (doc : Document) : doc.whole.IsWithin doc.size :=
  ⟨Nat.zero_le _, Nat.le_refl _⟩

/-- If so, an edit of the whole text is accepted. -/
theorem TakesAll.accept (h : doc.TakesAll) : doc.accept doc.whole = .ok doc.whole := by
  obtain ⟨hedit, hfree⟩ := h
  unfold Document.accept
  rw [hedit, Selection.clamp_of_isWithin doc.whole_isWithin]
  cases hprotected : doc.protected? with
  | none => rfl
  | some count =>
    rw [hfree count hprotected]
    rfl

/-- Otherwise it is refused. -/
theorem accept_whole_of_not (h : ¬doc.TakesAll) : ∃ sel, doc.accept doc.whole = .error sel := by
  cases haccept : doc.accept doc.whole with
  | error sel => exact ⟨sel, rfl⟩
  | ok range =>
    refine absurd ?_ h
    unfold accept at haccept
    rw [Selection.clamp_of_isWithin doc.whole_isWithin] at haccept
    cases hedit : doc.editable with
    | false =>
      rw [hedit] at haccept
      cases haccept
    | true =>
      refine ⟨hedit, fun count hprotected => Nat.eq_zero_of_not_pos fun hpositive => ?_⟩
      rw [hedit, hprotected] at haccept
      have hinside : doc.whole.start < count := hpositive
      simp only [Bool.not_true, Bool.false_eq_true, if_false, if_pos hinside] at haccept
      cases haccept

/-- What becomes of a document that takes a whole new text, before its selections are put back. -/
theorem TakesAll.replaceAll (h : doc.TakesAll) (text : List Char) : ∃ selections,
    doc.replaceAll text =
      { doc.replaceAccepted text doc.whole none true .program with selections } := by
  have haccept : doc.accept ⟨0, doc.size⟩ = .ok doc.whole := h.accept
  unfold Document.replaceAll Document.replace replaceSkipping
  rw [haccept]
  exact ⟨_, rfl⟩

/-- A document that does not keeps all but perhaps its selections. -/
theorem replaceAll_of_not_takesAll (h : ¬doc.TakesAll) (text : List Char) : ∃ selections,
    doc.replaceAll text = { doc with selections } := by
  obtain ⟨sel, haccept⟩ := accept_whole_of_not h
  have hwhole : doc.accept ⟨0, doc.size⟩ = .error sel := haccept
  unfold Document.replaceAll Document.replace replaceSkipping
  rw [hwhole]
  exact ⟨_, rfl⟩

/-- Putting the whole text in again leaves nothing of the old one. -/
theorem splice_whole (hvalid : doc.IsValid) (text : List Char) :
    splice doc.content doc.whole text = text := by
  rw [splice, whole, ← length_content hvalid, List.drop_length]
  simp only [List.take_zero, List.nil_append, List.append_nil]

/-- A document that takes a whole new text shows it then. -/
theorem TakesAll.content_replaceAll (h : doc.TakesAll) (hvalid : doc.IsValid) (text : List Char) :
    (doc.replaceAll text).content = text := by
  obtain ⟨selections, hreplace⟩ := h.replaceAll text
  rw [hreplace]
  exact (content_replaceAccepted hvalid doc.whole_isWithin).trans (splice_whole hvalid text)

/-- A document that can be edited and has no protected part takes any text. -/
theorem takesAll_of_free (hedit : doc.editable = true) (hfree : doc.protected? = none) :
    doc.TakesAll :=
  ⟨hedit, fun count hprotected => by rw [hfree] at hprotected; cases hprotected⟩

end Whole

/-! ## Reading -/

/-- What reading a file makes of a document: the whole text is put in, and marked as saved. -/
theorem reload_of_load {doc : Document} {files : FileSystem} {text : List Char}
    (hload : files.load doc.path doc.maxFileSize = .ok (.text text)) (create : Bool) :
    ∃ after words wordsTime, doc.reload files create = .ok after ∧
      after = { doc.replaceAll text with
        modified := false, history := (doc.replaceAll text).history.markSaved, words, wordsTime } := by
  unfold reload
  rw [hload]
  dsimp only
  split
  · exact ⟨_, _, _, rfl, rfl⟩
  · exact ⟨_, _, _, rfl, rfl⟩

/-- What whole replacements, the marks of reading and a new name keep, reading the file again
keeps. -/
theorem reload_of_replaceAll {P : Document → Prop} {doc after : Document} {files : FileSystem}
    {create : Bool} (hreplace : ∀ doc text, P doc → P (doc.replaceAll text))
    (hsaved : ∀ doc, P doc → P { doc with history := doc.history.markSaved })
    (hunsaved : ∀ doc, P doc → P { doc with history := doc.history.markBlankUnsaved })
    (hmodified : ∀ doc modified, P doc → P { doc with modified })
    (hname : ∀ doc name, P doc → P { doc with name })
    (hwords : ∀ doc, P doc → P doc.updateWords)
    (h : P doc) (hreload : doc.reload files create = .ok after) : P after := by
  unfold reload at hreload
  split at hreload
  · cases hreload
  · next text _ =>
    -- The text is put in by an edit, and then marked.
    have hread := hmodified _ false (hsaved _ (hreplace doc text h))
    cases hreload
    split
    · exact hwords _ hread
    · exact hread
  · next text _ =>
    cases hreload
    exact hmodified _ false (hreplace _ text (hname doc _ h))
  · split at hreload
    · -- A file that is to be created leaves the text as it is.
      cases hreload
      exact hmodified _ true (hunsaved doc h)
    · cases hreload

/-- A document is opened as a blank one, which reads its file unless it has none. -/
theorem openIn_cases {files : FileSystem} {directory name : String} {create : Bool}
    {settings : Settings} {doc : Document}
    (h : openIn files directory name create settings = .ok doc) :
    ∃ highlighter,
      (isScratchName name = true ∧ doc = { blank directory name settings with highlighter }) ∨
        ({ blank directory name settings with highlighter } : Document).reload files create =
          .ok doc := by
  simp only [openIn, bind, Except.bind] at h
  split at h
  · cases h
  · -- Whatever the highlighter is, what follows is the same.
    have hread : ∀ highlighter,
        (if isScratchName name then
          Except.ok ({ blank directory name settings with highlighter } : Document)
        else ({ blank directory name settings with highlighter } : Document).reload files
          create) = .ok doc →
        ∃ highlighter,
          (isScratchName name = true ∧ doc = { blank directory name settings with highlighter }) ∨
            ({ blank directory name settings with highlighter } : Document).reload files create =
              .ok doc := by
      intro highlighter hread
      refine ⟨highlighter, ?_⟩
      split at hread
      · next hscratch =>
        cases hread
        exact .inl ⟨hscratch, rfl⟩
      · exact .inr hread
    split at h
    · exact hread _ h
    · exact hread _ h

/-! ## Replaying -/

/-- Replaying a passage that lies within the text splices the content. -/
theorem content_replay {doc : Document} (h : doc.IsValid) (passage : Passage) (text : List Char)
    (skip : Option SelectionHandle)
    (hwithin : Selection.IsWithin ⟨passage.start, passage.stop⟩ doc.size) :
    (doc.replay passage text skip).1.content =
      splice doc.content ⟨passage.start, passage.stop⟩ text := by
  have hclamp := Selection.clamp_of_isWithin hwithin
  have happly := content_apply h text skip hwithin
  unfold replay
  rw [hclamp]
  exact happly

/-- Replaying leaves the history as it is. -/
theorem history_replay (doc : Document) (passage : Passage) (text : List Char)
    (skip : Option SelectionHandle) : (doc.replay passage text skip).1.history = doc.history :=
  history_substitute doc text _

/-- Afterwards the document counts as modified unless its history says that it is saved. -/
theorem modified_replay (doc : Document) (passage : Passage) (text : List Char)
    (skip : Option SelectionHandle) :
    (doc.replay passage text skip).1.modified = !doc.history.isSaved := by
  rw [← history_replay doc passage text skip]
  rfl

/-- Replaying an entry does not change whether the document can be edited. -/
@[simp]
theorem editable_replay (doc : Document) (passage : Passage) (text : List Char)
    (skip : Option SelectionHandle) : (doc.replay passage text skip).1.editable = doc.editable :=
  editable_substitute doc text _

/-- Replaying an entry does not change what is protected. -/
@[simp]
theorem protected_replay (doc : Document) (passage : Passage) (text : List Char)
    (skip : Option SelectionHandle) :
    (doc.replay passage text skip).1.protected? = doc.protected? :=
  protected_substitute doc text _

/-- Replaying an entry keeps a document valid. -/
theorem isValid_replay {doc : Document} (h : doc.IsValid) (passage : Passage) (text : List Char)
    (skip : Option SelectionHandle) : (doc.replay passage text skip).1.IsValid :=
  isValid_apply h text _ skip

end Document

end Emend
