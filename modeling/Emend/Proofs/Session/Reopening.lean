import Emend.Proofs.Document.Travel
import Emend.Proofs.Command.Keeping
import Emend.Proofs.Session.Operation
import Emend.Proofs.Storage.Encoding
import Emend.Proofs.Storage.Writing
import Mathlib

/-!
# Opening what was saved

A document that was saved is opened again with the text that it had. On the way out the characters
are encoded one after the other, and the bytes are put where the path leads. On the way in the
directory has to be one, the path has to lead to the same place, the bytes must not be too many and
must not look binary, and they are decoded and put into a blank document.

The file system has to be a tree and must not drop what is written: `Document.IsStored`. Everything
else follows from the success of saving, also that the directory is there if the file is in it.
-/

namespace Emend

variable {σ : Type} {doc : Document}

namespace Document

/-! ## The directory stays -/

/-- Exchanging a range keeps the directory. -/
@[simp]
theorem directory_substitute (doc : Document) (text : List Char) (range : Selection) :
    (doc.substitute text range).directory = doc.directory := by
  unfold substitute
  split <;> rfl

/-- An edit keeps the directory. -/
@[simp]
theorem directory_replaceAccepted (doc : Document) (text : List Char) (range : Selection)
    (skip : Option SelectionHandle) (solid : Bool) (origin : EditOrigin) :
    (doc.replaceAccepted text range skip solid origin).directory = doc.directory :=
  (sameCore_replaceAccepted doc text range skip solid origin).directory.trans
    (directory_substitute doc text range)

/-- A step through the history keeps the directory. -/
@[simp]
theorem directory_travel (doc : Document) (redo : Bool) (skip : Option SelectionHandle) :
    (doc.travel redo skip).1.directory = doc.directory :=
  travel_same (fun _ _ => rfl) (fun doc _ text => directory_substitute doc text _) doc redo

/-- Another text keeps the directory. -/
@[simp]
theorem directory_replaceAll (doc : Document) (text : List Char) :
    (doc.replaceAll text).directory = doc.directory :=
  replaceAll_of_accepted (P := fun other => other.directory = doc.directory) (fun _ _ h => h) rfl
    fun _ _ _ => directory_replaceAccepted _ _ _ _ _ _

/-- Reading the file again keeps the directory. -/
theorem directory_reload {files : FileSystem} {create : Bool} {after : Document}
    (h : doc.reload files create = .ok after) : after.directory = doc.directory :=
  reload_of_replaceAll (P := fun other => other.directory = doc.directory)
    (fun _ _ h => (directory_replaceAll _ _).trans h) (fun _ h => h) (fun _ h => h)
    (fun _ _ h => h) (fun _ _ h => h) (fun _ h => h) rfl h

/-- A document is opened in the directory that is given. -/
theorem directory_openIn {files : FileSystem} {directory name : String} {create : Bool}
    {settings : Settings} (h : openIn files directory name create settings = .ok doc) :
    doc.directory = directory := by
  obtain ⟨highlighter, ⟨-, rfl⟩ | hread⟩ := openIn_cases h
  · rfl
  · exact directory_reload hread

/-- A document is only opened in a directory. -/
theorem checkDirectory_of_openIn {files : FileSystem} {directory name : String} {create : Bool}
    {settings : Settings} (h : openIn files directory name create settings = .ok doc) :
    files.checkDirectory directory = .ok () := by
  simp only [openIn, bind, Except.bind] at h
  split at h
  · cases h
  · next heq => exact heq

end Document

namespace Operation

open Document

/-- No operation moves a document to another directory. -/
theorem directory_perform (operation : Operation σ) (session : Session σ) :
    (operation.perform session).document.directory = session.document.directory := by
  -- An accepted edit keeps the directory, and so does whatever is made of such edits.
  cases operation with
  | replace text target solid origin =>
    exact replaceSkipping_of_accepted
      (P := fun other => other.directory = session.document.directory) rfl
      fun _ _ => directory_replaceAccepted _ _ _ _ _ _
  | replaceAt text handle solid origin =>
    exact replaceAt_of_accepted
      (P := fun other => other.directory = session.document.directory) (fun _ _ h => h) rfl
      fun _ _ _ => directory_replaceAccepted _ _ _ _ _ _
  | replaceAll text => exact directory_replaceAll _ text
  | interpret env program dot =>
    have hedits : Run.EditsKeep fun doc _ => doc.directory = session.document.directory := by
      intro doc fresh target text hdoc
      split
      · exact hdoc
      · exact (directory_replaceAccepted _ _ _ _ _ _).trans hdoc
    obtain ⟨_, hafter⟩ := Session.interpret_keeps { session with dot } hedits env program rfl
    exact hafter
  | undo sel redo => exact directory_travel _ redo none
  | undoAt handle redo =>
    exact undoAt_of_travel (P := fun other => other.directory = session.document.directory)
      (fun _ _ h => h) (directory_travel _ _ _)
  | save =>
    -- Writing and reading change it neither if they succeed nor if they fail.
    simp only [perform]
    split
    · next document files heq =>
      unfold Document.save at heq
      split at heq
      · cases heq
      · cases heq
        rfl
    · rfl
  | reload create =>
    simp only [perform]
    split
    · next document heq => exact directory_reload heq
    · rfl
  | listen listening => cases listening <;> rfl
  | _ => rfl

/-- No run of operations changes the directory. -/
@[simp]
theorem directory_run (operations : List (Operation σ)) (session : Session σ) :
    (run operations session).document.directory = session.document.directory := by
  induction operations generalizing session with
  | nil => rfl
  | cons operation rest ih =>
    rw [run_cons, ih, directory_perform]

end Operation

/-! ## Out and in again -/

/-- A file of plain text that is not too long is loaded as what it decodes to. -/
theorem FileSystem.load_of_find {files : FileSystem} {path : String} {place : FilePlace}
    {bytes : List UInt8} {executable : Bool} {limit : Nat}
    (hfind : files.find path = .ok (place, .file bytes executable)) (hsize : bytes.length ≤ limit)
    (hbinary : isBinary bytes = false) :
    files.load path limit = .ok (.text (Utf8.decodeLossy bytes)) := by
  unfold load
  rw [hfind]
  dsimp only
  rw [if_neg (Nat.not_lt.2 hsize), hbinary, if_neg Bool.false_ne_true]

namespace Document

/-- A document that can be edited takes the text of its file. -/
theorem content_reload {files : FileSystem} {text : List Char} (hvalid : doc.IsValid)
    (hedit : doc.editable = true) (hfree : doc.protected? = none)
    (hload : files.load doc.path doc.maxFileSize = .ok (.text text)) (create : Bool) :
    ∃ after, doc.reload files create = .ok after ∧ after.content = text ∧
      after.modified = false := by
  obtain ⟨after, words, wordsTime, hreload, hafter⟩ := reload_of_load hload create
  refine ⟨after, hreload, ?_, by rw [hafter]⟩
  rw [hafter]
  exact (takesAll_of_free hedit hfree).content_replaceAll hvalid text

/-- A file that can be loaded is opened with its text. -/
theorem openIn_of_load {files : FileSystem} {directory name : String} {settings : Settings}
    {text : List Char} (hdirectory : files.checkDirectory directory = .ok ())
    (hscratch : isScratchName name = false)
    (hload : files.load (Path.join directory name) settings.maxFileSize = .ok (.text text))
    (create : Bool) :
    ∃ opened, openIn files directory name create settings = .ok opened ∧ opened.content = text ∧
      opened.modified = false := by
  have hread (highlighter : Highlighter) : ∃ opened,
      ({ blank directory name settings with highlighter } : Document).reload files create =
        .ok opened ∧ opened.content = text ∧ opened.modified = false := by
    have hvalid : ({ blank directory name settings with highlighter } : Document).IsValid :=
      isValid_blank directory name settings
    exact content_reload hvalid rfl rfl hload create
  have hnot (highlighter : Highlighter) :
      ({ blank directory name settings with highlighter } : Document).isScratch = false := hscratch
  unfold openIn
  rw [hdirectory]
  simp only [bind, Except.bind, hnot, Bool.false_eq_true, if_false]
  split
  · exact hread _
  · exact hread _

/-- What is asked of the files: they form a tree, what is written is not dropped, and if the name
leads away from the directory of the document, that directory is still there. -/
structure IsStored (doc : Document) (files : FileSystem) : Prop where
  /-- The files form a tree. -/
  tree : files.IsTree
  /-- What is written is kept. -/
  kept : ¬files.Drops doc.path
  /-- The directory is there, also if the file is elsewhere. -/
  present : Path.isAbsolute doc.name = true → files.checkDirectory doc.directory = .ok ()

/-- **What was saved is opened again**, whatever the text, in a directory that is not empty. -/
theorem openIn_of_save {files after : FileSystem} {written : Document} {settings : Settings}
    (hdirectory : doc.directory ≠ "") (hscratch : doc.isScratch = false)
    (hstored : doc.IsStored files) (hsave : doc.save files = .ok (written, after))
    (htext : IsPlainText doc.content)
    (hsize : (Utf8.encode doc.content).length ≤ settings.maxFileSize) (create : Bool) :
    ∃ opened, openIn after doc.directory doc.name create settings = .ok opened ∧
      opened.content = doc.content ∧ opened.modified = false := by
  have hwritten : files.writeBytes doc.path (Utf8.encode doc.content) = .ok after := by
    unfold save at hsave
    split at hsave
    · cases hsave
    · next heq =>
      cases hsave
      exact heq
  have hthere : files.checkDirectory doc.directory = .ok () := by
    cases hname : Path.isAbsolute doc.name with
    | true => exact hstored.present hname
    | false =>
      exact FileSystem.checkDirectory_of_join hstored.tree hdirectory hname hwritten hstored.kept
  obtain ⟨place, executable, hfind⟩ :=
    FileSystem.find_of_writeBytes hstored.tree hwritten hstored.kept
  have hload := FileSystem.load_of_find hfind hsize (isBinary_encode htext)
  rw [Utf8.decodeLossy_encode] at hload
  exact openIn_of_load (FileSystem.checkDirectory_of_writeBytes hwritten hstored.kept hthere)
    hscratch hload create

end Document

open Document in
/-- **Saving and opening gives the text back**: for every document that was opened from a directory,
whatever was done to it and around it since, and every text without null and replacement characters
that is not too large. No such text looks binary. -/
theorem openIn_run_save :
    (∀ text, IsPlainText text → isBinary (Utf8.encode text) = false) ∧
    ∀ {earlier after : FileSystem} {directory name : String} {created create : Bool}
      {given settings : Settings} {session : Session σ} {operations : List (Operation σ)}
      {doc written : Document},
      openIn earlier directory name created given = .ok session.document →
      (Operation.run operations session).document = doc →
      doc.isScratch = false → doc.IsStored (Operation.run operations session).files →
      doc.save (Operation.run operations session).files = .ok (written, after) →
      IsPlainText doc.content →
      (Utf8.encode doc.content).length ≤ settings.maxFileSize →
      ∃ opened, openIn after doc.directory doc.name create settings = .ok opened ∧
        opened.content = doc.content ∧ opened.modified = false := by
  refine ⟨fun text => isBinary_encode, ?_⟩
  intro earlier after directory name created create given settings session operations doc written
    hopened hdoc hscratch hstored hsave htext hsize
  have hdirectory : doc.directory ≠ "" := by
    rw [← hdoc, Operation.directory_run, directory_openIn hopened]
    exact FileSystem.ne_empty_of_checkDirectory (checkDirectory_of_openIn hopened)
  exact openIn_of_save hdirectory hscratch hstored hsave htext hsize create

open Document in
/-- A new file gets a letter of two bytes, and is opened again. -/
theorem openIn_run_save_letter :
    ∃ (session : Session Unit) (doc written : Document) (after : FileSystem),
      openIn .empty "." "notes" true {} = .ok session.document ∧
      (Operation.run [.replaceAll ['é']] session).document = doc ∧ doc.isScratch = false ∧
      doc.IsStored (Operation.run [.replaceAll ['é']] session).files ∧
      doc.save (Operation.run [.replaceAll ['é']] session).files = .ok (written, after) ∧
      doc.content = ['é'] ∧
      ∃ opened, openIn after doc.directory doc.name false {} = .ok opened ∧
        opened.content = ['é'] ∧ opened.modified = false := by
  -- What the document is after the run, and what its path leads to.
  have hrun : (openIn .empty "." "notes" true {}).map (fun doc =>
      let after := (Operation.run [.replaceAll ['é']]
        (⟨doc, .empty, (), .point 0, true⟩ : Session Unit)).document
      (after.directory, after.name, after.content)) = .ok (".", "notes", ['é']) := by
    cbv
  have hlocate : FileSystem.empty.locate .writing (Path.join "." "notes") =
      .ok (["notes"], false) := by
    set_option maxRecDepth 1000 in cbv
  have hwritten : FileSystem.empty.writeText (Path.join "." "notes") ['é'] =
      .ok ⟨[(["notes"], .file [195, 169] false)]⟩ := by
    set_option maxRecDepth 1000 in cbv
  have hrelative : Path.isAbsolute "notes" = false := by
    set_option maxRecDepth 1000 in cbv
  have hfile : isScratchName "notes" = false := by
    set_option maxRecDepth 1000 in cbv
  cases hopened : openIn .empty "." "notes" true {} with
  | error error =>
    rw [hopened] at hrun
    cases hrun
  | ok start =>
    rw [hopened] at hrun
    obtain ⟨doc, hdoc⟩ : ∃ doc, (Operation.run [.replaceAll ['é']]
      (⟨start, .empty, (), .point 0, true⟩ : Session Unit)).document = doc := ⟨_, rfl⟩
    dsimp only [Except.map] at hrun
    rw [hdoc] at hrun
    simp only [Except.ok.injEq, Prod.mk.injEq] at hrun
    obtain ⟨hdirectory, hname, hcontent⟩ := hrun
    -- Its path leads to a regular file, and it is written there.
    have hpath : doc.path = Path.join "." "notes" := by
      rw [path, hdirectory, hname]
    have hscratch : doc.isScratch = false := by
      rw [isScratch, hname, hfile]
    have hstored : doc.IsStored .empty := by
      refine ⟨FileSystem.isTree_empty, ?_, fun h => ?_⟩
      · rintro ⟨slash, hdevice⟩
        rw [hpath, hlocate] at hdevice
        exact absurd (Prod.mk.inj (Except.ok.inj hdevice)).1 (by decide)
      · rw [hname, hrelative] at h
        cases h
    have hsave : ∃ written, doc.save .empty =
        .ok (written, ⟨[(["notes"], .file [195, 169] false)]⟩) := by
      unfold save
      rw [hpath, hcontent, hwritten]
      exact ⟨_, rfl⟩
    obtain ⟨written, hsave⟩ := hsave
    -- Its text is plain and short.
    have htext : IsPlainText doc.content := by
      intro c hc
      rw [hcontent, List.mem_singleton] at hc
      subst hc
      decide
    have hsize : (Utf8.encode doc.content).length ≤ ({} : Settings).maxFileSize := by
      rw [hcontent]
      decide
    obtain ⟨opened, hagain, htexts, hmodified⟩ : ∃ opened,
        openIn ⟨[(["notes"], .file [195, 169] false)]⟩ doc.directory doc.name false {} =
          .ok opened ∧ opened.content = doc.content ∧ opened.modified = false :=
      openIn_run_save.2 hopened hdoc hscratch hstored hsave htext hsize
    exact ⟨⟨start, .empty, (), .point 0, true⟩, doc, written, _, rfl, hdoc, hscratch, hstored,
      hsave, hcontent, opened, hagain, htexts.trans hcontent, hmodified⟩

end Emend
