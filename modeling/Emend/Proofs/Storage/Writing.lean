import Emend.Proofs.Storage.Path
import Emend.Storage.Loading

/-!
# Reading what was written

`Walks` says which walks through a file system get somewhere, one rule for each kind of step. A walk
looks only at directories and links until its last step, so it still gets there when a file is put
where neither is (`Walks.put`); this is why a file that was written is found again under its path,
and why the directories on the way to it are still there.
-/

namespace Emend

namespace FileSystem

variable {files : FileSystem} {place : FilePlace}

/-- A changed place holds the new node, and all others hold what they held. -/
theorem node?_put (files : FileSystem) (place other : FilePlace) (node : FileNode) :
    (files.put place node).node? other =
      if other = place then some node else files.node? other := by
  unfold node? put
  rw [List.find?_append, List.find?_filter]
  split
  · next heq =>
    subst heq
    have hnone : files.nodes.find? (fun entry =>
        (entry.1 != other) = true ∧ (entry.1 == other) = true) = none := by
      rw [List.find?_eq_none]
      simp
    rw [hnone]
    simp
  · next hne =>
    have hsame : (fun entry : FilePlace × FileNode =>
        decide ((entry.1 != place) = true ∧ (entry.1 == other) = true)) =
        fun entry => entry.1 == other := by
      funext entry
      by_cases h : entry.1 = other
      · simp [h, hne]
      · simp [h]
    rw [hsame]
    simp [Ne.symm hne]

/-- Nothing or a file: a walk ends there if it gets there at all. -/
def IsEnd : Option FileNode → Prop
  | none => True
  | some (.file _ _) => True
  | _ => False

/-- A name that leads from a directory to a node in it. -/
structure IsName (name : String) : Prop where
  /-- It does not stay in the directory. -/
  notHere : name ≠ "."
  /-- It does not lead above. -/
  notAbove : name ≠ ".."
  /-- It is not too long. -/
  fits : ¬nameLimit < name.utf8ByteSize

/-- The walks that get somewhere. -/
inductive Walks (files : FileSystem) (purpose : Purpose) :
    Nat → FilePlace → Bool → List String → FilePlace × Bool → Prop where
  /-- No steps are left. -/
  | done {links : Nat} {here : FilePlace} {slash : Bool} :
    Walks files purpose links here slash [] (here, slash)
  /-- A step that stays. -/
  | stay {links : Nat} {here : FilePlace} {slash : Bool} {rest : List String}
    {result : FilePlace × Bool} (walks : Walks files purpose links here slash rest result) :
    Walks files purpose links here slash ("." :: rest) result
  /-- A step to the directory above. -/
  | up {links : Nat} {here : FilePlace} {slash : Bool} {rest : List String}
    {result : FilePlace × Bool}
    (walks : Walks files purpose links (parentPlace here) slash rest result) :
    Walks files purpose links here slash (".." :: rest) result
  /-- A step into a directory. -/
  | enter {links : Nat} {here : FilePlace} {slash : Bool} {name : String} {rest : List String}
    {result : FilePlace × Bool} (named : IsName name)
    (allowed : (rest.isEmpty && slash && purpose == .writing) = false)
    (directory : files.node? (here ++ [name]) = some .directory)
    (walks : Walks files purpose links (here ++ [name]) slash rest result) :
    Walks files purpose links here slash (name :: rest) result
  /-- A last step. -/
  | last {links : Nat} {here : FilePlace} {slash : Bool} {name : String} (named : IsName name)
    (allowed : (slash && purpose == .writing) = false)
    (ends : IsEnd (files.node? (here ++ [name]))) :
    Walks files purpose links here slash [name] (here ++ [name], slash)
  /-- A step along a link. -/
  | follow {links : Nat} {here : FilePlace} {slash : Bool} {name target : String}
    {rest : List String} {result : FilePlace × Bool} (named : IsName name)
    (allowed : (rest.isEmpty && slash && purpose == .writing) = false)
    (link : files.node? (here ++ [name]) = some (.link target))
    (walks : Walks files purpose links (if Path.isAbsolute target then root else here)
      (slash || (rest.isEmpty && Path.endsInSlash target)) (Path.steps target ++ rest) result) :
    Walks files purpose (links + 1) here slash (name :: rest) result

variable {purpose : Purpose} {links : Nat} {here : FilePlace} {slash : Bool} {names : List String}
  {result : FilePlace × Bool}

/-- The walks that get somewhere are those that `walk` finds a result for. -/
theorem walk_eq_ok_iff :
    files.walk purpose links here slash names = .ok result ↔
      files.Walks purpose links here slash names result := by
  constructor
  · -- By the steps of `walk`; the cases that are left out are those in which it fails.
    intro h
    fun_induction FileSystem.walk files purpose links here slash names with
    | case1 =>
      cases h
      exact .done
    | case2 _ _ _ _ ih => exact .stay (ih h)
    | case3 _ _ _ _ _ ih => exact .up (ih h)
    | case6 _ _ _ _ _ hhere habove hallowed hfits hnode ih =>
      exact .enter ⟨hhere, habove, hfits⟩ (Bool.eq_false_iff.2 hallowed) hnode (ih h)
    | case7 links here slash name rest hhere habove hallowed hfits _ _ hnode hlast =>
      cases h
      obtain rfl := List.isEmpty_iff.1 hlast
      refine .last ⟨hhere, habove, hfits⟩ (Bool.eq_false_iff.2 hallowed) ?_
      rw [hnode]
      trivial
    | case9 links here slash name rest hhere habove hallowed hfits hnode hlast =>
      cases h
      obtain rfl := List.isEmpty_iff.1 hlast
      refine .last ⟨hhere, habove, hfits⟩ (Bool.eq_false_iff.2 hallowed) ?_
      rw [hnode]
      trivial
    | case12 here slash name rest hhere habove hallowed hfits target hnode links ih =>
      exact .follow ⟨hhere, habove, hfits⟩ (Bool.eq_false_iff.2 hallowed) hnode (ih h)
    | _ => cases h
  · -- Each step of a walk is the one that `walk` takes.
    intro h
    induction h with
    | done => rw [walk]
    | stay _ ih => rw [walk, if_pos rfl, ih]
    | up _ ih => rw [walk, if_neg (by decide), if_pos rfl, ih]
    | enter named allowed directory _ ih =>
      rw [walk, if_neg named.notHere, if_neg named.notAbove, if_neg (Bool.eq_false_iff.1 allowed),
        if_neg named.fits, directory]
      exact ih
    | @last _ here slash name named allowed ends =>
      rw [walk, if_neg named.notHere, if_neg named.notAbove, List.isEmpty_nil, Bool.true_and,
        if_neg (Bool.eq_false_iff.1 allowed), if_neg named.fits]
      cases hnode : files.node? (here ++ [name]) with
      | none => rfl
      | some node =>
        rw [hnode] at ends
        cases node with
        | file => rfl
        | directory => cases ends
        | link => cases ends
    | follow named allowed link _ ih =>
      rw [walk, if_neg named.notHere, if_neg named.notAbove, if_neg (Bool.eq_false_iff.1 allowed),
        if_neg named.fits, link]
      exact ih

/-- A slash that follows the last name still does at the end. -/
theorem Walks.ends_in_slash (h : files.Walks purpose links here true names result) :
    result.2 = true := by
  generalize hslash : true = slash at h
  induction h with
  | done => rfl
  | stay _ ih => exact ih hslash
  | up _ ih => exact ih hslash
  | enter _ _ _ _ ih => exact ih hslash
  | last => rfl
  | follow _ _ _ _ ih =>
    subst hslash
    exact ih rfl

/-- A file that is put where no directory and no link is changes no walk. -/
theorem Walks.put (hend : IsEnd (files.node? place)) {bytes : List UInt8} {executable : Bool}
    (h : files.Walks purpose links here slash names result) :
    (files.put place (.file bytes executable)).Walks .reading links here slash names result := by
  have hother {other : FilePlace} {node : FileNode} (hnode : files.node? other = some node)
      (hnot : ¬IsEnd (some node)) :
      (files.put place (.file bytes executable)).node? other = some node := by
    rw [node?_put, if_neg, hnode]
    rintro rfl
    rw [hnode] at hend
    exact hnot hend
  have hreading {final slash : Bool} : (final && slash && Purpose.reading == .writing) = false :=
    Bool.and_false _
  induction h with
  | done => exact .done
  | stay _ ih => exact .stay ih
  | up _ ih => exact .up ih
  | enter named allowed directory _ ih => exact .enter named hreading (hother directory id) ih
  | last named allowed ends =>
    refine .last named (Bool.and_false _) ?_
    rw [node?_put]
    split
    · trivial
    · exact ends
  | follow named allowed link _ ih => exact .follow named hreading (hother link id) ih

/-! ## File systems that are trees -/

/-- The working directory and the root are directories, and so is what is above a directory. -/
structure IsTree (files : FileSystem) : Prop where
  /-- The working directory is there. -/
  working : files.node? [] = some .directory
  /-- So is the root. -/
  root : files.node? root = some .directory
  /-- The directory above a directory is one. -/
  parent : ∀ place, files.node? place = some .directory →
    files.node? (parentPlace place) = some .directory

/-- Every walk begins at a directory. -/
theorem IsTree.origin (htree : files.IsTree) (path : String) :
    files.node? (origin path) = some .directory := by
  unfold FileSystem.origin
  split
  · exact htree.root
  · exact htree.working

/-- The directories that are there from the beginning form a tree. -/
theorem isTree_empty : FileSystem.empty.IsTree := by
  refine ⟨rfl, rfl, fun place hplace => ?_⟩
  have hstanding : standing? place = some .directory := hplace
  unfold standing? at hstanding
  split at hstanding
  · next hknown =>
    simp only [Bool.or_eq_true, decide_eq_true_eq] at hknown
    rcases hknown with ((rfl | rfl) | rfl) | rfl <;> rfl
  · split at hstanding <;> cases hstanding

/-- A file that is put where no directory is leaves the tree as it is. -/
theorem IsTree.put (htree : files.IsTree) (hend : IsEnd (files.node? place)) (bytes : List UInt8)
    (executable : Bool) : (files.put place (.file bytes executable)).IsTree := by
  have hsame (other : FilePlace) :
      (files.put place (.file bytes executable)).node? other = some .directory ↔
        files.node? other = some .directory := by
    rw [node?_put]
    split
    · next heq =>
      subst heq
      refine ⟨nofun, fun h => ?_⟩
      rw [h] at hend
      cases hend
    · exact Iff.rfl
  exact ⟨(hsame _).2 htree.working, (hsame _).2 htree.root,
    fun other h => (hsame _).2 (htree.parent other ((hsame other).1 h))⟩

/-- A walk that may write ends at a directory if a slash follows its last name. -/
theorem Walks.directory_of_slash (htree : files.IsTree)
    (h : files.Walks .writing links here slash names result)
    (hhere : files.node? here = some .directory) (hslash : result.2 = true) :
    files.node? result.1 = some .directory := by
  induction h with
  | done => exact hhere
  | stay _ ih => exact ih hhere hslash
  | up _ ih => exact ih (htree.parent _ hhere) hslash
  | enter _ _ directory _ ih => exact ih directory hslash
  | last _ allowed =>
    dsimp only at hslash
    rw [hslash] at allowed
    cases allowed
  | follow _ _ _ _ ih =>
    refine ih ?_ hslash
    split
    · exact htree.root
    · exact hhere

/-- A walk that goes on after some steps is at a directory after them. -/
theorem Walks.front (htree : files.IsTree) {first second : List String}
    (h : files.Walks purpose links here slash (first ++ second) result) (hsecond : second ≠ [])
    (hhere : files.node? here = some .directory) (slash' : Bool) :
    ∃ reached, files.Walks .reading links here slash' first reached ∧
      files.node? reached.1 = some .directory := by
  have hreading {final slash : Bool} : (final && slash && Purpose.reading == .writing) = false :=
    Bool.and_false _
  -- By the walk over all names. Either the first part ends here, at a directory, or it goes on with
  -- the step that the walk takes.
  generalize hnames : first ++ second = names at h
  induction h generalizing first slash' with
  | done =>
    exact absurd (List.append_eq_nil_iff.1 hnames).2 hsecond
  | @stay _ here _ _ _ _ ih =>
    rcases List.append_eq_cons_iff.1 hnames with ⟨rfl, -⟩ | ⟨first, rfl, hrest⟩
    · exact ⟨(here, slash'), .done, hhere⟩
    · obtain ⟨reached, hwalks, hreached⟩ := ih hhere slash' hrest.symm
      exact ⟨reached, .stay hwalks, hreached⟩
  | @up _ here _ _ _ _ ih =>
    rcases List.append_eq_cons_iff.1 hnames with ⟨rfl, -⟩ | ⟨first, rfl, hrest⟩
    · exact ⟨(here, slash'), .done, hhere⟩
    · obtain ⟨reached, hwalks, hreached⟩ := ih (htree.parent _ hhere) slash' hrest.symm
      exact ⟨reached, .up hwalks, hreached⟩
  | @enter _ here _ _ _ _ named _ directory _ ih =>
    rcases List.append_eq_cons_iff.1 hnames with ⟨rfl, -⟩ | ⟨first, rfl, hrest⟩
    · exact ⟨(here, slash'), .done, hhere⟩
    · obtain ⟨reached, hwalks, hreached⟩ := ih directory slash' hrest.symm
      exact ⟨reached, .enter named hreading directory hwalks, hreached⟩
  | @last _ here _ _ _ _ _ =>
    rcases List.append_eq_cons_iff.1 hnames with ⟨rfl, -⟩ | ⟨first, rfl, hrest⟩
    · exact ⟨(here, slash'), .done, hhere⟩
    · exact absurd (List.append_eq_nil_iff.1 hrest.symm).2 hsecond
  | @follow _ here _ _ target _ _ named _ link _ ih =>
    rcases List.append_eq_cons_iff.1 hnames with ⟨rfl, -⟩ | ⟨first, rfl, hrest⟩
    · exact ⟨(here, slash'), .done, hhere⟩
    · have hnext : files.node? (if Path.isAbsolute target then FileSystem.root else here) =
          some .directory := by
        split
        · exact htree.root
        · exact hhere
      obtain ⟨reached, hwalks, hreached⟩ := ih hnext
        (slash' || (first.isEmpty && Path.endsInSlash target)) (by rw [hrest, List.append_assoc])
      exact ⟨reached, .follow named hreading link hwalks, hreached⟩

/-! ## Files by their paths -/

variable {path : String} {bytes : List UInt8} {after : FileSystem}

/-- What a path must be to lead somewhere. -/
theorem locate_eq_ok_iff :
    files.locate purpose path = .ok result ↔
      path ≠ "" ∧ '\x00' ∉ path.toList ∧ path.utf8ByteSize < pathLimit ∧
        files.Walks purpose linkLimit (origin path) (Path.endsInSlash path) (Path.steps path)
          result := by
  unfold locate
  rw [← walk_eq_ok_iff, String.contains_char_eq]
  constructor
  · intro h
    split at h
    · cases h
    next hempty =>
    split at h
    · cases h
    next hnull =>
    split at h
    · cases h
    next hlong =>
    refine ⟨fun heq => hempty (String.isEmpty_iff.2 heq), ?_, Nat.lt_of_not_le hlong, h⟩
    exact fun hmem => hnull (decide_eq_true hmem)
  · rintro ⟨hempty, hnull, hlong, h⟩
    rw [if_neg fun heq => hempty (String.isEmpty_iff.1 heq),
      if_neg fun hmem => hnull (of_decide_eq_true hmem), if_neg (Nat.not_le.2 hlong), h]

/-- A path is taken for that of a directory if it leads to one. -/
theorem checkDirectory_eq_ok_iff :
    files.checkDirectory path = .ok () ↔
      ∃ result, files.locate .reading path = .ok result ∧
        files.node? result.1 = some .directory := by
  unfold checkDirectory look find
  cases hlocate : files.locate .reading path with
  | error error => simp [Except.map, bind, Except.bind]
  | ok result =>
    obtain ⟨place, slash⟩ := result
    cases hnode : files.node? place with
    | none => simp [Except.map, bind, Except.bind, hnode]
    | some node =>
      cases node <;> cases slash <;> simp [Except.map, bind, Except.bind, pure, Except.pure, hnode]

/-- The empty path is not that of a directory. -/
theorem ne_empty_of_checkDirectory (h : files.checkDirectory path = .ok ()) : path ≠ "" := by
  obtain ⟨_, hlocate, _⟩ := checkDirectory_eq_ok_iff.1 h
  exact (locate_eq_ok_iff.1 hlocate).1

/-- Whether what is written to the path is dropped. -/
def Drops (files : FileSystem) (path : String) : Prop :=
  ∃ slash, files.locate .writing path = .ok (nullDevice, slash)

/-- Writing puts the bytes where the path leads, unless that is the null device. -/
theorem writeBytes_cases (h : files.writeBytes path bytes = .ok after) (hkept : ¬files.Drops path) :
    ∃ place slash executable, files.locate .writing path = .ok (place, slash) ∧
      IsEnd (files.node? place) ∧ after = files.put place (.file bytes executable) := by
  unfold writeBytes at h
  cases hlocate : files.locate .writing path with
  | error error => rw [hlocate] at h; cases h
  | ok result =>
    obtain ⟨place, slash⟩ := result
    have hdevice : place ≠ nullDevice := by
      rintro rfl
      exact hkept ⟨slash, hlocate⟩
    rw [hlocate] at h
    dsimp only [bind, Except.bind] at h
    cases hnode : files.node? place with
    | none =>
      rw [hnode] at h
      cases h
      exact ⟨place, slash, false, rfl, by rw [hnode]; trivial, rfl⟩
    | some node =>
      rw [hnode] at h
      cases node with
      | file old executable =>
        dsimp only at h
        rw [if_neg hdevice] at h
        cases h
        exact ⟨place, slash, executable, rfl, by rw [hnode]; trivial, rfl⟩
      | directory => cases h
      | link => cases h

/-- No file is written where a slash follows the last name. -/
theorem slash_eq_false_of_isEnd (htree : files.IsTree)
    (hlocate : files.locate .writing path = .ok result) (hend : IsEnd (files.node? result.1)) :
    result.2 = false := by
  obtain ⟨-, -, -, hwalks⟩ := locate_eq_ok_iff.1 hlocate
  rw [← Bool.not_eq_true]
  intro hslash
  rw [hwalks.directory_of_slash htree (htree.origin path) hslash] at hend
  exact hend

/-- **What was written to a path is found there.** -/
theorem find_of_writeBytes (htree : files.IsTree) (h : files.writeBytes path bytes = .ok after)
    (hkept : ¬files.Drops path) :
    ∃ place executable, after.find path = .ok (place, .file bytes executable) := by
  obtain ⟨place, slash, executable, hlocate, hend, rfl⟩ := writeBytes_cases h hkept
  have hslash : slash = false := slash_eq_false_of_isEnd htree hlocate hend
  obtain ⟨hempty, hnull, hlong, hwalks⟩ := locate_eq_ok_iff.1 hlocate
  have hagain : (files.put place (.file bytes executable)).locate .reading path =
      .ok (place, slash) :=
    locate_eq_ok_iff.2 ⟨hempty, hnull, hlong, hwalks.put hend⟩
  refine ⟨place, executable, ?_⟩
  unfold find
  rw [hagain, hslash]
  simp only [bind, Except.bind, node?_put, if_true]
  rfl

/-- Directories are still there after a file was written. -/
theorem checkDirectory_of_writeBytes (h : files.writeBytes path bytes = .ok after)
    (hkept : ¬files.Drops path) {directory : String}
    (hdirectory : files.checkDirectory directory = .ok ()) :
    after.checkDirectory directory = .ok () := by
  obtain ⟨place, slash, executable, -, hend, rfl⟩ := writeBytes_cases h hkept
  obtain ⟨result, hlocate, hnode⟩ := checkDirectory_eq_ok_iff.1 hdirectory
  obtain ⟨hempty, hnull, hlong, hwalks⟩ := locate_eq_ok_iff.1 hlocate
  refine checkDirectory_eq_ok_iff.2
    ⟨result, locate_eq_ok_iff.2 ⟨hempty, hnull, hlong, hwalks.put hend⟩, ?_⟩
  rw [node?_put, if_neg, hnode]
  rintro rfl
  rw [hnode] at hend
  exact hend

/-- If a file could be written under a relative name in a directory, the directory is one. -/
theorem checkDirectory_of_join (htree : files.IsTree) {directory name : String}
    (hdirectory : directory ≠ "") (hname : Path.isAbsolute name = false)
    (h : files.writeBytes (Path.join directory name) bytes = .ok after)
    (hkept : ¬files.Drops (Path.join directory name)) :
    files.checkDirectory directory = .ok () := by
  obtain ⟨place, slash, executable, hlocate, hend, -⟩ := writeBytes_cases h hkept
  have hslash : slash = false := slash_eq_false_of_isEnd htree hlocate hend
  obtain ⟨hempty, hnull, hlong, hwalks⟩ := locate_eq_ok_iff.1 hlocate
  have hne : name ≠ "" := by
    -- With an empty name, the path would end in a slash.
    rintro rfl
    obtain ⟨front, hjoin, -⟩ := Path.toList_join hname hdirectory
    rw [(Path.endsInSlash_iff _).2 ⟨front, hjoin⟩] at hwalks
    have htrue := hwalks.ends_in_slash
    rw [hslash] at htrue
    cases htrue
  rw [Path.steps_join hname hdirectory] at hwalks
  obtain ⟨reached, hreached, hnode⟩ := hwalks.front htree (Path.steps_ne_nil hname hne)
    (htree.origin _) (Path.endsInSlash directory)
  have horigin : origin (Path.join directory name) = origin directory := by
    unfold origin
    rw [Path.isAbsolute_join hname hdirectory]
  rw [horigin] at hreached
  refine checkDirectory_eq_ok_iff.2 ⟨reached, locate_eq_ok_iff.2 ⟨hdirectory, ?_, ?_, hreached⟩,
    hnode⟩
  · exact fun hmem => hnull (Path.subset_join hname hdirectory hmem)
  · exact Nat.lt_of_le_of_lt (Path.utf8ByteSize_le_join hname) hlong

end FileSystem

end Emend
