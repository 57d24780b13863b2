import Emend.Storage.FileSystem

/-!
# The path of a name in a directory

A relative name is written behind its directory with a slash between them (`toList_join`), so the
steps of its path are those of the directory and then its own, and the path leads from where that of
the directory does.
-/

namespace Emend

namespace Path

variable {directory name : String}

/-- An absolute path begins with a slash. -/
theorem isAbsolute_iff (path : String) : isAbsolute path = true ↔ path.toList.head? = some '/' := by
  unfold isAbsolute
  rw [String.startsWith_string_iff, show "/".toList = ['/'] from rfl]
  cases path.toList with
  | nil => simp
  | cons c chars => simp [eq_comm]

/-- Whether a path ends in a slash can be seen from its characters. -/
theorem endsInSlash_iff (path : String) :
    endsInSlash path = true ↔ ∃ front, path.toList = front ++ ['/'] := by
  unfold endsInSlash String.endsWith
  rw [String.Slice.endsWith_string_iff, String.copy_toSlice, show "/".toList = ['/'] from rfl]
  exact exists_congr fun front => eq_comm

/-- Slashes separate steps. -/
theorem steps_of_append {path : String} {front back : List Char}
    (h : path.toList = front ++ '/' :: back) :
    steps path = steps (String.ofList front) ++ steps (String.ofList back) := by
  unfold steps
  rw [h, List.splitOn_append_cons_self, List.map_append, List.filter_append, String.toList_ofList,
    String.toList_ofList]

/-- A relative name is written behind its directory, with one slash between them. -/
theorem toList_join (hname : isAbsolute name = false) (hdirectory : directory ≠ "") :
    ∃ front, (join directory name).toList = front ++ '/' :: name.toList ∧
      (directory.toList = front ∨ directory.toList = front ++ ['/']) := by
  have hsome : directory.isEmpty = false := by
    rw [Bool.eq_false_iff]
    exact fun h => hdirectory (String.isEmpty_iff.1 h)
  unfold join
  rw [hname, if_neg Bool.false_ne_true, hsome, Bool.false_or]
  split
  · next hslash =>
    obtain ⟨front, hfront⟩ := (endsInSlash_iff directory).1 hslash
    refine ⟨front, ?_, .inr hfront⟩
    rw [String.toList_append, hfront, List.append_assoc]
    rfl
  · refine ⟨directory.toList, ?_, .inl rfl⟩
    rw [String.toList_append, String.toList_append, List.append_assoc]
    rfl

/-- Joined paths are walked one after the other. -/
theorem steps_join (hname : isAbsolute name = false) (hdirectory : directory ≠ "") :
    steps (join directory name) = steps directory ++ steps name := by
  obtain ⟨front, hjoin, hfront⟩ := toList_join hname hdirectory
  rw [steps_of_append hjoin, String.ofList_toList]
  rcases hfront with hfront | hfront
  · rw [← hfront, String.ofList_toList]
  · rw [steps_of_append hfront]
    simp [steps]

/-- A joined path is absolute if its directory is. -/
theorem isAbsolute_join (hname : isAbsolute name = false) (hdirectory : directory ≠ "") :
    isAbsolute (join directory name) = isAbsolute directory := by
  obtain ⟨front, hjoin, hfront⟩ := toList_join hname hdirectory
  rw [Bool.eq_iff_iff, isAbsolute_iff, isAbsolute_iff, hjoin]
  rcases hfront with hfront | hfront
  · cases front with
    | nil => exact absurd (String.toList_eq_nil_iff.1 hfront) hdirectory
    | cons c front => rw [hfront]; rfl
  · rw [hfront]
    cases front <;> rfl

/-- The characters of the directory are among those of a joined path. -/
theorem subset_join (hname : isAbsolute name = false) (hdirectory : directory ≠ "") :
    directory.toList ⊆ (join directory name).toList := by
  obtain ⟨front, hjoin, hfront⟩ := toList_join hname hdirectory
  rw [hjoin]
  rcases hfront with hfront | hfront
  · rw [hfront]
    exact List.subset_append_left _ _
  · rw [hfront]
    simp

/-- A joined path is no shorter than its directory. -/
theorem utf8ByteSize_le_join (hname : isAbsolute name = false) :
    directory.utf8ByteSize ≤ (join directory name).utf8ByteSize := by
  unfold join
  rw [hname, if_neg Bool.false_ne_true]
  split
  · rw [String.utf8ByteSize_append]
    omega
  · rw [String.utf8ByteSize_append, String.utf8ByteSize_append]
    omega

/-- A relative name that is not empty leads somewhere. -/
theorem steps_ne_nil (hname : isAbsolute name = false) (hne : name ≠ "") : steps name ≠ [] := by
  unfold steps
  cases hchars : name.toList with
  | nil => exact absurd (String.toList_eq_nil_iff.1 hchars) hne
  | cons c chars =>
    have hc : c ≠ '/' := by
      rintro rfl
      have habsolute := (isAbsolute_iff name).2 (by rw [hchars]; rfl)
      rw [hname] at habsolute
      cases habsolute
    rw [List.splitOn_cons_eq_if_modifyHead, if_neg (by simp [hc])]
    cases hsplit : chars.splitOn '/' with
    | nil => exact absurd hsplit (List.splitOn_ne_nil _ _)
    | cons first others => simp

end Path

end Emend
