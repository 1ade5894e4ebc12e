import ClosureTypes.LibraryPath

/-!
# The language of library paths

A path is a directory and a file name. The directory is empty or ends in a separator of either
kind, and there is no separator in the name. Whether a path leads to a file of the language's own
library is settled by the name: this is `lib.d.ts`, or `lib.`, some part and `.d.ts`. In `lib.d.ts`
the dot before `d` belongs both to the beginning and to the ending, so there is no part at all,
which is not the same as an empty one.

1. `exists_directory`: each path is a directory and a file name.
2. `isLibraryFile_iff`, `isLibraryPath_iff_name`: the names of library files.
3. `isLibraryPath_iff`: the paths of library files.
-/

namespace ClosureTypes

/-! ## Directories and file names -/

/-- The text can stand before a file name: it is empty or ends in a separator. -/
def IsDirectory (directory : String) : Prop :=
  directory = "" ∨ ∃ front, directory = front ++ "/" ∨ directory = front ++ "\\"

/-- The text can stand behind a directory: there is no separator in it. -/
def IsFileName (name : String) : Prop := '/' ∉ name.toList ∧ '\\' ∉ name.toList

theorem isPathSeparator_iff {c : Char} : isPathSeparator c = true ↔ c = '/' ∨ c = '\\' := by
  simp [isPathSeparator]

theorem isFileName_iff {name : String} :
    IsFileName name ↔ ∀ c ∈ name.toList, isPathSeparator c = false := by
  constructor
  · rintro ⟨hslash, hbackslash⟩ c hc
    rw [← Bool.not_eq_true, isPathSeparator_iff]
    rintro (rfl | rfl)
    · exact hslash hc
    · exact hbackslash hc
  · intro h
    exact ⟨fun hc => absurd (h _ hc) (by decide), fun hc => absurd (h _ hc) (by decide)⟩

theorem IsFileName.append {a b : String} (ha : IsFileName a) (hb : IsFileName b) :
    IsFileName (a ++ b) := by
  simp only [IsFileName, String.toList_append, List.mem_append, not_or]
  exact ⟨⟨ha.1, hb.1⟩, ⟨ha.2, hb.2⟩⟩

theorem IsFileName.fileName_eq {name : String} (h : IsFileName name) :
    fileName name.toList = name.toList := by
  have hparts : ∀ c ∈ name.toList.reverse, (!isPathSeparator c) = true := by
    intro c hc
    rw [isFileName_iff.1 h c (List.mem_reverse.1 hc), Bool.not_false]
  rw [fileName, ← List.append_nil name.toList.reverse, List.takeWhile_append_of_pos hparts,
    List.takeWhile_nil, List.append_nil, List.reverse_reverse]

theorem IsDirectory.fileName_append {directory : String} (h : IsDirectory directory)
    (path : String) : fileName (directory ++ path).toList = fileName path.toList := by
  have hsplit (front : String) {c : Char} (hc : isPathSeparator c = true) :
      fileName (front ++ String.singleton c ++ path).toList = fileName path.toList := by
    rw [String.toList_append, String.toList_append, String.toList_singleton, List.append_assoc]
    exact ClosureTypes.fileName_append _ _ hc
  rcases h with rfl | ⟨front, rfl | rfl⟩
  · rw [String.empty_append]
  · exact hsplit front (c := '/') rfl
  · exact hsplit front (c := '\\') rfl

theorem isDirectory_ofList (front : List Char) {c : Char} (hc : isPathSeparator c = true) :
    IsDirectory (String.ofList (front ++ [c])) := by
  refine .inr ⟨String.ofList front, ?_⟩
  rw [String.ofList_append]
  rcases isPathSeparator_iff.1 hc with rfl | rfl
  · exact .inl rfl
  · exact .inr rfl

/-- Behind the last of its separators a path has none. -/
theorem eq_or_exists_separator (path : List Char) : (∀ c ∈ path, isPathSeparator c = false) ∨
    ∃ front c name, isPathSeparator c = true ∧ (∀ c ∈ name, isPathSeparator c = false) ∧
      path = front ++ [c] ++ name := by
  induction path with
  | nil => exact .inl fun c hc => nomatch hc
  | cons c path ih =>
    rcases ih with hname | ⟨front, d, name, hd, hname, rfl⟩
    · cases hc : isPathSeparator c with
      | true => exact .inr ⟨[], c, path, hc, hname, rfl⟩
      | false => exact .inl (List.forall_mem_cons.2 ⟨hc, hname⟩)
    · exact .inr ⟨c :: front, d, name, hd, hname, rfl⟩

/-- Each path is a directory and a file name. -/
theorem exists_directory (path : String) :
    ∃ directory name, IsDirectory directory ∧ IsFileName name ∧ path = directory ++ name := by
  rcases eq_or_exists_separator path.toList with hname | ⟨front, c, name, hc, hname, hpath⟩
  · exact ⟨"", path, .inl rfl, isFileName_iff.2 hname, String.empty_append.symm⟩
  · refine ⟨_, String.ofList name, isDirectory_ofList front hc, ?_, ?_⟩
    · rwa [isFileName_iff, String.toList_ofList]
    · rw [← String.ofList_append, ← hpath, String.ofList_toList]

/-! ## Names of library files -/

/-- The text is the name of a library file. -/
inductive IsLibraryName : String → Prop
  | whole : IsLibraryName "lib.d.ts"
  | part {x : String} (hx : IsFileName x) : IsLibraryName ("lib." ++ x ++ ".d.ts")

/-- The beginning and the ending of a name overlap in the dot of `lib.d.ts` or not at all. -/
theorem isLibraryFile_iff {name : List Char} : isLibraryFile name = true ↔
    name = "lib.d.ts".toList ∨ ∃ x, name = "lib.".toList ++ x ++ ".d.ts".toList := by
  rw [isLibraryFile, Bool.and_eq_true, List.isPrefixOf_iff_prefix, List.isSuffixOf_iff_suffix]
  constructor
  · rintro ⟨⟨rest, rfl⟩, hending⟩
    have hcases : rest = "d.ts".toList ∨ ".d.ts".toList <:+ rest := by
      simpa [List.suffix_cons_iff, eq_comm] using hending
    rcases hcases with rfl | ⟨x, rfl⟩
    · exact .inl rfl
    · exact .inr ⟨x, (List.append_assoc _ _ _).symm⟩
  · rintro (rfl | ⟨x, rfl⟩)
    · decide
    · exact ⟨⟨_, (List.append_assoc _ _ _).symm⟩, List.suffix_append _ _⟩

theorem isLibraryPath_iff_name {name : String} (h : IsFileName name) :
    isLibraryPath name = true ↔ IsLibraryName name := by
  rw [isLibraryPath, h.fileName_eq, isLibraryFile_iff]
  constructor
  · rintro (hwhole | ⟨x, hx⟩)
    · rw [String.toList_inj.1 hwhole]
      exact .whole
    · have hname : name = "lib." ++ String.ofList x ++ ".d.ts" := by
        rw [← String.toList_inj, hx]
        simp
      have hpart : IsFileName (String.ofList x) := by
        refine isFileName_iff.2 fun c hc => isFileName_iff.1 h c ?_
        simp only [hname, String.toList_append, List.mem_append]
        exact .inl (.inr hc)
      rw [hname]
      exact .part hpart
  · intro h
    cases h with
    | whole => exact .inl rfl
    | @part x _ => exact .inr ⟨x.toList, by simp⟩

theorem IsLibraryName.isFileName {name : String} (h : IsLibraryName name) : IsFileName name := by
  have hbeginning : IsFileName "lib." := ⟨by decide, by decide⟩
  have hending : IsFileName ".d.ts" := ⟨by decide, by decide⟩
  cases h with
  | whole => exact ⟨by decide, by decide⟩
  | part hx => exact (hbeginning.append hx).append hending

/-! ## Paths of library files -/

/-- **Library paths.** A path leads to a library file exactly if it is a directory and the name of
such a file. So each path has a file name that alone settles the matter; no directory before it
makes a difference, and a path that ends in a separator does not lead to a library file. -/
theorem isLibraryPath_iff :
    (∀ path, isLibraryPath path = true ↔
      ∃ directory name, IsDirectory directory ∧ IsLibraryName name ∧ path = directory ++ name) ∧
    (∀ path, ∃ directory name, IsDirectory directory ∧ IsFileName name ∧
      path = directory ++ name ∧ isLibraryPath path = isLibraryPath name) ∧
    (∀ directory path, IsDirectory directory →
      isLibraryPath (directory ++ path) = isLibraryPath path) ∧
    ∀ directory, IsDirectory directory → isLibraryPath directory = false := by
  have hdirectory {directory : String} (h : IsDirectory directory) (path : String) :
      isLibraryPath (directory ++ path) = isLibraryPath path := by
    rw [isLibraryPath, isLibraryPath, h.fileName_append]
  refine ⟨fun path => ⟨fun h => ?_, ?_⟩, fun path => ?_, fun _ path h => hdirectory h path,
    fun directory h => ?_⟩
  · obtain ⟨directory, name, hd, hname, rfl⟩ := exists_directory path
    rw [hdirectory hd, isLibraryPath_iff_name hname] at h
    exact ⟨directory, name, hd, h, rfl⟩
  · rintro ⟨directory, name, hd, hname, rfl⟩
    rwa [hdirectory hd, isLibraryPath_iff_name hname.isFileName]
  · obtain ⟨directory, name, hd, hname, rfl⟩ := exists_directory path
    exact ⟨directory, name, hd, hname, rfl, hdirectory hd name⟩
  · have hempty := hdirectory h ""
    rw [String.append_empty] at hempty
    exact hempty

/-- A path with separators of both kinds, a name with an empty part, and a directory that has the
name of a library file. -/
theorem mixedPaths_isLibraryPath :
    isLibraryPath "C:\\ts/lib\\lib.es2015.core.d.ts" = true ∧
      isLibraryPath "ts/lib..d.ts" = isLibraryPath "lib..d.ts" ∧
      isLibraryPath "lib.d.ts/" = false := by
  obtain ⟨hlanguage, -, hprepend, hdirectory⟩ := isLibraryPath_iff
  refine ⟨(hlanguage _).2 ⟨"C:\\ts/lib\\", "lib.es2015.core.d.ts", ?_, ?_, rfl⟩,
    hprepend "ts/" "lib..d.ts" ?_, hdirectory _ ?_⟩
  · exact .inr ⟨"C:\\ts/lib", .inr rfl⟩
  · exact IsLibraryName.part (x := "es2015.core") ⟨by decide, by decide⟩
  · exact .inr ⟨"ts", .inl rfl⟩
  · exact .inr ⟨"lib.d.ts", .inl rfl⟩

end ClosureTypes
