import ExtensionPlan.Proofs.Library
import ExtensionPlan.Proofs.Path.Descent

/-!
# ExtensionPlan.Proofs.Library.Preference

**Which file of a library is found.** A directory is searched for shared objects without a version,
then for archives, and only then for shared objects with a version (`World.findLibraryIn_eq`). So an
archive is never found in place of a shared object without a version, but it is found in place of
one that has a version. Shared objects are preferred exactly where those two do not come together
in the directory that is decisive (`World.prefersShared_iff`).
-/

namespace ExtensionPlan

/-! ### Names by kind -/

/-- The file names of the shared objects of a library that have no version. -/
def sharedFileNames (name : List Char) : List (List Char) :=
  ["lib".toList ++ name ++ ".so".toList, "lib".toList ++ name ++ ".dylib".toList]

/-- The file names of the archives of a library. -/
def archiveFileNames (name : List Char) : List (List Char) :=
  [name ++ ".lib".toList, "lib".toList ++ name ++ ".a".toList, staticFileName name]

/-- A shared object with a version. -/
def versionedFileName (name version : List Char) : List Char :=
  "lib".toList ++ name ++ ".so.".toList ++ version

/-- A shared object of the library may have a file of this name. -/
def IsSharedFileName (name file : List Char) : Prop :=
  file ∈ sharedFileNames name ∨ ∃ version, '/' ∉ version ∧ file = versionedFileName name version

theorem libraryFileNames_eq (name : List Char) :
    libraryFileNames name = sharedFileNames name ++ archiveFileNames name := rfl

/-- No archive is named as a shared object is, since the endings differ in length. -/
theorem not_mem_sharedFileNames {name archive : List Char} (h : archive ∈ archiveFileNames name) :
    archive ∉ sharedFileNames name := by
  intro hshared
  simp only [archiveFileNames, sharedFileNames, staticFileName, List.mem_cons, List.not_mem_nil,
    or_false] at h hshared
  rcases h with rfl | rfl | rfl
  all_goals
    rcases hshared with heq | heq
    all_goals
      have hlength := congrArg List.length heq
      simp at hlength

theorem not_prefix_of_versioned {name archive : List Char} (h : archive ∈ archiveFileNames name) :
    ¬ "lib".toList ++ name ++ ".so.".toList <+: archive := by
  intro hprefix
  have hlength := hprefix.length_le
  simp only [archiveFileNames, List.mem_cons, List.not_mem_nil, or_false] at h
  rcases h with rfl | rfl | rfl
  · simp at hlength
  · simp at hlength
  · rw [staticFileName, List.prefix_append_right_inj] at hprefix
    exact absurd hprefix (by decide)

theorem isName_of_mem_sharedFileNames {name file : List Char} (whole : '/' ∉ name)
    (h : file ∈ sharedFileNames name) : IsName file :=
  World.isName_of_mem_libraryFileNames whole (List.mem_append_left (archiveFileNames name) h)

theorem isName_of_mem_archiveFileNames {name file : List Char} (whole : '/' ∉ name)
    (h : file ∈ archiveFileNames name) : IsName file :=
  World.isName_of_mem_libraryFileNames whole (List.mem_append_right (sharedFileNames name) h)

theorem IsSharedFileName.whole {name file : List Char} (h : IsSharedFileName name file)
    (hname : '/' ∉ name) : '/' ∉ file := by
  rcases h with hfixed | ⟨version, hversion, rfl⟩
  · exact (isName_of_mem_sharedFileNames hname hfixed).whole
  · simp [versionedFileName, hname, hversion]

namespace World

variable {w : World} {name : List Char} {directory : Path}

/-! ### One directory -/

/-- The first of these names that a regular file in the directory has. -/
def firstFile (w : World) (directory : Path) (names : List (List Char)) : Option Path :=
  (names.map fun file => directory.join ⟨file⟩).find? w.isFile

theorem findLibraryIn_eq_or (w : World) (name : List Char) (directory : Path) :
    w.findLibraryIn name directory =
      (w.firstFile directory (libraryFileNames name)).or (w.findVersioned name directory) := by
  rw [findLibraryIn, Option.orElse_eq_orElse, Option.orElse_eq_or]
  rfl

/-- Shared objects without a version come first and those with a version last. -/
theorem findLibraryIn_eq (w : World) (name : List Char) (directory : Path) :
    w.findLibraryIn name directory =
      (w.firstFile directory (sharedFileNames name) <|>
        (w.firstFile directory (archiveFileNames name) <|> w.findVersioned name directory)) := by
  unfold findLibraryIn firstFile
  rw [libraryFileNames_eq, List.map_append, List.find?_append]
  simp only [Option.orElse_eq_orElse, Option.orElse_eq_or, Option.or_assoc]

theorem firstFile_eq_none_iff {names : List (List Char)} :
    w.firstFile directory names = none ↔
      ∀ file ∈ names, w.isFile (directory.join ⟨file⟩) = false := by
  simp [firstFile]

theorem exists_of_firstFile {names : List (List Char)} {p : Path}
    (h : w.firstFile directory names = some p) :
    ∃ file ∈ names, p = directory.join ⟨file⟩ ∧ w.isFile p = true := by
  obtain ⟨file, hfile, rfl⟩ := List.mem_map.1 (List.mem_of_find?_eq_some h)
  exact ⟨file, hfile, rfl, List.find?_some h⟩

/-- A directory with an archive and without shared objects that have no version answers with the
archive, whatever else is in it. -/
theorem findLibraryIn_of_archive {p : Path}
    (hshared : w.firstFile directory (sharedFileNames name) = none)
    (harchive : w.firstFile directory (archiveFileNames name) = some p) :
    w.findLibraryIn name directory = some p := by
  rw [findLibraryIn_eq, hshared, harchive]
  rfl

/-- **Where archives come from.** If the answer of a directory is named as an archive is, then it is
the answer of the archives, and there is no shared object without a version. -/
theorem firstFile_of_findLibraryIn {archive : List Char} {p : Path} (whole : '/' ∉ name)
    (literal : ∀ c ∈ name, Glob.isMeta c = false) (harchive : archive ∈ archiveFileNames name)
    (hp : p.fileName? = some archive) (h : w.findLibraryIn name directory = some p) :
    w.firstFile directory (sharedFileNames name) = none ∧
      w.firstFile directory (archiveFileNames name) = some p := by
  rw [findLibraryIn_eq] at h
  cases hshared : w.firstFile directory (sharedFileNames name) with
  | some q =>
      rw [hshared] at h
      cases h
      obtain ⟨file, hfile, rfl, -⟩ := exists_of_firstFile hshared
      rw [Path.fileName?_join directory (isName_of_mem_sharedFileNames whole hfile)] at hp
      cases hp
      exact absurd hfile (not_mem_sharedFileNames harchive)
  | none =>
      rw [hshared] at h
      cases hfirst : w.firstFile directory (archiveFileNames name) with
      | some q =>
          rw [hfirst] at h
          exact ⟨rfl, h⟩
      | none =>
          rw [hfirst] at h
          obtain ⟨file, -, rfl, hprefix⟩ := exists_entry_of_findVersioned whole literal h
          have hfile : (entryPath (searched directory) file.path).fileName? = some file.chars :=
            fileName?_entryPath _ file.isName
          rw [hfile] at hp
          cases hp
          exact absurd hprefix (not_prefix_of_versioned harchive)

/-! ### A list of directories -/

/-- Shared objects are preferred over archives: in a directory whose archive is found there is no
shared object, with or without a version. -/
def PrefersShared (w : World) (name : String) (directories : List Path) : Prop :=
  ∀ directory ∈ directories, ∀ archive ∈ archiveFileNames name.toList,
    w.findLibrary name directories = .ok (directory.join ⟨archive⟩) →
      ∀ file, IsSharedFileName name.toList file → w.isFile (directory.join ⟨file⟩) = false

/-- An archive and a versioned shared object come together in a directory that has no shared object
without a version. -/
def Mixes (w : World) (name : List Char) (directory : Path) : Prop :=
  w.firstFile directory (sharedFileNames name) = none ∧
    w.firstFile directory (archiveFileNames name) ≠ none ∧
    ∃ version, '/' ∉ version ∧ w.isFile (directory.join ⟨versionedFileName name version⟩) = true

theorem findLibrary_eq_ok_iff {name : String} {directories : List Path} {p : Path} :
    w.findLibrary name directories = .ok p ↔
      directories.findSome? (w.findLibraryIn name.toList) = some p := by
  unfold findLibrary
  cases directories.findSome? (w.findLibraryIn name.toList) <;> simp

theorem toOption_findLibrary (w : World) (name : String) (directories : List Path) :
    (w.findLibrary name directories).toOption =
      directories.findSome? (w.findLibraryIn name.toList) := by
  unfold findLibrary
  cases directories.findSome? (w.findLibraryIn name.toList) <;> rfl

/-- **The first directory that answers decides**: whatever is found for a library is its answer. -/
theorem forall_findLibrary_iff {name : String} {directories : List Path} {P : Path → Prop} :
    (∀ p, w.findLibrary name directories = .ok p → P p) ↔
      ∀ before directory after, directories = before ++ directory :: after →
        (∀ earlier ∈ before, w.findLibraryIn name.toList earlier = none) →
          ∀ p, w.findLibraryIn name.toList directory = some p → P p := by
  simp only [findLibrary_eq_ok_iff, List.findSome?_eq_some_iff]
  constructor
  · intro h before directory after heq hbefore p hp
    exact h p ⟨before, directory, after, heq, hp, hbefore⟩
  · rintro h p ⟨before, directory, after, heq, hp, hbefore⟩
    exact h before directory after heq hbefore p hp

/-- **When shared objects are preferred.** They are, exactly if the first of the directories that
has the library at all is not one in which an archive and a versioned shared object come together
without a shared object that has no version. -/
theorem prefersShared_iff {name : String} {directories : List Path}
    (whole : '/' ∉ name.toList) (literal : ∀ c ∈ name.toList, Glob.isMeta c = false) :
    w.PrefersShared name directories ↔
      ∀ before directory after, directories = before ++ directory :: after →
        (∀ earlier ∈ before, w.findLibraryIn name.toList earlier = none) →
          ¬ w.Mixes name.toList directory := by
  constructor
  · intro hprefers before directory after heq hbefore hmixes
    subst heq
    obtain ⟨hshared, harchives, version, hversion, hfile⟩ := hmixes
    obtain ⟨p, hp⟩ := Option.ne_none_iff_exists'.1 harchives
    have hfound : w.findLibrary name (before ++ directory :: after) = .ok p := by
      refine findLibrary_eq_ok_iff.2 (List.findSome?_eq_some_iff.2 ?_)
      exact ⟨before, directory, after, rfl, findLibraryIn_of_archive hshared hp, hbefore⟩
    obtain ⟨archive, harchive, rfl, -⟩ := exists_of_firstFile hp
    have hnone := hprefers directory (by simp) archive harchive hfound
      (versionedFileName name.toList version) (.inr ⟨version, hversion, rfl⟩)
    rw [hfile] at hnone
    cases hnone
  · intro hmixes directory _ archive harchive hfound file hfile
    obtain ⟨before, decisive, after, rfl, hin, hbefore⟩ :=
      List.findSome?_eq_some_iff.1 (findLibrary_eq_ok_iff.1 hfound)
    have hname := isName_of_mem_archiveFileNames whole harchive
    have hp := Path.fileName?_join directory hname
    obtain ⟨hshared, hfirst⟩ := firstFile_of_findLibraryIn whole literal harchive hp hin
    obtain ⟨archive', harchive', heq, -⟩ := exists_of_firstFile hfirst
    have hname' := isName_of_mem_archiveFileNames whole harchive'
    rw [heq, Path.fileName?_join decisive hname'] at hp
    cases hp
    rw [Path.join_eq_join hname.whole heq (hfile.whole whole)]
    rcases hfile with hfile | ⟨version, hversion, rfl⟩
    · exact firstFile_eq_none_iff.1 hshared file hfile
    · rw [← Bool.not_eq_true]
      intro hregular
      refine hmixes before decisive after rfl hbefore ⟨hshared, ?_, version, hversion, hregular⟩
      rw [hfirst]
      exact Option.some_ne_none _

end World

/-! ### An archive next to a versioned shared object -/

namespace Sample

/-- A directory with an archive of a library and with a versioned shared object of it. -/
def mixedTree : Tree where
  children :=
    [(⟨"d".toList, by rfl⟩, .directory [
      (⟨"libfoo.a".toList, by rfl⟩, .file ⟨[], false, none⟩),
      (⟨"libfoo.so.12".toList, by rfl⟩, .file ⟨[], false, none⟩)])]
  proper := by rfl

/-- The directory with nothing else around. -/
def mixedWorld : World := .ofTree mixedTree []

/-- The archive is found although there is a shared object. -/
theorem not_prefersShared : ¬ mixedWorld.PrefersShared "foo" ["/d"] := by
  intro hprefers
  have hnone := hprefers "/d" (by simp) "libfoo.a".toList (by decide) (by decide +kernel)
    "libfoo.so.12".toList (.inr ⟨"12".toList, by decide, by decide⟩)
  have hfile : mixedWorld.isFile (Path.join "/d" ⟨"libfoo.so.12".toList⟩) = true := by
    decide +kernel
  rw [hfile] at hnone
  cases hnone

/-- The directory is one in which shared objects are not preferred. -/
theorem prefersShared_iff_mixed : '/' ∉ "foo".toList ∧
    (∀ c ∈ "foo".toList, Glob.isMeta c = false) ∧
    (mixedWorld.PrefersShared "foo" ["/d"] ↔
      ∀ before directory after, (["/d"] : List Path) = before ++ directory :: after →
        (∀ earlier ∈ before, mixedWorld.findLibraryIn "foo".toList earlier = none) →
          ¬ mixedWorld.Mixes "foo".toList directory) := by
  have literal : ∀ c ∈ "foo".toList, Glob.isMeta c = false := by
    have hall : ("foo".toList.all fun c => !Glob.isMeta c) = true := by decide
    intro c hc
    simpa using List.all_eq_true.1 hall c hc
  exact ⟨by decide, literal, World.prefersShared_iff (by decide) literal⟩

end Sample

end ExtensionPlan
