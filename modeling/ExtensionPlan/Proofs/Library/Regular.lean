import ExtensionPlan.Proofs.Library.Preference

/-!
# ExtensionPlan.Proofs.Library.Regular

**Which answers are files.** The fixed names of a library are looked up as regular files. A
versioned shared object is only looked for among the names of a directory, and the first of these
names is the answer whatever stands behind it, a directory or a link to nowhere
(`World.findVersioned_eq_some_iff`). So what is found is a file exactly where the directory that is
decisive has a file of a fixed name, or a file behind the first versioned one
(`World.findsFiles_iff`).
-/

namespace ExtensionPlan

namespace World

variable {w : World} {name : List Char} {directory : Path}

/-! ### One directory -/

/-- No fixed name of the library is that of a file in the directory, and what the search for
versioned shared objects finds there is no file either. -/
def Misleads (w : World) (name : List Char) (directory : Path) : Prop :=
  (∀ file ∈ libraryFileNames name, w.isFile (directory.join ⟨file⟩) = false) ∧
    ∃ p, w.findVersioned name directory = some p ∧ w.isFile p = false

/-- Such directories, and no others, answer with something that is no file. -/
theorem misleads_iff_findLibraryIn :
    w.Misleads name directory ↔
      ∃ p, w.findLibraryIn name directory = some p ∧ w.isFile p = false := by
  rw [Misleads, findLibraryIn_eq_or, ← firstFile_eq_none_iff]
  cases hfixed : w.firstFile directory (libraryFileNames name) with
  | none => simp
  | some q =>
      obtain ⟨file, -, -, hfile⟩ := exists_of_firstFile hfixed
      simp [hfile]

/-- In the directory there is an entry with the name of a versioned shared object. -/
def HasVersion (w : World) (name : List Char) (directory : Path) (file : FileName) : Prop :=
  w.HasEntry directory file ∧ "lib".toList ++ name ++ ".so.".toList <+: file.chars

/-- Of the entries with such names this is the first one. -/
def IsFirstVersion (w : World) (name : List Char) (directory : Path) (file : FileName) : Prop :=
  w.HasVersion name directory file ∧
    ∀ other, w.HasVersion name directory other → nameLe file other = true

/-- For a plain name those are the entries that the pattern matches. -/
theorem hasMatch_iff_hasVersion (literal : ∀ c ∈ name, Glob.isMeta c = false) {file : FileName} :
    w.HasMatch name directory file ↔ w.HasVersion name directory file := by
  rw [HasMatch, matchesVersion_iff_of_literal literal, HasVersion]

/-- **The first name is the answer**, and it is not asked what stands behind it. -/
theorem findVersioned_eq_some_iff (hdirectory : w.isDirectory directory = true) (whole : '/' ∉ name)
    (literal : ∀ c ∈ name, Glob.isMeta c = false) (hsearchable : w.IsSearchable directory)
    {p : Path} :
    w.findVersioned name directory = some p ↔
      ∃ file, w.IsFirstVersion name directory file ∧ p = (searched directory).join file.path := by
  simp only [findVersioned_eq_some_iff_match hdirectory whole hsearchable.isReached, IsFirstMatch,
    hasMatch_iff_hasVersion literal, IsFirstVersion, hsearchable.entryPath_eq]

/-- What the search finds is no file where a versioned name comes first behind which there is
none. -/
theorem misleads_iff (habsolute : directory.isAbsolute = true)
    (hdirectory : w.isDirectory directory = true) (whole : '/' ∉ name)
    (literal : ∀ c ∈ name, Glob.isMeta c = false) :
    w.Misleads name directory ↔
      (∀ file ∈ libraryFileNames name, w.isFile (directory.join ⟨file⟩) = false) ∧
        ∃ file, w.IsFirstVersion name directory file ∧
          w.isFile ((searched directory).join file.path) = false := by
  have hsearchable := isSearchable_of_isAbsolute habsolute hdirectory
  refine and_congr_right fun _ => ?_
  constructor
  · rintro ⟨p, hp, hfile⟩
    obtain ⟨file, hfirst, rfl⟩ :=
      (findVersioned_eq_some_iff hdirectory whole literal hsearchable).1 hp
    exact ⟨file, hfirst, hfile⟩
  · rintro ⟨file, hfirst, hfile⟩
    exact ⟨_, (findVersioned_eq_some_iff hdirectory whole literal hsearchable).2
      ⟨file, hfirst, rfl⟩, hfile⟩

/-! ### A list of directories -/

/-- If a file is found for the library then it is one. -/
def FindsFiles (w : World) (name : String) (directories : List Path) : Prop :=
  ∀ p, w.findLibrary name directories = .ok p → w.isFile p = true

/-- The first directory that answers decides. -/
theorem findsFiles_iff_misleads {name : String} {directories : List Path} :
    w.FindsFiles name directories ↔
      ∀ before directory after, directories = before ++ directory :: after →
        (∀ earlier ∈ before, w.findLibraryIn name.toList earlier = none) →
          ¬ w.Misleads name.toList directory := by
  rw [FindsFiles, forall_findLibrary_iff]
  simp only [misleads_iff_findLibraryIn, not_exists, not_and, Bool.not_eq_false]

/-- **When what is found is a file.** It is, whatever the library and the directories are called,
exactly if the first of the directories that answers at all does not mislead. For a plain name, a
directory seen from the root misleads exactly if it has no file of a fixed name and its first entry
with a versioned name leads to no file. -/
theorem findsFiles_iff (w : World) (name : String) (directories : List Path) :
    (w.FindsFiles name directories ↔
      ∀ before directory after, directories = before ++ directory :: after →
        (∀ earlier ∈ before, w.findLibraryIn name.toList earlier = none) →
          ¬ w.Misleads name.toList directory) ∧
    ('/' ∉ name.toList → (∀ c ∈ name.toList, Glob.isMeta c = false) →
      ∀ directory : Path, directory.isAbsolute = true → w.isDirectory directory = true →
        (w.Misleads name.toList directory ↔
          (∀ file ∈ libraryFileNames name.toList, w.isFile (directory.join ⟨file⟩) = false) ∧
            ∃ file, w.IsFirstVersion name.toList directory file ∧
              w.isFile ((searched directory).join file.path) = false)) :=
  ⟨findsFiles_iff_misleads, fun whole literal _ habsolute hdirectory =>
    misleads_iff habsolute hdirectory whole literal⟩

end World

/-! ### Directories in the place of files -/

namespace Sample

/-- Two places with a directory that is named as a versioned shared object is. In the second one
there is a file with a name that comes before. -/
def hollowTree : Tree where
  children :=
    [(⟨"h".toList, by rfl⟩, .directory [(⟨"libfoo.so.2".toList, by rfl⟩, .directory [])]),
      (⟨"e".toList, by rfl⟩, .directory [
        (⟨"libfoo.so.1".toList, by rfl⟩, .file ⟨[], false, none⟩),
        (⟨"libfoo.so.2".toList, by rfl⟩, .directory [])])]
  proper := by rfl

/-- The places with nothing else around. -/
def hollowWorld : World := .ofTree hollowTree []

/-- The directory is found as a library. -/
theorem not_findsFiles : ¬ hollowWorld.FindsFiles "foo" ["/h"] := by
  intro hfinds
  have hfile := hfinds "/h/libfoo.so.2" (by decide +kernel)
  have hdirectory : hollowWorld.isFile "/h/libfoo.so.2" = false := by decide +kernel
  rw [hdirectory] at hfile
  cases hfile

/-- The second place does not mislead, so it is not asked what the first one would answer. -/
theorem findsFiles_iff_hollow : hollowWorld.FindsFiles "foo" ["/e", "/h"] ∧
    hollowWorld.Misleads "foo".toList "/h" := by
  have hsound := World.findsFiles_iff hollowWorld "foo" ["/e", "/h"]
  have literal : ∀ c ∈ "foo".toList, Glob.isMeta c = false := Glob.literal_of_all (by decide)
  constructor
  · refine hsound.1.2 ?_
    rintro before directory after heq hbefore ⟨-, p, hp, hfile⟩
    cases before with
    | nil =>
        cases heq
        have hfirst : hollowWorld.findVersioned "foo".toList "/e" = some "/e/libfoo.so.1" := by
          decide +kernel
        rw [hfirst] at hp
        cases hp
        have hregular : hollowWorld.isFile "/e/libfoo.so.1" = true := by decide +kernel
        rw [hregular] at hfile
        cases hfile
    | cons first before =>
        obtain rfl := (List.cons.inj heq).1
        have hfound : (hollowWorld.findLibraryIn "foo".toList "/e").isSome = true := by
          decide +kernel
        rw [hbefore "/e" List.mem_cons_self] at hfound
        cases hfound
  · have hplace : hollowWorld.find "/h" =
        .ok (.directory [(⟨"libfoo.so.2".toList, by rfl⟩, .directory [])]) := by rfl
    have hdirectory := World.isDirectory_iff.2 ⟨_, hplace⟩
    refine (hsound.2 (by decide) literal "/h" (by decide) hdirectory).2 ⟨by decide +kernel, ?_⟩
    have hentry : ∀ file, hollowWorld.HasEntry "/h" file ↔
        file = ⟨"libfoo.so.2".toList, by rfl⟩ := by
      intro file
      rw [World.hasEntry_iff, hplace]
      simp
    refine ⟨⟨"libfoo.so.2".toList, by rfl⟩, ⟨⟨(hentry _).2 rfl, by decide⟩, ?_⟩, by decide +kernel⟩
    rintro other ⟨hother, -⟩
    rw [(hentry other).1 hother]
    decide

end Sample

end ExtensionPlan
