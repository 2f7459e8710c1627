import ExtensionPlan.Artifact.Archive
import ExtensionPlan.Proofs.Library.Held

/-!
# ExtensionPlan.Proofs.Library.Literal

**Whether a name is taken literally.** The fixed names of a library are put together from its name
as it is, but versioned shared objects are searched by a pattern that the name is a part of. So with
a character of meaning in its name a library may be found in a file of another one, or not be found
where it is (`World.takesLiterally_iff`). What decides is the first directory that answers: a file
of a fixed name is right, and the first match is right if it begins with the name itself.

A warning that an archive is missing is wrong where the pattern matches something in the directories
and they hold nothing of the name, or the other way round.
-/

namespace ExtensionPlan

/-- The file is named after the library, character for character. -/
def Path.IsNamedAfter (p : Path) (name : List Char) : Prop :=
  ∃ file, p.fileName? = some file ∧ IsLibraryFileName name file

namespace World

variable {w : World} {name : List Char} {directory p : Path}

/-! ### One directory -/

/-- There is a file of a fixed name in the directory. -/
def HoldsFixed (w : World) (name : List Char) (directory : Path) : Prop :=
  ∃ file ∈ libraryFileNames name, w.isFile (directory.join ⟨file⟩) = true

/-- There is none, and what is found of versioned shared objects is not named after the library. -/
def Mistakes (w : World) (name : List Char) (directory : Path) : Prop :=
  ¬ w.HoldsFixed name directory ∧
    ∃ p, w.findVersioned name directory = some p ∧ ¬ p.IsNamedAfter name

theorem firstFile_eq_none_iff_holdsFixed :
    w.firstFile directory (libraryFileNames name) = none ↔ ¬ w.HoldsFixed name directory := by
  rw [firstFile_eq_none_iff]
  simp [HoldsFixed]

/-- Such directories, and no others, answer with a file that is not named after the library. -/
theorem mistakes_iff_findLibraryIn (whole : '/' ∉ name) :
    w.Mistakes name directory ↔
      ∃ p, w.findLibraryIn name directory = some p ∧ ¬ p.IsNamedAfter name := by
  rw [Mistakes, findLibraryIn_eq_or, ← firstFile_eq_none_iff_holdsFixed]
  cases hfixed : w.firstFile directory (libraryFileNames name) with
  | none => simp
  | some q =>
      obtain ⟨file, hfile, rfl, -⟩ := exists_of_firstFile hfixed
      have hnamed : (directory.join ⟨file⟩).IsNamedAfter name := by
        have hname := isName_of_mem_libraryFileNames whole hfile
        exact ⟨file, Path.fileName?_join directory hname, Or.inl hfile⟩
      simp [hnamed]

/-- An entry that is found is one of a directory. -/
theorem isDirectory_of_hasEntry_searched {file : FileName} (hspellable : IsSpellable directory)
    (h : w.HasEntry (searched directory) file) : w.isDirectory directory = true := by
  obtain ⟨children, hchildren, -⟩ := hasEntry_iff.1 h
  have hsame := walk_searched (w := w) hspellable.filled []
  rw [List.append_nil, List.append_nil, (find_eq_ok_iff.1 hchildren).2] at hsame
  exact isDirectory_iff.2 ⟨children, find_eq_ok_iff.2 ⟨hspellable, hsame.symm⟩⟩

section Spellable

variable (hspellable : IsSpellable directory) (whole : '/' ∉ name)

include hspellable whole

/-- Where there is no directory there is neither an answer nor a match. -/
theorem findVersioned_of_not_isDirectory (hdirectory : w.isDirectory directory = false) :
    w.findVersioned name directory = none ∧ ∀ file, ¬ w.HasMatch name directory file := by
  have hnot : ¬ w.isDirectory directory = true := by simp [hdirectory]
  constructor
  · rw [Option.eq_none_iff_forall_ne_some]
    intro p hp
    obtain ⟨file, hentry, -, -⟩ := exists_match_of_findVersioned whole hp
    exact hnot (isDirectory_of_hasEntry_searched hspellable hentry)
  · rintro file ⟨hentry, -⟩
    obtain ⟨children, hchildren, -⟩ := hasEntry_iff.1 hentry
    exact hnot (isDirectory_iff.2 ⟨children, hchildren⟩)

/-- **The answer of a directory** is its first match, if it is spelled so that a search gets there. -/
theorem findVersioned_eq_some_iff_of_isSpellable :
    w.findVersioned name directory = some p ↔
      (directory.isAbsolute = true ∨ directory.IsTidy) ∧
        ∃ file, w.IsFirstMatch name directory file ∧
          p = entryPath (searched directory) file.path := by
  by_cases hfound : directory.isAbsolute = true ∨ directory.IsTidy
  · cases hdirectory : w.isDirectory directory with
    | true =>
        rw [findVersioned_eq_some_iff_match hdirectory whole
          (isReached_of_isAbsolute_or_isTidy hfound hdirectory)]
        exact (and_iff_right hfound).symm
    | false =>
        obtain ⟨hnone, hmatch⟩ := findVersioned_of_not_isDirectory hspellable whole hdirectory
        rw [hnone]
        simp [IsFirstMatch, hmatch]
  · rw [not_or, Bool.not_eq_true] at hfound
    rw [findVersioned_of_not_isTidy hspellable.filled whole hfound.1 hfound.2]
    simp [hfound.1, hfound.2]

/-- There is an answer if there is a match and a search gets there. -/
theorem findVersioned_ne_none_iff_of_isSpellable :
    w.findVersioned name directory ≠ none ↔
      (directory.isAbsolute = true ∨ directory.IsTidy) ∧
        ∃ file, w.HasMatch name directory file := by
  by_cases hfound : directory.isAbsolute = true ∨ directory.IsTidy
  · cases hdirectory : w.isDirectory directory with
    | true =>
        rw [ne_eq, findVersioned_eq_none_iff_match hdirectory whole
          (isReached_of_isAbsolute_or_isTidy hfound hdirectory)]
        simp [hfound]
    | false =>
        obtain ⟨hnone, hmatch⟩ := findVersioned_of_not_isDirectory hspellable whole hdirectory
        simp [hnone, hmatch]
  · rw [not_or, Bool.not_eq_true] at hfound
    rw [findVersioned_of_not_isTidy hspellable.filled whole hfound.1 hfound.2]
    simp [hfound.1, hfound.2]

end Spellable

/-! ### A list of directories -/

/-- If a file is found for the library, it is named after it. -/
def TakesLiterally (w : World) (name : String) (directories : List Path) : Prop :=
  ∀ p, w.findLibrary name directories = .ok p → p.IsNamedAfter name.toList

/-- Linking the archive warns of its absence exactly if none of its directories holds it. -/
def WarnsRightly (w : World) (a : Artifact) (archive : KernelArchive) : Prop :=
  "ahead-of-time kernel archive not found yet" ∈ (a.linkArchive .enabled archive w).warnings ↔
    ∀ directory ∈ archive.libDirs, ¬ w.Holds archive.name.toList directory

theorem takesLiterally_iff_mistakes {name : String} {directories : List Path}
    (whole : '/' ∉ name.toList) :
    w.TakesLiterally name directories ↔
      ∀ before directory after, directories = before ++ directory :: after →
        (∀ earlier ∈ before, w.findLibraryIn name.toList earlier = none) →
          ¬ w.Mistakes name.toList directory := by
  rw [TakesLiterally, forall_findLibrary_iff]
  simp only [mistakes_iff_findLibraryIn whole, not_exists, not_and, not_not]

/-- An archive is missing if none of its directories answers. -/
theorem isMissing_iff {archive : KernelArchive} : archive.isMissing w = true ↔
    ∀ directory ∈ archive.libDirs, w.findLibraryIn archive.name.toList directory = none := by
  rw [← List.findSome?_eq_none_iff, KernelArchive.isMissing, findLibrary]
  cases archive.libDirs.findSome? (w.findLibraryIn archive.name.toList) with
  | none => simp [Except.toBool]
  | some p => simp [Except.toBool]

/-- There is a warning if it is missing. -/
theorem mem_warnings_linkArchive_iff {a : Artifact} {archive : KernelArchive} :
    "ahead-of-time kernel archive not found yet" ∈ (a.linkArchive .enabled archive w).warnings ↔
      archive.isMissing w = true := by
  have hwarnings : (a.linkArchive .enabled archive w).warnings =
      if archive.isMissing w then ["ahead-of-time kernel archive not found yet"] else [] := by
    unfold Artifact.linkArchive
    rw [if_pos (by rfl), Outcome.warnings, Run.bind_apply_ok (a := archive.isMissing w) rfl]
    cases archive.isMissing w <;> rfl
  rw [hwarnings]
  simp

theorem warnsRightly_iff {a : Artifact} {archive : KernelArchive} :
    w.WarnsRightly a archive ↔
      (∃ directory ∈ archive.libDirs, w.HoldsFixed archive.name.toList directory) ∨
        ((∃ directory ∈ archive.libDirs, ∃ file,
            w.HasVersion archive.name.toList directory file) ↔
          ∃ directory ∈ archive.libDirs,
            w.findVersioned archive.name.toList directory ≠ none) := by
  have hanswer : ∀ directory, w.findLibraryIn archive.name.toList directory = none ↔
      ¬ w.HoldsFixed archive.name.toList directory ∧
        w.findVersioned archive.name.toList directory = none := by
    intro directory
    rw [findLibraryIn_eq_or, Option.or_eq_none_iff, firstFile_eq_none_iff_holdsFixed]
  have hholds : ∀ directory, w.Holds archive.name.toList directory ↔
      w.HoldsFixed archive.name.toList directory ∨
        ∃ file, w.HasVersion archive.name.toList directory file := fun _ => Iff.rfl
  rw [WarnsRightly, mem_warnings_linkArchive_iff, isMissing_iff]
  simp only [hanswer, hholds, not_or]
  by_cases hfixed : ∃ directory ∈ archive.libDirs, w.HoldsFixed archive.name.toList directory
  · obtain ⟨directory, hmem, hfile⟩ := hfixed
    refine iff_of_true ⟨fun h => ?_, fun h => ?_⟩ (Or.inl ⟨directory, hmem, hfile⟩)
    · exact absurd hfile (h directory hmem).1
    · exact absurd hfile (h directory hmem).1
  · -- without fixed names there is a warning if there is no match
    have hnone : ∀ {P : Path → Prop}, (∀ directory ∈ archive.libDirs,
        ¬ w.HoldsFixed archive.name.toList directory ∧ P directory) ↔
          ∀ directory ∈ archive.libDirs, P directory := by
      intro P
      refine forall₂_congr fun directory hmem => and_iff_right fun hfile => ?_
      exact hfixed ⟨directory, hmem, hfile⟩
    rw [hnone, hnone, or_iff_right hfixed, ← not_iff_not (b := ∃ directory ∈ _, _ ≠ none)]
    simp only [not_exists, not_and, ne_eq, not_not]
    exact iff_comm

/-- A plain name is taken literally. -/
theorem takesLiterally_of_literal {name : String} {directories : List Path}
    (whole : '/' ∉ name.toList) (literal : ∀ c ∈ name.toList, Glob.isMeta c = false) :
    w.TakesLiterally name directories :=
  fun _ h => exists_fileName?_of_findLibrary whole literal h

/-- The absence of an archive with a plain name is warned of rightly where a search gets to all of
its directories. -/
theorem warnsRightly_of_literal {a : Artifact} {archive : KernelArchive}
    (whole : '/' ∉ archive.name.toList)
    (literal : ∀ c ∈ archive.name.toList, Glob.isMeta c = false)
    (hall : ∀ directory ∈ archive.libDirs,
      IsSpellable directory ∧ (directory.isAbsolute = true ∨ directory.IsTidy)) :
    w.WarnsRightly a archive := by
  refine warnsRightly_iff.2 (Or.inr (exists_congr fun directory => and_congr_right fun hmem => ?_))
  obtain ⟨hspellable, hfound⟩ := hall directory hmem
  rw [findVersioned_ne_none_iff_of_isSpellable hspellable whole, and_iff_right hfound]
  simp only [hasMatch_iff_hasVersion literal]

/-- **Whether a name is taken literally.** What is found for a library is named after it exactly if
the first directory that answers makes no mistake. A warning that an archive is missing is right
exactly if there is a file of a fixed name in its directories, or if there are versioned shared
objects of its name in them just in case the search for such finds anything.

That search finds, in a directory that it gets to, the first entry with the name of a versioned
shared object of any text that the name stands for as a pattern. So a name without characters of
meaning is always taken literally, and the warning is right wherever searches get. -/
theorem takesLiterally_iff (w : World) (name : String) (directories : List Path)
    (whole : '/' ∉ name.toList) :
    (w.TakesLiterally name directories ↔
      ∀ before directory after, directories = before ++ directory :: after →
        (∀ earlier ∈ before, w.findLibraryIn name.toList earlier = none) →
          ¬ w.Mistakes name.toList directory) ∧
    (∀ a : Artifact, w.WarnsRightly a ⟨name, directories⟩ ↔
      (∃ directory ∈ directories, w.HoldsFixed name.toList directory) ∨
        ((∃ directory ∈ directories, ∃ file, w.HasVersion name.toList directory file) ↔
          ∃ directory ∈ directories, w.findVersioned name.toList directory ≠ none)) ∧
    (∀ directory, IsSpellable directory →
      (∀ p, w.findVersioned name.toList directory = some p ↔
        (directory.isAbsolute = true ∨ directory.IsTidy) ∧
          ∃ file, w.IsFirstMatch name.toList directory file ∧
            p = entryPath (searched directory) file.path) ∧
      (w.findVersioned name.toList directory ≠ none ↔
        (directory.isAbsolute = true ∨ directory.IsTidy) ∧
          ∃ file, w.HasMatch name.toList directory file)) ∧
    ((∀ c ∈ name.toList, Glob.isMeta c = false) →
      w.TakesLiterally name directories ∧
        ((∀ directory ∈ directories,
            IsSpellable directory ∧ (directory.isAbsolute = true ∨ directory.IsTidy)) →
          ∀ a : Artifact, w.WarnsRightly a ⟨name, directories⟩)) := by
  refine ⟨takesLiterally_iff_mistakes whole, fun a => warnsRightly_iff,
    fun directory hspellable => ⟨fun p => ?_, ?_⟩, fun literal => ⟨?_, fun hall a => ?_⟩⟩
  · exact findVersioned_eq_some_iff_of_isSpellable hspellable whole
  · exact findVersioned_ne_none_iff_of_isSpellable hspellable whole
  · exact takesLiterally_of_literal whole literal
  · exact warnsRightly_of_literal whole literal hall

end World

/-! ### A name that is a pattern -/

namespace Sample

/-- A directory with a versioned shared object. -/
def versionedTree : Tree where
  children :=
    [(⟨"v".toList, by rfl⟩, .directory [
      (⟨"libfoo.so.3".toList, by rfl⟩, .file ⟨[], false, none⟩)])]
  proper := by rfl

/-- The directory with nothing else around. -/
def versionedWorld : World := .ofTree versionedTree []

/-- A question mark in a name stands for the character that is there. So a file of another library is
found, and there is no warning although the directory holds none of the name. -/
theorem not_takesLiterally :
    ¬ versionedWorld.TakesLiterally "f?o" ["/v"] ∧
    ∀ a : Artifact, ¬ versionedWorld.WarnsRightly a ⟨"f?o", ["/v"]⟩ := by
  have hother : ¬ IsLibraryFileName "f?o".toList "libfoo.so.3".toList := by
    unfold IsLibraryFileName
    decide +kernel
  constructor
  · intro hliteral
    obtain ⟨file, hfile, hform⟩ := hliteral "/v/libfoo.so.3" (by decide +kernel)
    have hshown : Path.fileName? "/v/libfoo.so.3" = some "libfoo.so.3".toList := by decide
    rw [hshown] at hfile
    cases hfile
    exact hother hform
  · intro a hright
    have hmissing : (KernelArchive.mk "f?o" ["/v"]).isMissing versionedWorld = false := by
      decide +kernel
    have hplace : versionedWorld.find "/v" = .ok (.directory
        [(⟨"libfoo.so.3".toList, by rfl⟩, .file ⟨[], false, none⟩)]) := by rfl
    have hwarned := World.mem_warnings_linkArchive_iff.1 (hright.2 ?_)
    · rw [hmissing] at hwarned
      cases hwarned
    · intro directory hdirectory
      obtain rfl := List.mem_singleton.1 hdirectory
      rintro (hfixed | ⟨file, hentry, hprefix⟩)
      · revert hfixed
        decide +kernel
      · obtain ⟨children, hchildren, hmem⟩ := World.hasEntry_iff.1 hentry
        rw [hplace] at hchildren
        cases hchildren
        obtain rfl := List.mem_singleton.1 hmem
        exact hother (Or.inr hprefix)

/-- The plain name is taken literally, and the warning is right. The name with the question mark has
a match all the same. -/
theorem takesLiterally_iff_versioned :
    versionedWorld.findLibrary "foo" ["/v"] = .ok "/v/libfoo.so.3" ∧
    versionedWorld.TakesLiterally "foo" ["/v"] ∧
    (∀ a : Artifact, versionedWorld.WarnsRightly a ⟨"foo", ["/v"]⟩) ∧
    ∃ file, versionedWorld.HasMatch "f?o".toList "/v" file := by
  obtain ⟨-, -, -, hplain⟩ :=
    World.takesLiterally_iff versionedWorld "foo" ["/v"] (by decide)
  obtain ⟨-, -, hmatched, -⟩ :=
    World.takesLiterally_iff versionedWorld "f?o" ["/v"] (by decide)
  have hspellable : World.IsSpellable "/v" := ⟨by decide, by decide, by decide⟩
  obtain ⟨hliteral, hwarns⟩ := hplain (Glob.literal_of_all (by decide))
  refine ⟨by decide +kernel, hliteral, hwarns ?_, ?_⟩
  · intro directory hdirectory
    obtain rfl := List.mem_singleton.1 hdirectory
    exact ⟨hspellable, Or.inl (by decide)⟩
  · exact ((hmatched "/v" hspellable).2.1 (by decide +kernel)).2

end Sample

end ExtensionPlan
