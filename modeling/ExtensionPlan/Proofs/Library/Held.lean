import ExtensionPlan.Proofs.Glob.Relative
import ExtensionPlan.Proofs.Library.Denoted
import ExtensionPlan.Proofs.Library.Regular

/-!
# ExtensionPlan.Proofs.Library.Held

**Which directories answer.** A directory that holds a library in one of the forms that are
recognised (`World.Holds`) should answer when it is searched. The fixed names are looked up behind
the directory, however it is spelled. A versioned name is searched by a pattern, and below a
relative directory that is not spelled tidily no search finds anything
(`World.glob_of_not_isTidy`). So there is one kind of directory that holds a library and does not
answer (`World.Overlooks`, `World.findLibraryIn_eq_none_iff`).

Of a list of directories, the first one that holds the library should decide. Where it does not
answer the search goes on behind it, and may come to nothing or to another file
(`World.IsPassedOver`).
-/

namespace ExtensionPlan

namespace World

variable {w : World} {name : List Char} {directory : Path}

/-! ### One directory -/

/-- A file of a fixed name is in the directory, or an entry with the name of a versioned shared
object. -/
def Holds (w : World) (name : List Char) (directory : Path) : Prop :=
  (∃ file ∈ libraryFileNames name, w.isFile (directory.join ⟨file⟩) = true) ∨
    ∃ file, w.HasVersion name directory file

/-- There are versioned names in the directory and no fixed ones, and it is spelled so that no
search gets there. -/
def Overlooks (w : World) (name : List Char) (directory : Path) : Prop :=
  directory.isAbsolute = false ∧ ¬ directory.IsTidy ∧
    (∀ file ∈ libraryFileNames name, w.isFile (directory.join ⟨file⟩) = false) ∧
    ∃ file, w.HasVersion name directory file

theorem Overlooks.holds (h : w.Overlooks name directory) : w.Holds name directory :=
  Or.inr h.2.2.2

/-- Where no search gets to, no versioned name is found. -/
theorem findVersioned_of_not_isTidy (filled : directory.chars ≠ []) (whole : '/' ∉ name)
    (hrelative : directory.isAbsolute = false) (htidy : ¬ directory.IsTidy) :
    w.findVersioned name directory = none := by
  cases hread : Glob.tokensFrom 0 3 (some 'b') name with
  | error e => exact findVersioned_of_error whole hread
  | ok read =>
      rw [findVersioned, versionedPattern_eq, glob_of_not_isTidy hrelative filled htidy
        (whole_versioned whole) (by simp) (tokens_versioned_of_read whole hread)]
      rfl

/-- **Where versioned names are found**: where a search gets to, be the path too long to be looked
up or not. -/
theorem findVersioned_ne_none_iff (filled : directory.chars ≠ []) (whole : '/' ∉ name) :
    w.findVersioned name directory ≠ none ↔
      (directory.isAbsolute = true ∨ directory.IsTidy) ∧
        ∃ file, w.HasMatch name (searched directory) file := by
  constructor
  · intro h
    obtain ⟨p, hp⟩ := Option.ne_none_iff_exists'.1 h
    obtain ⟨file, hentry, -, hmatches⟩ := exists_match_of_findVersioned whole hp
    refine ⟨?_, file, hentry, hmatches⟩
    by_contra hnot
    rw [not_or, Bool.not_eq_true] at hnot
    exact h (findVersioned_of_not_isTidy filled whole hnot.1 hnot.2)
  · rintro ⟨hfound, file, hmatch⟩ hnone
    obtain ⟨children, hchildren, -⟩ := hasEntry_iff.1 hmatch.1
    have hreached := isReached_of_isDirectory_searched hfound (isDirectory_iff.2 ⟨_, hchildren⟩)
    exact (findVersioned_eq_none_iff_searched whole hreached).1 hnone file hmatch

section Search

variable (hdirectory : w.isDirectory directory = true) (whole : '/' ∉ name)
  (literal : ∀ c ∈ name, Glob.isMeta c = false)

include hdirectory whole literal

/-- Where a search gets to, versioned names are found if there are any. -/
theorem findVersioned_eq_none_iff (hreached : w.IsReached directory) :
    w.findVersioned name directory = none ↔ ∀ file, ¬ w.HasVersion name directory file := by
  rw [findVersioned_eq_none_iff_match hdirectory whole hreached]
  simp only [hasMatch_iff_hasVersion literal]

/-- **Which directories do not answer**: those that do not hold the library, and those that
overlook it. -/
theorem findLibraryIn_eq_none_iff :
    w.findLibraryIn name directory = none ↔
      ¬ w.Holds name directory ∨ w.Overlooks name directory := by
  have hfixed : (∀ file ∈ libraryFileNames name, w.isFile (directory.join ⟨file⟩) = false) ↔
      ¬ ∃ file ∈ libraryFileNames name, w.isFile (directory.join ⟨file⟩) = true := by
    simp
  rw [findLibraryIn_eq_or, Option.or_eq_none_iff, firstFile_eq_none_iff, Holds, Overlooks, hfixed]
  by_cases hfound : directory.isAbsolute = true ∨ directory.IsTidy
  · have hreached := isReached_of_isAbsolute_or_isTidy hfound hdirectory
    have hnot : ¬ (directory.isAbsolute = false ∧ ¬ directory.IsTidy) := by
      intro ⟨hrelative, htidy⟩
      rcases hfound with habsolute | htidy'
      · exact Bool.false_ne_true (hrelative.symm.trans habsolute)
      · exact htidy htidy'
    rw [findVersioned_eq_none_iff hdirectory whole literal hreached, ← not_exists, ← not_or,
      ← and_assoc]
    simp only [hnot, false_and, or_false]
  · rw [not_or, Bool.not_eq_true] at hfound
    obtain ⟨hrelative, htidy⟩ := hfound
    have filled := (isSpellable_of_isDirectory hdirectory).filled
    simp only [findVersioned_of_not_isTidy filled whole hrelative htidy, hrelative, htidy,
      not_false_eq_true, true_and, and_true]
    by_cases hversion : ∃ file, w.HasVersion name directory file
    · simp only [hversion, or_true, not_true_eq_false, false_or, and_true]
    · simp only [hversion, or_false, and_false]

end Search

/-! ### A list of directories -/

/-- The first of the directories that holds the library overlooks it, and no file that is found
behind it is one of its entries. -/
def IsPassedOver (w : World) (name : String) (directories : List Path) : Prop :=
  ∃ before directory after, directories = before ++ directory :: after ∧
    (∀ earlier ∈ before, ¬ w.Holds name.toList earlier) ∧ w.Overlooks name.toList directory ∧
    ∀ p, w.findLibrary name after = .ok p → ¬ w.Denotes p directory

/-- If one of the directories holds the library, there is a first one that does. -/
theorem exists_first_holds {directories : List Path}
    (h : ∃ directory ∈ directories, w.Holds name directory) :
    ∃ before directory after, directories = before ++ directory :: after ∧
      (∀ earlier ∈ before, ¬ w.Holds name earlier) ∧ w.Holds name directory := by
  induction directories with
  | nil => simp at h
  | cons first rest ih =>
      by_cases hfirst : w.Holds name first
      · exact ⟨[], first, rest, rfl, by simp, hfirst⟩
      · obtain ⟨directory, hmem, hholds⟩ := h
        have hrest : directory ∈ rest :=
          (List.mem_cons.1 hmem).resolve_left fun heq => hfirst (heq ▸ hholds)
        obtain ⟨before, decisive, after, rfl, hbefore, hdecisive⟩ := ih ⟨directory, hrest, hholds⟩
        exact ⟨first :: before, decisive, after, rfl, by simpa [hfirst] using hbefore, hdecisive⟩

section Search

variable {name : String} {directories : List Path}
  (hall : ∀ directory ∈ directories, w.isDirectory directory = true) (whole : '/' ∉ name.toList)
  (literal : ∀ c ∈ name.toList, Glob.isMeta c = false)

include hall whole literal

/-- Only a directory that holds the library answers. -/
theorem exists_holds_of_findLibrary {p : Path} (h : w.findLibrary name directories = .ok p) :
    ∃ directory ∈ directories, w.Holds name.toList directory := by
  obtain ⟨directory, hmem, hfound⟩ := exists_directory_of_findLibrary h
  refine ⟨directory, hmem, ?_⟩
  by_contra hholds
  have hnone := (findLibraryIn_eq_none_iff (hall directory hmem) whole literal).2 (Or.inl hholds)
  rw [hnone] at hfound
  cases hfound

/-- The search goes on to the first directory that holds the library. -/
theorem findLibrary_eq_ok_iff_of_first {before after : List Path}
    (heq : directories = before ++ directory :: after)
    (hbefore : ∀ earlier ∈ before, ¬ w.Holds name.toList earlier) {p : Path} :
    w.findLibrary name directories = .ok p ↔
      (w.findLibraryIn name.toList directory).or
        (after.findSome? (w.findLibraryIn name.toList)) = some p := by
  subst heq
  have hnone : before.findSome? (w.findLibraryIn name.toList) = none := by
    rw [List.findSome?_eq_none_iff]
    intro earlier hearlier
    have hdirectory := hall earlier (List.mem_append_left _ hearlier)
    exact (findLibraryIn_eq_none_iff hdirectory whole literal).2 (Or.inl (hbefore earlier hearlier))
  rw [findLibrary_eq_ok_iff, List.findSome?_append, hnone, Option.none_or, List.findSome?_cons]
  cases w.findLibraryIn name.toList directory <;> rfl

/-- **The first directory that holds the library decides**, unless it is passed over. -/
theorem not_isPassedOver_iff :
    ¬ w.IsPassedOver name directories ↔
      ∀ before directory after, directories = before ++ directory :: after →
        (∀ earlier ∈ before, ¬ w.Holds name.toList earlier) → w.Holds name.toList directory →
          ∃ p, w.findLibrary name directories = .ok p ∧ w.Denotes p directory := by
  constructor
  · intro hpassed before directory after heq hbefore hholds
    have hdirectory := hall directory (by simp [heq])
    have hfirst {p : Path} := findLibrary_eq_ok_iff_of_first (p := p) hall whole literal heq hbefore
    cases hanswer : w.findLibraryIn name.toList directory with
    | some p =>
        refine ⟨p, hfirst.2 ?_, denotes_of_findLibraryIn whole literal hdirectory hanswer⟩
        rw [hanswer, Option.some_or]
    | none =>
        have hoverlooks := ((findLibraryIn_eq_none_iff hdirectory whole literal).1
          hanswer).resolve_left (not_not_intro hholds)
        by_contra hlost
        refine hpassed ⟨before, directory, after, heq, hbefore, hoverlooks, fun p hp hdenotes => ?_⟩
        refine hlost ⟨p, hfirst.2 ?_, hdenotes⟩
        rw [hanswer, Option.none_or]
        exact findLibrary_eq_ok_iff.1 hp
  · intro hdecides ⟨before, directory, after, heq, hbefore, hoverlooks, hnone⟩
    have hdirectory := hall directory (by simp [heq])
    have hanswer := (findLibraryIn_eq_none_iff hdirectory whole literal).2 (Or.inr hoverlooks)
    obtain ⟨p, hp, hdenotes⟩ := hdecides before directory after heq hbefore hoverlooks.holds
    rw [findLibrary_eq_ok_iff_of_first hall whole literal heq hbefore, hanswer,
      Option.none_or] at hp
    exact hnone p (findLibrary_eq_ok_iff.2 hp) hdenotes

end Search

end World

end ExtensionPlan
