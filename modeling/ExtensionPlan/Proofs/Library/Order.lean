import ExtensionPlan.Proofs.Glob.Enumeration
import ExtensionPlan.Proofs.Library.Literal
import ExtensionPlan.Proofs.Library.Seen

/-!
# ExtensionPlan.Proofs.Library.Order

**The order of the directories decides.** For a library with a plain name, the first of the
directories that holds it should answer, and nothing else should matter: not how the directories are
called, nor in which order a system lists what is in them (`World.OrderDecides`).

Two lists one behind the other answer as the first one does, or else as the second one
(`World.concatenates`), and the order of listings never matters (`World.SameFiles.findLibrary_eq`).
The rest holds of a directory unless it is spelled in one of two ways. One that is not spelled
tidily may be overlooked (`World.Overlooks`). One that is spelled with so many separators that it
cannot be looked up is no directory to the system, but a search leaves them out and may find
something there (`World.Overreaches`). There are no other exceptions (`World.orderDecides_iff`).
-/

namespace ExtensionPlan

namespace World

variable {w : World} {name : List Char} {directory other : Path}

/-! ### Directories that cannot be looked up -/

/-- The path is too long to be looked up, but it is spelled so that a search gets to where it is
shown to lead, and there are versioned names there. -/
def Overreaches (w : World) (name : List Char) (directory : Path) : Prop :=
  pathLimit < Text.byteCount directory.chars ∧
    (directory.isAbsolute = true ∨ directory.IsTidy) ∧
    ∃ file, w.HasVersion name (searched directory) file

/-- If there is a directory where the path is shown to lead, but none by the path itself, then that
is too long. -/
theorem pathLimit_lt_of_hasEntry_searched {file : FileName} (filled : directory.chars ≠ [])
    (hentry : w.HasEntry (searched directory) file) (hdirectory : w.isDirectory directory = false) :
    pathLimit < Text.byteCount directory.chars := by
  obtain ⟨children, hchildren, -⟩ := hasEntry_iff.1 hentry
  have hunmarked := (find_eq_ok_iff.1 hchildren).1.unmarked
  -- both spellings take the same steps, so there is no mark of an end in either of them
  rw [Path.mem_chars_iff (by decide) (by decide), steps_searched,
    ← Path.mem_chars_iff (by decide) (by decide)] at hunmarked
  by_contra hshort
  have hspellable : IsSpellable directory := ⟨hunmarked, filled, Nat.not_lt.1 hshort⟩
  rw [isDirectory_of_hasEntry_searched hspellable hentry] at hdirectory
  cases hdirectory

section Filled

variable (filled : directory.chars ≠ []) (whole : '/' ∉ name)

include filled whole

/-- Only a directory holds a library. -/
theorem isDirectory_of_holds (h : w.Holds name directory) : w.isDirectory directory = true := by
  rcases h with ⟨file, hfile, hregular⟩ | ⟨file, hentry, -⟩
  · have hname := isName_of_mem_libraryFileNames whole hfile
    exact isDirectory_of_isFile_join filled hname.whole hregular
  · obtain ⟨children, hchildren, -⟩ := hasEntry_iff.1 hentry
    exact isDirectory_iff.2 ⟨children, hchildren⟩

/-- What cannot be looked up holds nothing. -/
theorem Overreaches.not_holds (h : w.Overreaches name directory) : ¬ w.Holds name directory := by
  intro hholds
  have hdirectory := isDirectory_of_holds filled whole hholds
  exact Nat.not_lt.2 (isSpellable_of_isDirectory hdirectory).short h.1

variable (literal : ∀ c ∈ name, Glob.isMeta c = false)

include literal

/-- Without a directory, versioned names are found if the path overreaches. -/
theorem findVersioned_eq_none_iff_of_not_isDirectory
    (hdirectory : w.isDirectory directory = false) :
    w.findVersioned name directory = none ↔ ¬ w.Overreaches name directory := by
  rw [← not_iff_not, not_not, ← ne_eq, findVersioned_ne_none_iff filled whole, Overreaches]
  simp only [hasMatch_iff_hasVersion literal]
  refine (and_iff_right_of_imp ?_).symm
  rintro ⟨-, file, hentry, -⟩
  exact pathLimit_lt_of_hasEntry_searched filled hentry hdirectory

/-- **Which paths do not answer**, whether or not there is a directory. -/
theorem findLibraryIn_eq_none_iff_of_filled :
    w.findLibraryIn name directory = none ↔
      (¬ w.Holds name directory ∨ w.Overlooks name directory) ∧
        ¬ w.Overreaches name directory := by
  cases hdirectory : w.isDirectory directory with
  | true =>
      rw [findLibraryIn_eq_none_iff hdirectory whole literal, iff_self_and]
      rintro - ⟨hlong, -⟩
      exact Nat.not_lt.2 (isSpellable_of_isDirectory hdirectory).short hlong
  | false =>
      have hholds : ¬ w.Holds name directory := by
        intro h
        rw [isDirectory_of_holds filled whole h] at hdirectory
        cases hdirectory
      have hfixed : w.firstFile directory (libraryFileNames name) = none :=
        firstFile_eq_none_iff_holdsFixed.2 fun h => hholds (Or.inl h)
      rw [findLibraryIn_eq_or, hfixed, Option.none_or, and_iff_right (Or.inl hholds)]
      exact findVersioned_eq_none_iff_of_not_isDirectory filled whole literal hdirectory

end Filled

/-! ### Directories that hold the same -/

/-- The same fixed names are those of files in both directories, and the same versioned names those
of entries. -/
structure HoldsAlike (w : World) (name : List Char) (directory other : Path) : Prop where
  fixed : ∀ file ∈ libraryFileNames name,
    w.isFile (directory.join ⟨file⟩) = w.isFile (other.join ⟨file⟩)
  versions : ∀ file, w.HasVersion name directory file ↔ w.HasVersion name other file

/-- The two paths are those of entries with one name, each in its directory. -/
def NamesAlike (w : World) (directory other p q : Path) : Prop :=
  p.fileName? = q.fileName? ∧ w.Denotes p directory ∧ w.Denotes q other

theorem rel_firstFile_of_holdsAlike (whole : '/' ∉ name) (h : w.HoldsAlike name directory other) :
    Option.Rel (fun p q => p.fileName? = q.fileName?)
      (w.firstFile directory (libraryFileNames name))
      (w.firstFile other (libraryFileNames name)) := by
  have hnames : List.Forall₂ (fun p q => w.isFile p = w.isFile q ∧ p.fileName? = q.fileName?)
      ((libraryFileNames name).map fun file => directory.join ⟨file⟩)
      ((libraryFileNames name).map fun file => other.join ⟨file⟩) := by
    rw [List.forall₂_map_left_iff, List.forall₂_map_right_iff, List.forall₂_same]
    intro file hfile
    have hname := isName_of_mem_libraryFileNames whole hfile
    exact ⟨h.fixed file hfile, (Path.fileName?_join directory hname).trans
      (Path.fileName?_join other hname).symm⟩
  exact rel_imp (fun p q hpq => hpq.2) (rel_find? hnames fun p q hpq => hpq.1)

theorem HoldsAlike.holds_iff (h : w.HoldsAlike name directory other) :
    w.Holds name directory ↔ w.Holds name other := by
  unfold Holds
  simp only [h.versions]
  refine or_congr_left (exists_congr fun file => and_congr_right fun hfile => ?_)
  rw [h.fixed file hfile]

/-- The directory is spelled in neither of the two ways, so it answers if it holds the library, and
only then. -/
def Reports (w : World) (name : List Char) (directory : Path) : Prop :=
  ¬ w.Overlooks name directory ∧ ¬ w.Overreaches name directory

/-- If only a search can tell that the directory holds the library then the search gets there. -/
theorem Reports.isAbsolute_or_isTidy (hreports : w.Reports name directory)
    (hholds : w.Holds name directory) (hfixed : ¬ w.HoldsFixed name directory) :
    directory.isAbsolute = true ∨ directory.IsTidy := by
  by_contra hnot
  rw [not_or, Bool.not_eq_true] at hnot
  refine hreports.1 ⟨hnot.1, hnot.2, ?_, hholds.resolve_left hfixed⟩
  exact firstFile_eq_none_iff.1 (firstFile_eq_none_iff_holdsFixed.2 hfixed)

section Alike

variable (whole : '/' ∉ name) (literal : ∀ c ∈ name, Glob.isMeta c = false)
  (filled : directory.chars ≠ []) (filled' : other.chars ≠ [])
  (hreports : w.Reports name directory) (hreports' : w.Reports name other)

include whole literal filled hreports

theorem findLibraryIn_eq_none_iff_of_reports :
    w.findLibraryIn name directory = none ↔ ¬ w.Holds name directory := by
  rw [findLibraryIn_eq_none_iff_of_filled filled whole literal, or_iff_left hreports.1,
    and_iff_left hreports.2]

/-- What the directory answers with is in it. -/
theorem denotes_of_reports {p : Path} (h : w.findLibraryIn name directory = some p) :
    w.Denotes p directory := by
  have hholds : w.Holds name directory := by
    by_contra hnone
    rw [(findLibraryIn_eq_none_iff_of_reports whole literal filled hreports).2 hnone] at h
    cases h
  exact denotes_of_findLibraryIn whole literal (isDirectory_of_holds filled whole hholds) h

include filled' hreports'

/-- Without fixed names the same version comes first. -/
theorem rel_findVersioned_of_holdsAlike (h : w.HoldsAlike name directory other)
    (hholds : w.Holds name directory) (hfixed : ¬ w.HoldsFixed name directory)
    (hfixed' : ¬ w.HoldsFixed name other) :
    Option.Rel (fun p q => p.fileName? = q.fileName?) (w.findVersioned name directory)
      (w.findVersioned name other) := by
  have hholds' := h.holds_iff.1 hholds
  have hdirectory := isDirectory_of_holds filled whole hholds
  have hother := isDirectory_of_holds filled' whole hholds'
  refine rel_findVersioned_of_isFirstMatch hdirectory hother
    (isReached_of_isAbsolute_or_isTidy (hreports.isAbsolute_or_isTidy hholds hfixed) hdirectory)
    (isReached_of_isAbsolute_or_isTidy (hreports'.isAbsolute_or_isTidy hholds' hfixed') hother)
    whole (fun file => ?_) fun file => ?_
  · simp only [IsFirstMatch, hasMatch_iff_hasVersion literal, h.versions]
  · exact (fileName?_entryPath _ file.isName).trans (fileName?_entryPath _ file.isName).symm

theorem rel_fileName?_of_holdsAlike (h : w.HoldsAlike name directory other) :
    Option.Rel (fun p q => p.fileName? = q.fileName?) (w.findLibraryIn name directory)
      (w.findLibraryIn name other) := by
  by_cases hholds : w.Holds name directory
  · have hfirst := rel_firstFile_of_holdsAlike whole h
    rw [findLibraryIn_eq_or, findLibraryIn_eq_or]
    cases hthis : w.firstFile directory (libraryFileNames name) with
    | some p =>
        -- then neither of them is searched
        rw [hthis] at hfirst
        obtain ⟨q, hthat, hsame⟩ := exists_of_rel hfirst
        rw [hthat, Option.some_or, Option.some_or]
        exact .some hsame
    | none =>
        rw [hthis] at hfirst
        have hthat := eq_none_of_rel hfirst
        rw [hthat, Option.none_or, Option.none_or]
        exact rel_findVersioned_of_holdsAlike whole literal filled filled' hreports hreports' h
          hholds (firstFile_eq_none_iff_holdsFixed.1 hthis)
          (firstFile_eq_none_iff_holdsFixed.1 hthat)
  · have hnone := (findLibraryIn_eq_none_iff_of_reports whole literal filled hreports).2 hholds
    rw [h.holds_iff] at hholds
    rw [hnone, (findLibraryIn_eq_none_iff_of_reports whole literal filled' hreports').2 hholds]
    exact .none

/-- **One directory.** In directories that hold the same an entry of one name is found, or none in
both. -/
theorem rel_findLibraryIn_of_holdsAlike (h : w.HoldsAlike name directory other) :
    Option.Rel (w.NamesAlike directory other) (w.findLibraryIn name directory)
      (w.findLibraryIn name other) := by
  have hnamed := rel_fileName?_of_holdsAlike whole literal filled filled' hreports hreports' h
  cases hthis : w.findLibraryIn name directory with
  | none =>
      rw [hthis] at hnamed
      rw [eq_none_of_rel hnamed]
      exact .none
  | some p =>
      rw [hthis] at hnamed
      obtain ⟨q, hthat, hsame⟩ := exists_of_rel hnamed
      rw [hthat]
      exact .some ⟨hsame, denotes_of_reports whole literal filled hreports hthis,
        denotes_of_reports whole literal filled' hreports' hthat⟩

end Alike

/-! ### The order of listings -/

namespace SameFiles

variable {w' : World} (h : w.SameFiles w')

include h

/-- **The order of listings plays no role**, whatever the library and the directories are called. -/
theorem findLibrary_eq (name : String) (directories : List Path) :
    w.findLibrary name directories = w'.findLibrary name directories := by
  have hversioned : ∀ directory, w.findVersioned name.toList directory =
      w'.findVersioned name.toList directory := by
    intro directory
    rw [findVersioned, findVersioned, h.glob_eq]
  have hfile : w.isFile = w'.isFile := funext h.isFile_eq
  have hanswer : w.findLibraryIn name.toList = w'.findLibraryIn name.toList := by
    funext directory
    rw [findLibraryIn, findLibraryIn, hversioned, hfile]
  rw [findLibrary, findLibrary, hanswer]

end SameFiles

/-! ### Lists of directories -/

/-- Two lists, one behind the other, answer as the first one does alone, or else as the second one
does. A failure names all directories. -/
def Concatenates (w : World) (name : String) (front back : List Path) : Prop :=
  w.findLibrary name (front ++ back) =
    match w.findLibrary name front, w.findLibrary name back with
    | .ok p, _ => .ok p
    | .error _, .ok p => .ok p
    | .error _, .error _ => .error (.libraryNotFound name (front ++ back))

theorem concatenates (w : World) (name : String) (front back : List Path) :
    w.Concatenates name front back := by
  unfold Concatenates findLibrary
  rw [List.findSome?_append]
  cases front.findSome? (w.findLibraryIn name.toList) with
  | some p => rfl
  | none =>
      cases back.findSome? (w.findLibraryIn name.toList) with
      | some p => rfl
      | none => rfl

theorem exists_findLibrary_eq_error_iff {name : String} {directories : List Path} :
    (∃ e, w.findLibrary name directories = .error e) ↔
      ∀ directory ∈ directories, w.findLibraryIn name.toList directory = none := by
  rw [← List.findSome?_eq_none_iff, findLibrary]
  cases directories.findSome? (w.findLibraryIn name.toList) <;> simp

/-- The same is found in both lists: at one place of them, an entry of one name in the directory
that is there. -/
def AnswersAlike (w : World) (name : String) (directories others : List Path) : Prop :=
  Option.Rel (fun p q => ∃ place ∈ directories.zip others, w.NamesAlike place.1 place.2 p q)
    (w.findLibrary name directories).toOption (w.findLibrary name others).toOption

/-- **The order of the directories decides, and nothing else.** This is said of all lists of
directories that are among the given ones. -/
structure OrderDecides (w : World) (name : String) (places : List Path) : Prop where
  append : ∀ front back, front ⊆ places → back ⊆ places → w.Concatenates name front back
  fails_iff : ∀ directories, directories ⊆ places →
    ((∃ e, w.findLibrary name directories = .error e) ↔
      ∀ directory ∈ directories, ¬ w.Holds name.toList directory)
  /-- How directories are called plays no role. -/
  spelling : ∀ directories others, directories ⊆ places → others ⊆ places →
    List.Forall₂ (w.HoldsAlike name.toList) directories others →
      w.AnswersAlike name directories others
  /-- In which order their entries are listed plays no role. -/
  listing : ∀ w', w.SameFiles w' → ∀ directories, directories ⊆ places →
    w.findLibrary name directories = w'.findLibrary name directories

section Lists

variable {name : String} {places : List Path} (whole : '/' ∉ name.toList)
  (literal : ∀ c ∈ name.toList, Glob.isMeta c = false)
  (filled : ∀ place ∈ places, place.chars ≠ [])

include whole literal filled

theorem orderDecides_of_reports (hreports : ∀ place ∈ places, w.Reports name.toList place) :
    w.OrderDecides name places where
  append front back _ _ := concatenates w name front back
  fails_iff := by
    intro directories hsub
    rw [exists_findLibrary_eq_error_iff]
    refine forall₂_congr fun directory hmem => ?_
    have hplace := hsub hmem
    exact findLibraryIn_eq_none_iff_of_reports whole literal (filled _ hplace) (hreports _ hplace)
  spelling := by
    intro directories others hsub hsub' halike
    rw [AnswersAlike, toOption_findLibrary, toOption_findLibrary]
    rw [List.forall₂_iff_zip] at halike
    refine rel_findSome? (List.forall₂_iff_zip.2 ⟨halike.1, fun {directory other} hzip => ?_⟩)
    have hplace := hsub (List.of_mem_zip hzip).1
    have hplace' := hsub' (List.of_mem_zip hzip).2
    have hanswers := rel_findLibraryIn_of_holdsAlike whole literal (filled _ hplace)
      (filled _ hplace') (hreports _ hplace) (hreports _ hplace') (halike.2 hzip)
    exact rel_imp (fun p q hnames => ⟨(directory, other), hzip, hnames⟩) hanswers
  listing := fun w' hsame directories _ => hsame.findLibrary_eq name directories

/-- A single directory tells whether it is one of the exceptions. -/
theorem OrderDecides.reports (h : w.OrderDecides name places) {place : Path}
    (hplace : place ∈ places) : w.Reports name.toList place := by
  have hfails := h.fails_iff [place] (by simpa using hplace)
  rw [exists_findLibrary_eq_error_iff, List.forall_mem_singleton, List.forall_mem_singleton,
    findLibraryIn_eq_none_iff_of_filled (filled _ hplace) whole literal] at hfails
  have hshort : ¬ w.Overreaches name.toList place := fun hover =>
    (hfails.2 (hover.not_holds (filled _ hplace) whole)).2 hover
  exact ⟨fun hoverlooks => hfails.1 ⟨Or.inr hoverlooks, hshort⟩ hoverlooks.holds, hshort⟩

end Lists

/-- **When the order of the directories decides and nothing else.** For a plain name and lists of
directories among some places, it does exactly if none of the places is overlooked or overreaches.

What two lists one behind the other answer, and that listings may come in any order, is the same for
all names and places. -/
theorem orderDecides_iff (w : World) (name : String) (places : List Path)
    (whole : '/' ∉ name.toList) (literal : ∀ c ∈ name.toList, Glob.isMeta c = false)
    (filled : ∀ place ∈ places, place.chars ≠ []) :
    (w.OrderDecides name places ↔
      ∀ place ∈ places, ¬ w.Overlooks name.toList place ∧ ¬ w.Overreaches name.toList place) ∧
    ∀ front back, w.Concatenates name front back ∧
      ∀ w', w.SameFiles w' → w.findLibrary name front = w'.findLibrary name front :=
  ⟨⟨fun h _ hplace => h.reports whole literal filled hplace,
      orderDecides_of_reports whole literal filled⟩,
    fun front back => ⟨concatenates w name front back,
      fun _ hsame => hsame.findLibrary_eq name front⟩⟩

end World

/-! ### Two directories that hold the same -/

namespace Sample

theorem isPlainName_place : isPlainName "d".toList = true := by rfl

theorem isPlainName_version : isPlainName "libfoo.so.3".toList = true := by rfl

/-- A versioned shared object. -/
def versionName : FileName := ⟨"libfoo.so.3".toList, isPlainName_version⟩

/-- A directory with nothing else in it. -/
def versionPlace : Node := .directory [(versionName, .file ⟨[], false, none⟩)]

/-- Two such directories, one of which has characters of meaning in its name. -/
def namesakeTree : Tree where
  children :=
    [(⟨"d".toList, isPlainName_place⟩, versionPlace), (⟨"v[1]".toList, by rfl⟩, versionPlace)]
  proper := by rfl

/-- The working directory is the plain one. -/
def namesakeWorld : World :=
  .ofTree namesakeTree [⟨"d".toList, isPlainName_place⟩]

theorem find_namesakeWorld {place : Path} (h : place ∈ (["./", ".", "/v[1]"] : List Path)) :
    namesakeWorld.find place = .ok versionPlace := by
  simp only [List.mem_cons, List.not_mem_nil, or_false] at h
  rcases h with rfl | rfl | rfl
  · rfl
  · rfl
  · rfl

/-- However they are spelled, both directories hold the shared object. -/
theorem hasVersion_namesakeWorld {place : Path} (h : place ∈ (["./", ".", "/v[1]"] : List Path))
    (file : FileName) : namesakeWorld.HasVersion "foo".toList place file ↔ file = versionName := by
  have hentry : namesakeWorld.HasEntry place file ↔ file = versionName := by
    rw [World.hasEntry_iff, find_namesakeWorld h, versionPlace]
    simp
  rw [World.HasVersion, hentry, and_iff_left_iff_imp]
  rintro rfl
  decide

/-- With a separator behind the dot the shared object is not found. -/
theorem not_orderDecides : ¬ namesakeWorld.OrderDecides "foo" ["./"] := by
  intro hdecides
  have hmissed : ∃ e, namesakeWorld.findLibrary "foo" ["./"] = .error e := by
    rw [World.exists_findLibrary_eq_error_iff, List.forall_mem_singleton]
    decide +kernel
  have hnone := (hdecides.fails_iff ["./"] (List.Subset.refl _)).1 hmissed
  exact hnone "./" (List.mem_singleton_self _)
    (Or.inr ⟨versionName, (hasVersion_namesakeWorld (by simp) _).2 rfl⟩)

/-- Without it the order decides, and the directories answer alike. -/
theorem orderDecides_iff_namesakes :
    namesakeWorld.OrderDecides "foo" [".", "/v[1]"] ∧
    namesakeWorld.AnswersAlike "foo" ["."] ["/v[1]"] ∧
    namesakeWorld.findLibrary "foo" [".", "/v[1]"] = .ok "libfoo.so.3" := by
  obtain ⟨hiff, -⟩ := World.orderDecides_iff namesakeWorld "foo" [".", "/v[1]"] (by decide)
    (Glob.literal_of_all (by decide)) (by simp [Path.ofString])
  have hdecides : namesakeWorld.OrderDecides "foo" [".", "/v[1]"] := by
    refine hiff.2 fun place hplace => ?_
    rw [List.mem_cons, List.mem_singleton] at hplace
    rcases hplace with rfl | rfl
    · have htidy : Path.IsTidy "." := by decide
      exact ⟨fun hoverlooks => hoverlooks.2.1 htidy, fun hover => absurd hover.1 (by decide)⟩
    · have habsolute : Path.isAbsolute "/v[1]" = true := by decide
      refine ⟨fun hoverlooks => ?_, fun hover => absurd hover.1 (by decide)⟩
      exact Bool.false_ne_true (hoverlooks.1.symm.trans habsolute)
  have halike : namesakeWorld.HoldsAlike "foo".toList "." "/v[1]" := by
    refine ⟨by decide +kernel, fun file => ?_⟩
    rw [hasVersion_namesakeWorld (by simp), hasVersion_namesakeWorld (by simp)]
  exact ⟨hdecides, hdecides.spelling ["."] ["/v[1]"] (by simp) (by simp) (.cons halike .nil),
    by decide +kernel⟩

end Sample

end ExtensionPlan
