import ExtensionPlan.Proofs.Glob.Relative
import ExtensionPlan.Proofs.Library.Regular
import ExtensionPlan.Proofs.World.Seen

/-!
# ExtensionPlan.Proofs.Library.Seen

**Libraries and where their directories are seen from.** In a directory and in the one that it is
seen as the same file of a library is found, if the two hold the same and a search gets to both of
them (`World.rel_findLibraryIn`). So it makes no difference to a list of directories
(`World.rel_findLibrary`).
-/

namespace ExtensionPlan

namespace World

variable {w : World} {cwd directory other : Path} {name : List Char}

/-- If the same entry is the first match in two directories that a search gets to, then related
paths are found in them. -/
theorem rel_findVersioned_of_isFirstMatch {R : Path → Path → Prop}
    (hdirectory : w.isDirectory directory = true) (hother : w.isDirectory other = true)
    (hreached : w.IsReached directory) (hreached' : w.IsReached other) (whole : '/' ∉ name)
    (hfirst : ∀ file, w.IsFirstMatch name directory file ↔ w.IsFirstMatch name other file)
    (hrel : ∀ file : FileName, R (entryPath (searched directory) file.path)
      (entryPath (searched other) file.path)) :
    Option.Rel R (w.findVersioned name directory) (w.findVersioned name other) := by
  have hversioned := fun p =>
    findVersioned_eq_some_iff_match (p := p) hdirectory whole hreached
  have hversioned' := fun p =>
    findVersioned_eq_some_iff_match (p := p) hother whole hreached'
  cases hfound : w.findVersioned name directory with
  | some p =>
      obtain ⟨file, hfile, rfl⟩ := (hversioned p).1 hfound
      rw [(hversioned' _).2 ⟨file, (hfirst file).1 hfile, rfl⟩]
      exact .some (hrel file)
  | none =>
      cases hfound' : w.findVersioned name other with
      | none => exact .none
      | some q =>
          obtain ⟨file, hfile, -⟩ := (hversioned' q).1 hfound'
          rw [(hversioned _).2 ⟨file, (hfirst file).2 hfile, rfl⟩] at hfound
          cases hfound

/-- Directories in which the same is found: the second is the first one as it is seen from the root,
they hold the same, and a search gets to both of them. -/
structure SearchedAlike (w : World) (cwd : Path) (name : List Char) (directory other : Path) :
    Prop where
  agree : w.Agree cwd directory other
  isDirectory : w.isDirectory directory = true
  searchable : w.IsSearchable directory
  searchable' : w.IsSearchable other
  files : ∀ file ∈ libraryFileNames name, w.Agree cwd (directory.join ⟨file⟩) (other.join ⟨file⟩)

theorem isFirstMatch_congr (h : w.Agree cwd directory other) (file : FileName) :
    w.IsFirstMatch name directory file ↔ w.IsFirstMatch name other file := by
  simp only [IsFirstMatch, HasMatch, h.hasEntry_iff_hasEntry]

section Alike

variable (hcwd : cwd.isAbsolute = true)

include hcwd

theorem isSeenAs_searched (h : Path.IsSeenAs cwd directory other)
    (filled : directory.chars ≠ []) :
    Path.IsSeenAs cwd (searched directory) (searched other) := by
  obtain ⟨habsolute, hsteps⟩ := (Path.isSeenAs_iff hcwd).1 h
  rw [Path.isSeenAs_iff hcwd, isAbsolute_searched_eq filled,
    isAbsolute_searched_eq (Path.filled_of_isAbsolute habsolute), steps_searched, steps_searched]
  exact ⟨habsolute, hsteps⟩

theorem rel_findVersioned (h : w.SearchedAlike cwd name directory other) (whole : '/' ∉ name) :
    Option.Rel (Path.IsSeenAs cwd) (w.findVersioned name directory)
      (w.findVersioned name other) := by
  have hother := h.agree.isDirectory_eq ▸ h.isDirectory
  have filled := (isSpellable_of_isDirectory h.isDirectory).filled
  refine rel_findVersioned_of_isFirstMatch h.isDirectory hother h.searchable.isReached
    h.searchable'.isReached whole (isFirstMatch_congr h.agree) fun file => ?_
  rw [h.searchable.entryPath_eq, h.searchable'.entryPath_eq]
  exact (isSeenAs_searched hcwd h.agree.seen filled).join hcwd file.path

/-- **One directory.** The file that is found in the second directory is the one that is found in
the first, as it is seen from the root. -/
theorem rel_findLibraryIn (h : w.SearchedAlike cwd name directory other) (whole : '/' ∉ name) :
    Option.Rel (Path.IsSeenAs cwd) (w.findLibraryIn name directory)
      (w.findLibraryIn name other) := by
  have hnames : List.Forall₂ (w.Agree cwd)
      ((libraryFileNames name).map fun file => directory.join ⟨file⟩)
      ((libraryFileNames name).map fun file => other.join ⟨file⟩) := by
    rw [List.forall₂_map_left_iff, List.forall₂_map_right_iff, List.forall₂_same]
    exact h.files
  have hfixed : Option.Rel (w.Agree cwd) (w.firstFile directory (libraryFileNames name))
      (w.firstFile other (libraryFileNames name)) :=
    rel_find? hnames fun p q hagree => hagree.isFile_eq
  rw [findLibraryIn_eq_or, findLibraryIn_eq_or]
  exact rel_or (rel_imp (fun p q hagree => hagree.seen) hfixed)
    (rel_findVersioned hcwd h whole)

/-- **A list of directories.** So it is for directories one after the other. -/
theorem rel_findLibrary {name : String} {directories others : List Path}
    (h : List.Forall₂ (w.SearchedAlike cwd name.toList) directories others)
    (whole : '/' ∉ name.toList) :
    Option.Rel (Path.IsSeenAs cwd) (w.findLibrary name directories).toOption
      (w.findLibrary name others).toOption := by
  rw [toOption_findLibrary, toOption_findLibrary]
  exact rel_findSome? (h.imp fun directory other halike =>
    rel_findLibraryIn hcwd halike whole)

end Alike

end World

end ExtensionPlan
