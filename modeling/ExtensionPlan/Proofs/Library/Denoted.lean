import ExtensionPlan.Proofs.Library

/-!
# ExtensionPlan.Proofs.Library.Denoted

**The files of a directory.** A library file may be shown in a spelling that is not that of its
directory, so that it is in there is said by where it leads: along its path one comes to what has
its name in the directory (`World.Denotes`). Whatever a directory answers with, when it is searched
for a library, is in there in this sense (`World.denotes_of_findLibraryIn`).
-/

namespace ExtensionPlan

namespace World

variable {w : World} {directory p : Path}

/-! ### Entries -/

/-- The path is one of an entry of the directory: the entry has its file name, and all ways along
the path are ways along the directory and on by that name. -/
def Denotes (w : World) (p directory : Path) : Prop :=
  ∃ name : FileName, w.HasEntry directory name ∧ p.fileName? = some name.chars ∧
    ∀ back, w.walk p (Tree.piecesOf p ++ back) =
      w.walk directory (Tree.piecesOf directory ++ name.chars :: back)

/-- A file is denoted by its name behind the directory. -/
theorem denotes_join {file : List Char} (hname : IsName file)
    (hdirectory : w.isDirectory directory = true)
    (hfile : w.isFile (directory.join ⟨file⟩) = true) :
    w.Denotes (directory.join ⟨file⟩) directory := by
  obtain ⟨children, hchildren⟩ := isDirectory_iff.1 hdirectory
  obtain ⟨content, hcontent⟩ := isFile_iff.1 hfile
  have hjoin := walk_join (w := w) hname.whole directory []
  rw [List.append_nil, (find_eq_ok_iff.1 hcontent).2] at hjoin
  obtain ⟨children', hwalk, name, child, rfl, hchild, -⟩ := exists_lookup_of_walk hname hjoin.symm
  rw [(find_eq_ok_iff.1 hchildren).2] at hwalk
  cases hwalk
  have hmem := List.mem_map_of_mem (f := Prod.fst) (Node.mem_of_lookup hchild)
  exact ⟨name, hasEntry_iff.2 ⟨children, hchildren, hmem⟩, Path.fileName?_join directory hname,
    fun back => walk_join hname.whole directory back⟩

/-- So is an entry that a search shows in the directory. -/
theorem denotes_entryPath {name : FileName} (hdirectory : w.isDirectory directory = true)
    (hentry : w.HasEntry (searched directory) name) :
    w.Denotes (entryPath (searched directory) name.path) directory := by
  obtain ⟨children, hchildren⟩ := isDirectory_iff.1 hdirectory
  obtain ⟨hspellable, hwalk⟩ := find_eq_ok_iff.1 hchildren
  obtain ⟨children', hchildren', hmem⟩ := hasEntry_iff.1 hentry
  have hsame := walk_searched (w := w) hspellable.filled []
  rw [List.append_nil, List.append_nil, (find_eq_ok_iff.1 hchildren').2, hwalk] at hsame
  cases hsame
  refine ⟨name, hasEntry_iff.2 ⟨children, hchildren, hmem⟩,
    fileName?_entryPath _ name.isName, fun back => ?_⟩
  exact (walk_entryPath name.isName.whole _ back).trans
    (walk_searched hspellable.filled (name.chars :: back))

/-! ### Libraries -/

theorem denotes_of_findVersioned {name : List Char} (whole : '/' ∉ name)
    (literal : ∀ c ∈ name, Glob.isMeta c = false) (hdirectory : w.isDirectory directory = true)
    (h : w.findVersioned name directory = some p) : w.Denotes p directory := by
  obtain ⟨file, hentry, rfl, -⟩ := exists_entry_of_findVersioned whole literal h
  exact denotes_entryPath hdirectory hentry

/-- The file of a library is in the directory where it was found. -/
theorem denotes_of_findLibraryIn {name : List Char} (whole : '/' ∉ name)
    (literal : ∀ c ∈ name, Glob.isMeta c = false) (hdirectory : w.isDirectory directory = true)
    (h : w.findLibraryIn name directory = some p) : w.Denotes p directory := by
  unfold findLibraryIn at h
  cases hfixed : ((libraryFileNames name).map fun file => directory.join ⟨file⟩).find? w.isFile with
  | some q =>
      rw [hfixed] at h
      cases h
      obtain ⟨file, hfile, rfl⟩ := List.mem_map.1 (List.mem_of_find?_eq_some hfixed)
      exact denotes_join (isName_of_mem_libraryFileNames whole hfile) hdirectory
        (List.find?_some hfixed)
  | none =>
      rw [hfixed] at h
      exact denotes_of_findVersioned whole literal hdirectory h

theorem exists_denotes_of_findLibrary {name : String} {directories : List Path}
    (hname : IsLinkName name.toList) (hall : ∀ dir ∈ directories, w.isDirectory dir = true)
    (h : w.findLibrary name directories = .ok p) : ∃ dir ∈ directories, w.Denotes p dir := by
  obtain ⟨dir, hdir, hfound⟩ := exists_directory_of_findLibrary h
  exact ⟨dir, hdir, denotes_of_findLibraryIn hname.whole hname.literal (hall dir hdir) hfound⟩

end World

end ExtensionPlan
