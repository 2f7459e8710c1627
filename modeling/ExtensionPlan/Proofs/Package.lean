import ExtensionPlan.Package.Basic
import ExtensionPlan.Proofs.Library
import ExtensionPlan.Proofs.Path.Distinct

/-!
# ExtensionPlan.Proofs.Package

**What finding a package means.** `PackageSpec.find_eq_ok_iff` says what there is when a package is
found: its file, the directory it is installed in, one file for each required library and the
flags. `PackageSpec.find_eq_error` says what can be wrong otherwise. Whoever works with packages
uses these two, not the search.
-/

namespace ExtensionPlan

/-! ### Hints -/

/-- Hints are registered as paths are. -/
theorem SearchHints.dirs_register (hints : SearchHints) (dir : Path) :
    (hints.register dir).dirs = Path.register hints.dirs dir := by
  unfold register Path.register
  split <;> rfl

/-- The hints that are there stay in front. -/
theorem SearchHints.prefix_foldl_register (hints : SearchHints) (further : List Path) :
    hints.dirs <+: (further.foldl register hints).dirs := by
  induction further generalizing hints with
  | nil => exact List.prefix_refl hints.dirs
  | cons dir further ih =>
      refine List.IsPrefix.trans ?_ (ih (hints.register dir))
      rw [dirs_register]
      exact Path.prefix_register hints.dirs dir

namespace PackageSpec

variable {spec : PackageSpec} {hints : SearchHints} {w : World}

/-! ### Finding -/

/-- The package that is made of what was found. -/
def packageOf (spec : PackageSpec) (w : World) (packageFile installDir : Path)
    (required : List Path) (flags : FlagSet) : Package where
  name := spec.name
  packageFile := packageFile
  installDir := installDir
  includeDirs := existing w installDir spec.includeDirs
  libDirs := existing w installDir ["lib", "lib64"]
  libraries := required ++
    w.foundFiles (existing w installDir ["lib", "lib64"]) spec.optionalLibraries
  flags := flags

/-- A package is found when its file is, a directory around that has the headers, and the
directories of libraries below that have what is required. -/
theorem find_eq_ok_iff {package : Package} :
    spec.find hints w = .ok package ↔
      ∃ packageFile, spec.findPackageFile hints w = some packageFile ∧
      ∃ installDir, spec.findInstallDir packageFile w = some installDir ∧
      ∃ required, List.Forall₂
          (fun name file => w.findLibrary name (existing w installDir ["lib", "lib64"]) = .ok file)
          spec.requiredLibraries required ∧
      ∃ flags, spec.readFlags packageFile w = .ok flags ∧
        package = spec.packageOf w packageFile installDir required flags := by
  unfold find
  cases hfile : spec.findPackageFile hints w with
  | none => simp [bind, Except.bind]
  | some packageFile =>
      cases hdir : spec.findInstallDir packageFile w with
      | none => simp [bind, Except.bind, hdir]
      | some installDir =>
          simp only [bind_eq_ok_iff, pure_eq_ok_iff, mapM_eq_ok_iff, mapError_eq_ok_iff,
            Except.ok.injEq, Option.some.injEq, exists_eq_left', hdir]
          refine exists_congr fun required => and_congr_right fun _ => ?_
          exact exists_congr fun flags => and_congr_right fun _ => eq_comm

/-- If no package is found then something of it is missing, or its file cannot be read. -/
theorem find_eq_error {e : PlanError} (h : spec.find hints w = .error e) :
    (∃ shortfall, e = .missing spec.name shortfall) ∨
      ∃ packageFile cause, spec.findPackageFile hints w = some packageFile ∧
        w.readText packageFile = .error cause ∧ e = .system packageFile cause := by
  unfold find at h
  cases hfile : spec.findPackageFile hints w with
  | none =>
      rw [hfile] at h
      cases h
      exact Or.inl ⟨_, rfl⟩
  | some packageFile =>
      rw [hfile] at h
      cases hdir : spec.findInstallDir packageFile w with
      | none =>
          simp only [bind, Except.bind, hdir] at h
          cases h
          exact Or.inl ⟨_, rfl⟩
      | some installDir =>
          simp only [bind_eq_error_iff, pure, Except.pure, reduceCtorEq, false_or, or_false,
            and_false, exists_false, Except.ok.injEq, exists_eq_left', hdir] at h
          rcases h with h | ⟨required, -, h⟩
          · obtain ⟨name, -, h⟩ := exists_of_mapM_eq_error h
            obtain ⟨cause, -, rfl⟩ := mapError_eq_error_iff.1 h
            exact Or.inl ⟨_, rfl⟩
          · unfold readFlags at h
            split at h
            · cases h
            · obtain ⟨cause, hread, rfl⟩ := mapError_eq_error_iff.1 (map_eq_error_iff.1 h)
              exact Or.inr ⟨packageFile, cause, rfl, hread, rfl⟩

/-! ### Its directories -/

theorem isDirectory_of_mem_existing {installDir : Path} {places : List String} {dir : Path}
    (h : dir ∈ existing w installDir places) : w.isDirectory dir = true :=
  (List.mem_filter.1 h).2

/-- A package is installed where its first include directory is. -/
theorem isDirectory_of_findInstallDir {packageFile installDir : Path}
    (h : spec.findInstallDir packageFile w = some installDir) :
    w.isDirectory (installDir.join spec.primaryInclude) = true := by
  unfold findInstallDir at h
  have hfound := List.find?_some h
  exact hfound

/-- The first include directory of a package is there, and all that it has are. -/
theorem exists_includeDirs_of_find {package : Package} (h : spec.find hints w = .ok package)
    {first : String} {others : List String} (hspec : spec.includeDirs = first :: others) :
    package.includeDirs = package.installDir.join first ::
      existing w package.installDir others := by
  obtain ⟨packageFile, -, installDir, hdir, required, -, flags, -, rfl⟩ := find_eq_ok_iff.1 h
  have hfirst := isDirectory_of_findInstallDir hdir
  rw [primaryInclude, hspec, List.head?_cons, Option.getD_some] at hfirst
  show existing w installDir spec.includeDirs = _
  rw [hspec, existing, List.map_cons, List.filter_cons, if_pos hfirst]
  rfl

theorem isDirectory_of_mem_find {package : Package} (h : spec.find hints w = .ok package) :
    (∀ dir ∈ package.includeDirs, w.isDirectory dir = true) ∧
      ∀ dir ∈ package.libDirs, w.isDirectory dir = true := by
  obtain ⟨packageFile, -, installDir, -, required, -, flags, -, rfl⟩ := find_eq_ok_iff.1 h
  exact ⟨fun dir hdir => isDirectory_of_mem_existing hdir,
    fun dir hdir => isDirectory_of_mem_existing hdir⟩

end PackageSpec

end ExtensionPlan
