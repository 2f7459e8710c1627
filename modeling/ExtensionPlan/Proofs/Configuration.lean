import ExtensionPlan.Configuration
import ExtensionPlan.Proofs.Path.Spelling
import ExtensionPlan.Proofs.Run

/-!
# ExtensionPlan.Proofs.Configuration

**Directories of a configuration.** However the directories were spelled, on use they are seen from
the root (`Configuration.isAbsolute_of_absolute`), and there is always a directory for the kernel
archive (`Configuration.archiveDirectories_ne_nil`). A directory that cannot be told is a failure
of the system, never of the configuration.
-/

namespace ExtensionPlan

namespace World

theorem isAbsolute_of_currentDirectory {w : World} {p : Path}
    (h : w.currentDirectory = .ok p) : p.isAbsolute = true := by
  unfold currentDirectory at h
  split at h
  · cases h
    rfl
  · cases h

theorem isAbsolute_of_absolute {w : World} {p q : Path} (h : w.absolute p = .ok q) :
    q.isAbsolute = true := by
  unfold absolute at h
  split at h
  · cases h
  · split at h
    · cases h
      exact Path.isAbsolute_absoluteFrom p rfl
    · obtain ⟨cwd, hcwd, rfl⟩ := map_eq_ok_iff.1 h
      exact Path.isAbsolute_absoluteFrom p (isAbsolute_of_currentDirectory hcwd)

/-- From a working directory that can be told every path is seen from the root, the empty one
apart. -/
theorem absolute_of_currentDirectory {w : World} {p cwd : Path} (filled : p.isEmpty = false)
    (h : w.currentDirectory = .ok cwd) : w.absolute p = .ok (p.absoluteFrom cwd) := by
  unfold absolute
  rw [filled, if_neg Bool.false_ne_true]
  by_cases habsolute : p.isAbsolute = true
  · simp [Path.absoluteFrom, habsolute]
  · rw [if_neg habsolute, h]
    rfl

end World

/-- The failure is one of the system. -/
def PlanError.IsSystem (e : PlanError) : Prop := ∃ path cause, e = .system path cause

namespace Configuration

variable {c : Configuration} {w : World}

/-! ### Paths seen from the root -/

theorem isAbsolute_of_absolute {p q : Path} (h : absolute w p = .ok q) : q.isAbsolute = true :=
  World.isAbsolute_of_absolute (mapError_eq_ok_iff.1 h)

theorem absolute_eq_ok_of_filled {p cwd : Path} (filled : p.isEmpty = false)
    (h : w.currentDirectory = .ok cwd) : absolute w p = .ok (p.absoluteFrom cwd) :=
  mapError_eq_ok_iff.2 (World.absolute_of_currentDirectory filled h)

theorem isSystem_of_absolute {p : Path} {e : PlanError} (h : absolute w p = .error e) :
    e.IsSystem := by
  obtain ⟨cause, -, rfl⟩ := mapError_eq_error_iff.1 h
  exact ⟨p, cause, rfl⟩

theorem isAbsolute_of_sourceDirectory {dir : Path} (h : c.sourceDirectory w = .ok dir) :
    dir.isAbsolute = true := isAbsolute_of_absolute h

theorem isSystem_of_sourceDirectory {e : PlanError} (h : c.sourceDirectory w = .error e) :
    e.IsSystem := isSystem_of_absolute h

/-! ### Neighbours of the source directory -/

theorem parentDirectory_eq_error_iff {e : PlanError} :
    c.parentDirectory w = .error e ↔ c.sourceDirectory w = .error e := map_eq_error_iff

theorem bindingsDirectory_eq_error_iff {e : PlanError} :
    c.bindingsDirectory w = .error e ↔ c.sourceDirectory w = .error e :=
  map_eq_error_iff.trans parentDirectory_eq_error_iff

theorem isAbsolute_of_parentDirectory {dir : Path} (h : c.parentDirectory w = .ok dir) :
    dir.isAbsolute = true := by
  obtain ⟨source, hsource, rfl⟩ := map_eq_ok_iff.1 h
  have habsolute := isAbsolute_of_sourceDirectory hsource
  cases hp : source.parent? with
  | none => exact habsolute
  | some above => exact Path.isAbsolute_parent? habsolute hp

theorem isAbsolute_of_bindingsDirectory {dir : Path} (h : c.bindingsDirectory w = .ok dir) :
    dir.isAbsolute = true := by
  obtain ⟨parent, hparent, rfl⟩ := map_eq_ok_iff.1 h
  exact Path.isAbsolute_join (isAbsolute_of_parentDirectory hparent) _

/-! ### The directories of the kernel archive -/

/-- If no directory is named there is the one below the source directory. -/
theorem archiveDirectories_ne_nil {dirs : List Path} (h : c.archiveDirectories w = .ok dirs) :
    dirs ≠ [] := by
  unfold archiveDirectories at h
  dsimp only at h
  split at h
  · obtain ⟨dir, -, rfl⟩ := map_eq_ok_iff.1 h
    exact List.cons_ne_nil _ _
  · next hfilled =>
    rintro rfl
    have hnil := List.forall₂_nil_right_iff.1 (mapM_eq_ok_iff.1 h)
    exact hfilled (by rw [hnil]; rfl)

theorem isAbsolute_of_mem_archiveDirectories {dirs : List Path}
    (h : c.archiveDirectories w = .ok dirs) : ∀ dir ∈ dirs, dir.isAbsolute = true := by
  intro dir hdir
  unfold archiveDirectories at h
  dsimp only at h
  split at h
  · obtain ⟨source, hsource, rfl⟩ := map_eq_ok_iff.1 h
    rw [List.mem_singleton] at hdir
    subst hdir
    have habsolute := isAbsolute_of_sourceDirectory hsource
    exact Path.isAbsolute_join (Path.isAbsolute_join habsolute _) _
  · obtain ⟨p, -, hp⟩ := exists_of_mapM_eq_ok h hdir
    exact isAbsolute_of_absolute hp

theorem isSystem_of_archiveDirectories {e : PlanError}
    (h : c.archiveDirectories w = .error e) : e.IsSystem := by
  unfold archiveDirectories at h
  dsimp only at h
  split at h
  · exact isSystem_of_sourceDirectory (map_eq_error_iff.1 h)
  · obtain ⟨p, -, hp⟩ := exists_of_mapM_eq_error h
    exact isSystem_of_absolute hp

end Configuration

end ExtensionPlan
