import ExtensionPlan.Proofs.Path.Resolved
import ExtensionPlan.Proofs.World.Location

/-!
# ExtensionPlan.Proofs.Configuration.Resolved

**Directories that are seen from the root beforehand.** The path of the working directory is spelled
as its steps behind the root, so a path that was made absolute once is not changed by doing it
again (`World.absolute_of_absolute`). A configuration can therefore name its directories by their
absolute forms instead, and whatever is asked of it about them is answered as before
(`Configuration.archiveDirectories_withAbsoluteDirs` and those before it).
-/

namespace ExtensionPlan

/-! ### Absolute forms -/

theorem Text.intercalate_cons (first : List Char) (others : List (List Char)) :
    ['/'].intercalate (first :: others) = first ++ others.flatMap ('/' :: ·) := by
  induction others generalizing first with
  | nil => rw [List.intercalate_singleton, List.flatMap_nil, List.append_nil]
  | cons next others ih =>
      rw [List.intercalate_cons_cons, ih next, List.append_assoc]
      rfl

namespace World

variable {w : World} {p q : Path}

/-- The path of a location is spelled as its steps behind the root. -/
theorem path_eq_follow (location : Location) :
    location.path = Path.follow ⟨['/']⟩ location.path.steps := by
  have hspelled := Path.areSpelled_steps location.path
  rw [steps_path, stepsTo] at hspelled ⊢
  rw [Location.path]
  cases hnames : location.reverse with
  | nil => rfl
  | cons first others =>
      rw [hnames] at hspelled
      have hchars := Path.chars_follow_root (Or.inl rfl) hspelled
      rw [List.map_cons, Text.intercalate_cons, List.flatMap_map]
      rw [List.flatMap_map] at hchars
      exact congrArg Path.mk hchars.symm

theorem isResolved_of_absolute (h : w.absolute p = .ok q) : q.IsResolved := by
  obtain ⟨-, cwd, rfl, hcwd⟩ := absolute_eq_ok_iff.1 h
  split at hcwd
  · rw [hcwd]
    exact Path.isResolved_absoluteFrom p rfl
  · refine Path.isResolved_absoluteFrom p ?_
    rw [(currentDirectory_eq_ok_iff.1 hcwd).2.2]
    exact path_eq_follow _

/-- **Absolute paths stay as they are.** -/
theorem absolute_of_absolute (h : w.absolute p = .ok q) : w.absolute q = .ok q := by
  have habsolute := isAbsolute_of_absolute h
  refine absolute_eq_ok_iff.2 ⟨Path.filled_of_isAbsolute habsolute, ⟨['/']⟩, ?_, ?_⟩
  · exact (Path.absoluteFrom_of_isResolved (isResolved_of_absolute h) _).symm
  · rw [if_pos habsolute]

/-- The path as seen from the root. One that cannot be seen from there stays as it is. -/
def absoluteForm (w : World) (p : Path) : Path := (w.absolute p).toOption.getD p

theorem absoluteForm_of_ok (h : w.absolute p = .ok q) : w.absoluteForm p = q := by
  rw [absoluteForm, h]
  rfl

theorem absoluteForm_of_error {cause : SystemError} (h : w.absolute p = .error cause) :
    w.absoluteForm p = p := by
  rw [absoluteForm, h]
  rfl

theorem isEmpty_absoluteForm (w : World) (p : Path) :
    (w.absoluteForm p).isEmpty = p.isEmpty := by
  cases h : w.absolute p with
  | ok q =>
      have hp := (absolute_eq_ok_iff.1 h).1
      have hq := Path.filled_of_isAbsolute (isAbsolute_of_absolute h)
      rw [absoluteForm_of_ok h, Path.isEmpty, Path.isEmpty, List.isEmpty_eq_false_iff.2 hp,
        List.isEmpty_eq_false_iff.2 hq]
  | error cause => rw [absoluteForm_of_error h]

end World

namespace Configuration

variable {c : Configuration} {w : World}

/-- A path and its absolute form have the same absolute form, or none for the same reason. -/
theorem absolute_absoluteForm (w : World) (p : Path) :
    absolute w (w.absoluteForm p) = absolute w p := by
  cases h : w.absolute p with
  | ok q =>
      rw [World.absoluteForm_of_ok h, absolute, absolute, h, World.absolute_of_absolute h]
      rfl
  | error cause => rw [World.absoluteForm_of_error h]

/-- The configuration with its directories in their absolute forms. Empty paths have none and stay
as they are. -/
def withAbsoluteDirs (c : Configuration) (w : World) : Configuration :=
  { c with
    sourceDir := w.absoluteForm c.sourceDir
    archiveDirs := c.archiveDirs.map w.absoluteForm }

/-! ### What is made of the directories -/

theorem sourceDirectory_withAbsoluteDirs (c : Configuration) (w : World) :
    (c.withAbsoluteDirs w).sourceDirectory w = c.sourceDirectory w :=
  absolute_absoluteForm w c.sourceDir

theorem parentDirectory_withAbsoluteDirs (c : Configuration) (w : World) :
    (c.withAbsoluteDirs w).parentDirectory w = c.parentDirectory w := by
  rw [parentDirectory, sourceDirectory_withAbsoluteDirs, parentDirectory]

theorem bindingsDirectory_withAbsoluteDirs (c : Configuration) (w : World) :
    (c.withAbsoluteDirs w).bindingsDirectory w = c.bindingsDirectory w := by
  rw [bindingsDirectory, parentDirectory_withAbsoluteDirs, bindingsDirectory]
  rfl

theorem archiveDirectories_withAbsoluteDirs (c : Configuration) (w : World) :
    (c.withAbsoluteDirs w).archiveDirectories w = c.archiveDirectories w := by
  have hfilter : (c.withAbsoluteDirs w).archiveDirs.filter (!·.isEmpty) =
      (c.archiveDirs.filter (!·.isEmpty)).map w.absoluteForm := by
    rw [withAbsoluteDirs, List.filter_map]
    simp only [Function.comp_def, World.isEmpty_absoluteForm]
  have hmapM : ∀ dirs : List Path,
      (dirs.map w.absoluteForm).mapM (absolute w) = dirs.mapM (absolute w) := by
    intro dirs
    rw [List.mapM_map]
    exact congrArg dirs.mapM (funext (absolute_absoluteForm w))
  rw [archiveDirectories, archiveDirectories, hfilter, hmapM, sourceDirectory_withAbsoluteDirs,
    List.isEmpty_map]

end Configuration

end ExtensionPlan
