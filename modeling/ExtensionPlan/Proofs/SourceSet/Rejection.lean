import ExtensionPlan.Proofs.Glob.Validity
import ExtensionPlan.Proofs.SourceSet

/-!
# ExtensionPlan.Proofs.SourceSet.Rejection

**Who is to blame for a bad pattern.** Sources are searched three times: by the extension in the
source directory and in the directory of the bindings, and then by the name of the kernel. A pattern
is looked at only where its directory exists, and the first bad one is reported with the setting it
came from (`SourceSet.blames_discover_iff`). Whether it is bad depends on the text of the
setting alone, for a text is a pattern below a directory exactly if it is one by itself
(`Glob.isPattern_escape_append_iff`).

A directory that cannot be listed ends the search before a later pattern is looked at, so the kernel
is answered for only if there is none (`SourceSet.IsListed`).
-/

namespace ExtensionPlan

/-! ### Blame -/

/-- The result is that the value was refused for the key. -/
def Blames {α : Type} (result : Except PlanError α) (key value : String) : Prop :=
  ∃ reason, result = .error (.rejected key value reason)

theorem blames_bind_iff {α β : Type} {x : Except PlanError α} {f : α → Except PlanError β}
    {key value : String} :
    Blames (x >>= f) key value ↔ Blames x key value ∨ ∃ a, x = .ok a ∧ Blames (f a) key value := by
  cases x with
  | error e => simp [Blames, bind, Except.bind]
  | ok a => simp [Blames, bind, Except.bind]

theorem not_blames_pure {α : Type} (a : α) (key value : String) :
    ¬ Blames (pure a : Except PlanError α) key value := nofun

theorem PlanError.IsSystem.not_blames {α : Type} {e : PlanError} (h : e.IsSystem)
    (key value : String) : ¬ Blames (.error e : Except PlanError α) key value := by
  obtain ⟨path, cause, rfl⟩ := h
  exact nofun

/-- A text is searched for if and only if it is a pattern. -/
theorem World.exists_glob_eq_ok_iff {w : World} {text : List Char} :
    (∃ found, w.glob text = .ok found) ↔ Glob.IsPattern text := by
  unfold glob Glob.IsPattern
  simp only [bind_eq_ok_iff, pure_eq_ok_iff]
  constructor
  · intro ⟨_, pattern, hpattern, _⟩
    exact ⟨pattern, hpattern⟩
  · intro ⟨pattern, hpattern⟩
    exact ⟨_, pattern, hpattern, rfl⟩

namespace SourceSet

variable {c : Configuration} {w : World} {dir : Path} {pattern key value : String}
  {setting : Setting}

/-! ### One search -/

/-- If there is the directory, every directory that the search for the pattern comes to can be
listed. -/
def ListsAll (w : World) (dir : Path) (pattern : String) : Prop :=
  w.isDirectory dir = true →
    ∀ found, w.glob (Glob.escape dir.chars ++ '/' :: pattern.toList) = .ok found →
      ∀ e, .error e ∉ found

/-- The directory exists and the text is no pattern. -/
def Rejects (w : World) (dir : Path) (pattern : String) : Prop :=
  w.isDirectory dir = true ∧ ¬ Glob.IsPattern pattern.toList

theorem exists_glob_below_iff (w : World) (dir : Path) (pattern : String) :
    (∃ found, w.glob (Glob.escape dir.chars ++ '/' :: pattern.toList) = .ok found) ↔
      Glob.IsPattern pattern.toList :=
  World.exists_glob_eq_ok_iff.trans (Glob.isPattern_escape_append_iff _ _)

/-- A search blames the pattern it was given, and only for being none. -/
theorem blames_findIn_iff :
    Blames (findIn w dir pattern setting) key value ↔
      (key = setting.key ∧ value = pattern) ∧ Rejects w dir pattern := by
  rw [Rejects, ← exists_glob_below_iff w dir]
  unfold findIn Blames
  split
  · next hdirectory =>
    cases hglob : w.glob (Glob.escape dir.chars ++ '/' :: pattern.toList) with
    | ok found =>
        simp [bind_eq_error_iff, mapError_eq_error_iff, pure, Except.pure]
    | error e =>
        simp only [Except.error.injEq, PlanError.rejected.injEq, reduceCtorEq, exists_false,
          not_false_eq_true, and_true, hdirectory, exists_and_left, exists_eq', eq_comm (a := key),
          eq_comm (a := value)]
  · next hmissing => simp [hmissing]

/-- A search ends in files unless it blames its pattern, if all directories can be listed. -/
theorem exists_findIn_eq_ok_iff (setting : Setting) (hlisted : ListsAll w dir pattern) :
    (∃ files, findIn w dir pattern setting = .ok files) ↔ ¬ Rejects w dir pattern := by
  rw [Rejects, ← exists_glob_below_iff w dir]
  unfold findIn
  split
  · next hdirectory =>
    cases hglob : w.glob (Glob.escape dir.chars ++ '/' :: pattern.toList) with
    | ok found =>
        -- with a pattern that was read, only the listing of directories can fail
        have hpaths : ∃ paths, found.mapM id = .ok paths := by
          refine exists_mapM_eq_ok_iff.2 fun answer hanswer => ?_
          cases answer with
          | ok path => exact ⟨path, rfl⟩
          | error e => exact absurd hanswer (hlisted hdirectory found hglob e)
        obtain ⟨paths, hpaths⟩ := hpaths
        simp [hpaths, bind_eq_ok_iff, mapError_eq_ok_iff, pure, Except.pure]
    | error e => simp [hdirectory]
  · next hmissing => simp [hmissing]

/-! ### Three searches -/

/-- The pattern for sources with the extension. -/
def extensionPattern (c : Configuration) : String := "*." ++ c.sourceExtension

/-- One of the directories that are searched for it exists, and the pattern with the extension is
none. -/
def RejectsExtension (c : Configuration) (w : World) : Prop :=
  (∃ dir, (c.sourceDirectory w = .ok dir ∨ c.bindingsDirectory w = .ok dir) ∧
    w.isDirectory dir = true) ∧ ¬ Glob.IsPattern (extensionPattern c).toList

/-- The source directory exists, and the name of the kernel is no pattern. -/
def RejectsKernel (c : Configuration) (w : World) : Prop :=
  (∃ dir, c.sourceDirectory w = .ok dir ∧ w.isDirectory dir = true) ∧
    ¬ Glob.IsPattern c.kernelFile.toList

/-- What is searched for the extension can be listed. -/
def IsListed (c : Configuration) (w : World) : Prop :=
  ∀ dir, c.sourceDirectory w = .ok dir ∨ c.bindingsDirectory w = .ok dir →
    ListsAll w dir (extensionPattern c)

/-- Only the directory itself is listed for a plain extension, and that can be done. -/
theorem isListed_of_isPlain (h : IsPlain c.sourceExtension) : IsListed c w := by
  intro dir hdir hdirectory found hfound e he
  have habsolute : dir.isAbsolute = true := by
    rcases hdir with hdir | hdir
    · exact Configuration.isAbsolute_of_sourceDirectory hdir
    · exact Configuration.isAbsolute_of_bindingsDirectory hdir
  obtain ⟨names, -, -, hglob⟩ := exists_glob_star habsolute hdirectory h
  obtain rfl := Except.ok.inj (hfound.symm.trans hglob)
  simp at he

/-- Sources are searched where the directories can be told, one search after the other. -/
theorem discover_of_directories {bindingsDir : Path} (hdir : c.sourceDirectory w = .ok dir)
    (hbindings : c.bindingsDirectory w = .ok bindingsDir) :
    discover c w = (do
      let native ← findIn w dir (extensionPattern c) .sourceExtension
      let bindings ← findIn w bindingsDir (extensionPattern c) .sourceExtension
      let kernels ← findIn w dir c.kernelFile .kernelFile
      return ⟨native, bindings, kernels⟩) := by
  unfold discover
  rw [hdir, hbindings]
  rfl

/-- A directory that cannot be told is no fault of a pattern. -/
theorem not_blames_discover {e : PlanError} (h : c.sourceDirectory w = .error e)
    (key value : String) : ¬ Blames (discover c w) key value := by
  unfold discover
  rw [h]
  exact (Configuration.isSystem_of_sourceDirectory h).not_blames key value

theorem exists_bindingsDirectory (hdir : c.sourceDirectory w = .ok dir) :
    ∃ bindingsDir, c.bindingsDirectory w = .ok bindingsDir := by
  rw [Configuration.bindingsDirectory, Configuration.parentDirectory, hdir]
  exact ⟨_, rfl⟩

section Directories

variable {bindingsDir : Path} (hdir : c.sourceDirectory w = .ok dir)
  (hbindings : c.bindingsDirectory w = .ok bindingsDir)

include hdir

theorem rejectsKernel_iff : RejectsKernel c w ↔ Rejects w dir c.kernelFile := by
  simp [RejectsKernel, Rejects, hdir]

include hbindings

theorem rejectsExtension_iff :
    RejectsExtension c w ↔
      Rejects w dir (extensionPattern c) ∨ Rejects w bindingsDir (extensionPattern c) := by
  simp [RejectsExtension, Rejects, hdir, hbindings, or_and_right, exists_or]

/-- The searches are answered for in their order. -/
theorem blames_discover_iff_of_directories (hlisted : IsListed c w) :
    Blames (discover c w) key value ↔
      (key = "EXT_SOURCE_EXT" ∧ value = extensionPattern c) ∧
          Rejects w dir (extensionPattern c) ∨
        ¬ Rejects w dir (extensionPattern c) ∧
          ((key = "EXT_SOURCE_EXT" ∧ value = extensionPattern c) ∧
              Rejects w bindingsDir (extensionPattern c) ∨
            ¬ Rejects w bindingsDir (extensionPattern c) ∧
              (key = "EXT_KERNEL_FILE" ∧ value = c.kernelFile) ∧ Rejects w dir c.kernelFile) := by
  have hnative := hlisted dir (Or.inl hdir)
  have hbeside := hlisted bindingsDir (Or.inr hbindings)
  rw [← exists_findIn_eq_ok_iff .sourceExtension hnative,
    ← exists_findIn_eq_ok_iff .sourceExtension hbeside,
    discover_of_directories hdir hbindings]
  simp only [blames_bind_iff, not_blames_pure, and_false, exists_false, or_false, exists_and_right,
    blames_findIn_iff]
  rfl

end Directories

/-- **A bad pattern is blamed on its own setting.** With all directories readable, the extension is
blamed exactly where a directory that is searched for it exists and the pattern with it is none, and
otherwise the kernel exactly where the source directory exists and its name is no pattern; nothing
else is blamed. The directories have no part in what a pattern is. -/
theorem blames_discover_iff (hlisted : IsListed c w) (key value : String) :
    Blames (discover c w) key value ↔
      (key = "EXT_SOURCE_EXT" ∧ value = "*." ++ c.sourceExtension) ∧ RejectsExtension c w ∨
        (key = "EXT_KERNEL_FILE" ∧ value = c.kernelFile) ∧
          ¬ RejectsExtension c w ∧ RejectsKernel c w := by
  cases hdir : c.sourceDirectory w with
  | error e =>
      have hbindings := Configuration.bindingsDirectory_eq_error_iff.2 hdir
      have hextension : ¬ RejectsExtension c w := by simp [RejectsExtension, hdir, hbindings]
      have hkernel : ¬ RejectsKernel c w := by simp [RejectsKernel, hdir]
      have hnone := not_blames_discover hdir key value
      tauto
  | ok dir =>
      obtain ⟨bindingsDir, hbindings⟩ := exists_bindingsDirectory hdir
      rw [blames_discover_iff_of_directories hdir hbindings hlisted,
        rejectsExtension_iff hdir hbindings, rejectsKernel_iff hdir, extensionPattern]
      tauto

/-- The kernel's name is a class as a whole and nothing piece by piece. It is blamed in a directory
that is called like a pattern itself. -/
theorem blames_discover_iff_kernel :
    Blames (discover { Configuration.ofSourceDir "s[ab]*" .table with kernelFile := "k[a/b].cu" }
      patternWorld) "EXT_KERNEL_FILE" "k[a/b].cu" := by
  refine (blames_discover_iff (isListed_of_isPlain (by decide)) _ _).2 (Or.inr ⟨⟨rfl, rfl⟩, ?_, ?_⟩)
  · intro ⟨_, hextension⟩
    exact hextension (by decide +kernel)
  · exact ⟨⟨"/s[ab]*", by rfl, by decide +kernel⟩, by decide +kernel⟩

end SourceSet

end ExtensionPlan
