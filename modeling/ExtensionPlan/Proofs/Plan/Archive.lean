import ExtensionPlan.Proofs.Plan.Directives

/-!
# ExtensionPlan.Proofs.Plan.Archive

**What the kernel archive adds.** A plan without the archive does not look at the archive's settings
at all. A plan with it fails where the one without it fails, and in the same way; where that one
succeeds it is the same, with one library more at the end and with the directories to link from and
to load from (`Configuration.planWith_withArchive`).

Both plans assemble the same artifact (`Configuration.assembled`). What is left to show is that the
archive is no new reason to fail: its directories can be told whenever the working directory can.
-/

namespace ExtensionPlan

namespace Configuration

variable {c : Configuration} {locator : Locator} {w : World}

/-! ### The directories of the archive -/

/-- Empty paths do not count, and if nothing is left there is the source directory. -/
theorem exists_archiveDirectories {cwd dir : Path} (hcwd : w.currentDirectory = .ok cwd)
    (hsource : c.sourceDirectory w = .ok dir) : ∃ dirs, c.archiveDirectories w = .ok dirs := by
  unfold archiveDirectories
  dsimp only
  split
  · exact ⟨_, by rw [hsource]; rfl⟩
  · refine exists_mapM_eq_ok_iff.2 fun p hp => ⟨_, absolute_eq_ok_of_filled ?_ hcwd⟩
    simpa using (List.mem_filter.1 hp).2

/-! ### Plans that differ in the archive -/

/-- The configuration with other settings of the kernel archive. -/
def withArchive (c : Configuration) (aot : Toggle) (archive : String) (archiveDirs : List Path) :
    Configuration :=
  { c with aot := aot, archive := archive, archiveDirs := archiveDirs }

/-- The artifact of a plan before it comes to the archive. -/
def assembled (c : Configuration) (locator : Locator) (w : World) : Except PlanError Artifact :=
  (c.resolveWith locator w).result >>= fun t =>
    SourceSet.discover c w >>= fun s => Artifact.assemble c t s w

theorem assembled_withArchive (c : Configuration) (aot : Toggle) (archive : String)
    (archiveDirs : List Path) :
    (c.withArchive aot archive archiveDirs).assembled locator w = c.assembled locator w := rfl

/-- Where an artifact was assembled there is a source directory, and nothing is linked from anywhere
yet. -/
theorem exists_sourceDirectory_of_assembled {a : Artifact}
    (h : c.assembled locator w = .ok a) :
    a.linkDirs = [] ∧ ∃ dir, c.sourceDirectory w = .ok dir := by
  unfold assembled at h
  simp only [bind_eq_ok_iff] at h
  obtain ⟨t, -, s, -, ha⟩ := h
  obtain ⟨-, dir, hdir, parent, -, bindings, -, rfl⟩ := Artifact.assemble_eq_ok_iff.1 ha
  exact ⟨rfl, dir, hdir⟩

/-- A plan comes to the archive with what it assembled. -/
theorem result_planWith_eq (c : Configuration) (locator : Locator) (w : World) :
    (c.planWith locator w).result = c.assembled locator w >>= fun a =>
      if c.aot.isEnabled then
        KernelArchive.ofConfiguration c w >>= fun archive =>
          (a.withArchive archive).embedRuntimePath
      else .ok a := by
  rw [result_planWith, assembled]
  simp only [bind_assoc]

/-- What was assembled can be linked with the archive and made to find it. -/
theorem exists_planWith_of_assembled {cwd : Path} {b : Artifact}
    (hcwd : w.currentDirectory = .ok cwd) (henabled : c.aot = .enabled)
    (hb : c.assembled locator w = .ok b) :
    ∃ linkDirs runtimePath, (c.planWith locator w).result = .ok
      { b with
        libraries := b.libraries ++ [.ofName c.archive]
        linkDirs := linkDirs
        runtimePath := runtimePath } := by
  obtain ⟨hlinkDirs, dir, hdir⟩ := exists_sourceDirectory_of_assembled hb
  obtain ⟨dirs, hdirs⟩ := exists_archiveDirectories hcwd hdir
  have harchive : KernelArchive.ofConfiguration c w = .ok ⟨c.archive, dirs⟩ :=
    map_eq_ok_iff.2 ⟨dirs, hdirs, rfl⟩
  obtain ⟨-, hembedded⟩ :=
    KernelArchive.embedRuntimePath_withArchive harchive hlinkDirs
  have hwanted : c.aot.isEnabled = true := by rw [henabled]; rfl
  refine ⟨Path.dedup dirs, some ⟨[RuntimePath.originToken], Path.dedup dirs⟩, ?_⟩
  rw [result_planWith_eq, hb, ok_bind, if_pos hwanted, harchive, ok_bind, hembedded]

/-- **What the kernel archive adds.** Without the archive, plans do not depend on its settings. If
the working directory can be told, plans with it and without it fail both and in the same way, or
they differ in one library at the end and in the directories that are linked from and embedded. -/
theorem planWith_withArchive (c : Configuration) (locator : Locator) (name name' : String)
    (dirs dirs' : List Path) :
    (c.withArchive .disabled name dirs).planWith locator =
        (c.withArchive .disabled name' dirs').planWith locator ∧
    ∀ w cwd, w.currentDirectory = .ok cwd →
      (∃ e, ((c.withArchive .enabled name dirs).planWith locator w).result = .error e ∧
        ((c.withArchive .disabled name' dirs').planWith locator w).result = .error e) ∨
      ∃ a b, ((c.withArchive .enabled name dirs).planWith locator w).result = .ok a ∧
        ((c.withArchive .disabled name' dirs').planWith locator w).result = .ok b ∧
        a = { b with
          libraries := b.libraries ++ [.ofName name]
          linkDirs := a.linkDirs
          runtimePath := a.runtimePath } := by
  refine ⟨rfl, fun w cwd hcwd => ?_⟩
  have hdisabled : ((c.withArchive .disabled name' dirs').planWith locator w).result =
      c.assembled locator w := by
    rw [result_planWith_eq, assembled_withArchive]
    exact bind_pure _
  have henabled : (c.withArchive .enabled name dirs).assembled locator w =
      c.assembled locator w := assembled_withArchive c _ _ _
  rw [hdisabled]
  cases hassembled : c.assembled locator w with
  | error e =>
      refine Or.inl ⟨e, ?_, rfl⟩
      rw [result_planWith_eq, henabled, hassembled]
      rfl
  | ok b =>
      rw [hassembled] at henabled
      obtain ⟨linkDirs, runtimePath, ha⟩ := exists_planWith_of_assembled hcwd rfl henabled
      exact Or.inr ⟨_, b, ha, rfl, rfl⟩

end Configuration

namespace Sample

/-- The archive of the installation is one library more. Its directory is not there yet, and the
directories that are given without it are not looked at. -/
theorem planWith_withArchive_sample :
    (∃ cwd, world.currentDirectory = .ok cwd) ∧
    ∃ a b,
      ((configuration.withArchive .enabled "kernels" ["", "x"]).planWith locator world).result =
        .ok a ∧
      ((configuration.withArchive .disabled "" ["missing/y"]).planWith locator world).result =
        .ok b ∧
      a = { b with
        libraries := b.libraries ++ [.ofName "kernels"]
        linkDirs := a.linkDirs
        runtimePath := a.runtimePath } ∧
      a.linkDirs = ["/x"] := by
  have hcwd : world.currentDirectory = .ok "/" := by rfl
  refine ⟨⟨_, hcwd⟩, ?_⟩
  obtain ⟨-, hplans⟩ :=
    Configuration.planWith_withArchive configuration locator "kernels" "" ["", "x"] ["missing/y"]
  have hlinked : ((configuration.withArchive .enabled "kernels" ["", "x"]).planWith locator
      world).result.toOption.map (·.linkDirs) = some (["/x"] : List Path) := by
    decide +kernel
  obtain ⟨a, ha, hdirs⟩ := Option.map_eq_some_iff.1 hlinked
  rw [toOption_eq_some_iff] at ha
  rcases hplans world "/" hcwd with ⟨e, he, -⟩ | ⟨a', b, ha', hb, hab⟩
  · rw [ha] at he
    cases he
  · rw [ha] at ha'
    cases ha'
    exact ⟨a, b, ha, hb, hab, hdirs⟩

end Sample

end ExtensionPlan
