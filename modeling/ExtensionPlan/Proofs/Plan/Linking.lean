import ExtensionPlan.Plan
import ExtensionPlan.Proofs.Artifact.Growth
import ExtensionPlan.Proofs.Configuration
import ExtensionPlan.Proofs.Toolchain

/-!
# ExtensionPlan.Proofs.Plan.Linking

**What a plan links.** `Configuration.result_planWith` reduces a plan to its stages, and
`Configuration.planWith_eq_ok_iff` says what each of them gave when there is one. The archive is
the last of them: its directories are seen from the root (`isAbsolute_of_mem_archiveDirectories`)
and there is one at least, so that there is always something to embed
(`KernelArchive.embedRuntimePath_withArchive`). The only thing that can be wrong with the located
parts is therefore that there is no native source.
-/

namespace ExtensionPlan

/-! ### Failures of discovery -/

theorem PlanError.IsSystem.not_isArtifact {e : PlanError} (h : e.IsSystem) : ¬ e.IsArtifact := by
  obtain ⟨path, cause, rfl⟩ := h
  exact not_isArtifact_system path cause

namespace SourceSet

theorem not_isArtifact_of_findIn {w : World} {dir : Path} {pattern : String}
    {setting : Setting} {e : PlanError} (h : findIn w dir pattern setting = .error e) :
    ¬ e.IsArtifact := by
  unfold findIn at h
  split at h
  · split at h
    · simp only [bind_eq_error_iff, mapError_eq_error_iff, pure, Except.pure, reduceCtorEq,
        and_false, exists_false, or_false] at h
      obtain ⟨unlisted, -, rfl⟩ := h
      exact PlanError.not_isArtifact_system _ _
    · cases h
      intro hartifact
      obtain ⟨fault, hfault⟩ := hartifact
      cases hfault
  · cases h

/-- Sources that cannot be told are no reason to find fault with the artifact. -/
theorem not_isArtifact_of_discover {c : Configuration} {w : World} {e : PlanError}
    (h : discover c w = .error e) : ¬ e.IsArtifact := by
  unfold discover at h
  simp only [bind_eq_error_iff, pure, Except.pure, reduceCtorEq, and_false, exists_false,
    or_false] at h
  rcases h with h | ⟨dir, -, h | ⟨native, -, h | ⟨bindingsDir, -, h | ⟨bindings, -, h⟩⟩⟩⟩
  · exact (Configuration.isSystem_of_sourceDirectory h).not_isArtifact
  · exact not_isArtifact_of_findIn h
  · rw [Configuration.bindingsDirectory_eq_error_iff] at h
    exact (Configuration.isSystem_of_sourceDirectory h).not_isArtifact
  · exact not_isArtifact_of_findIn h
  · exact not_isArtifact_of_findIn h

end SourceSet

/-! ### The kernel archive -/

/-- All that is linked for the archive of a configuration can be embedded, and something is. -/
theorem KernelArchive.embedRuntimePath_withArchive {c : Configuration} {w : World} {a : Artifact}
    {archive : KernelArchive} (h : ofConfiguration c w = .ok archive) (hdirs : a.linkDirs = []) :
    c.archiveDirectories w = .ok archive.libDirs ∧
    (a.withArchive archive).embedRuntimePath = .ok
      { a with
        libraries := a.libraries ++ [.ofName c.archive]
        linkDirs := Path.dedup archive.libDirs
        runtimePath := some ⟨[RuntimePath.originToken], Path.dedup archive.libDirs⟩ } := by
  obtain ⟨dirs, harchive, rfl⟩ := map_eq_ok_iff.1 h
  have hne : Path.dedup dirs ≠ [] :=
    Path.dedup_ne_nil (Configuration.archiveDirectories_ne_nil harchive)
  have habsolute : ∀ dir ∈ Path.dedup dirs, dir.isAbsolute = true := by
    intro dir hdir
    exact Configuration.isAbsolute_of_mem_archiveDirectories harchive dir
      (Path.mem_of_mem_dedup hdir)
  -- nothing is lost when the directories that are not absolute are left out
  have hall : (Path.dedup dirs).filter Path.isAbsolute = Path.dedup dirs :=
    List.filter_eq_self.2 habsolute
  have hlinked : (a.withArchive ⟨c.archive, dirs⟩).linkDirs = Path.dedup dirs := by
    rw [Artifact.withArchive_eq, hdirs]
    rfl
  refine ⟨harchive, ?_⟩
  rw [Artifact.embedRuntimePath_eq_ok_iff, hlinked, hall]
  refine ⟨hne, ?_⟩
  rw [Artifact.withArchive_eq, hdirs, Path.dedup]

namespace Configuration

variable {c : Configuration} {locator : Locator} {w : World}

/-! ### The stages of a plan -/

theorem result_planWith (c : Configuration) (locator : Locator) (w : World) :
    (c.planWith locator w).result =
      (c.resolveWith locator w).result >>= fun t =>
        SourceSet.discover c w >>= fun s =>
          Artifact.assemble c t s w >>= fun a =>
            if c.aot.isEnabled then
              KernelArchive.ofConfiguration c w >>= fun archive =>
                (a.withArchive archive).embedRuntimePath
            else .ok a := by
  unfold planWith
  simp only [Run.result_bind, Run.result_look]
  congr 1
  funext t
  congr 1
  funext s
  congr 1
  funext a
  cases haot : c.aot.isEnabled with
  | false => rfl
  | true =>
      simp only [if_true, Run.result_bind, Run.result_look, Artifact.result_linkArchive, haot]
      rfl

/-- There is a plan when the toolchain is resolved, the sources are found and make an artifact,
and the directories of the archive can be told if it is wanted. -/
theorem planWith_eq_ok_iff {b : Artifact} :
    (c.planWith locator w).result = .ok b ↔
      ∃ t, (c.resolveWith locator w).result = .ok t ∧
      ∃ s, SourceSet.discover c w = .ok s ∧
      ∃ a, Artifact.assemble c t s w = .ok a ∧
        (c.aot = .disabled → b = a) ∧
        (c.aot = .enabled → ∃ dirs, c.archiveDirectories w = .ok dirs ∧
          b = { a with
            libraries := a.libraries ++ [.ofName c.archive]
            linkDirs := Path.dedup dirs
            runtimePath := some ⟨[RuntimePath.originToken], Path.dedup dirs⟩ }) := by
  rw [result_planWith]
  simp only [bind_eq_ok_iff]
  refine exists_congr fun t => and_congr_right fun _ => ?_
  refine exists_congr fun s => and_congr_right fun _ => ?_
  refine exists_congr fun a => and_congr_right fun ha => ?_
  obtain ⟨-, dir, -, parent, -, bindings, -, hparts⟩ := Artifact.assemble_eq_ok_iff.1 ha
  have hdirs : a.linkDirs = [] := by rw [hparts]
  cases haot : c.aot with
  | disabled =>
      constructor
      · intro h
        exact ⟨fun _ => (Except.ok.inj h).symm, fun henabled => nomatch henabled⟩
      · intro h
        rw [h.1 rfl]
        rfl
  | enabled =>
      simp only [Toggle.isEnabled, BEq.rfl, if_true, bind_eq_ok_iff, reduceCtorEq, false_imp_iff,
        true_and, forall_const]
      constructor
      · intro h
        obtain ⟨archive, harchive, hb⟩ := h
        obtain ⟨hlibDirs, hembedded⟩ :=
          KernelArchive.embedRuntimePath_withArchive (a := a) harchive hdirs
        rw [hembedded] at hb
        exact ⟨archive.libDirs, hlibDirs, (Except.ok.inj hb).symm⟩
      · intro h
        obtain ⟨dirs, hlibDirs, rfl⟩ := h
        have harchive : KernelArchive.ofConfiguration c w = .ok ⟨c.archive, dirs⟩ :=
          map_eq_ok_iff.2 ⟨dirs, hlibDirs, rfl⟩
        exact ⟨_, harchive,
          (KernelArchive.embedRuntimePath_withArchive (a := a) harchive hdirs).2⟩

/-- The stages find fault with the parts only where they are assembled. -/
theorem planWith_eq_artifact_iff {fault : ArtifactFault} :
    (c.planWith locator w).result = .error (.artifact fault) ↔
      fault = .noSources c.sourceExtension c.sourceDir ∧
      ∃ t s, (c.resolveWith locator w).result = .ok t ∧ SourceSet.discover c w = .ok s ∧
        s.native = [] := by
  have hfault : PlanError.IsArtifact (.artifact fault) := ⟨fault, rfl⟩
  rw [result_planWith]
  simp only [bind_eq_error_iff]
  constructor
  · intro h
    rcases h with h | ⟨t, ht, h | ⟨s, hs, h | ⟨a, ha, h⟩⟩⟩
    · exact absurd hfault (Toolchain.failsOnly_resolve _ _ _ w _ h)
    · exact absurd hfault (SourceSet.not_isArtifact_of_discover h)
    · rcases Artifact.assemble_eq_error_iff.1 h with ⟨hnative, heq⟩ | ⟨-, h⟩
      · cases heq
        exact ⟨rfl, t, s, ht, hs, hnative⟩
      · rw [parentDirectory_eq_error_iff, bindingsDirectory_eq_error_iff, or_self, or_self] at h
        exact absurd hfault (isSystem_of_sourceDirectory h).not_isArtifact
    · split at h
      · rcases bind_eq_error_iff.1 h with h | ⟨archive, harchive, h⟩
        · have hsystem := isSystem_of_archiveDirectories (map_eq_error_iff.1 h)
          exact absurd hfault hsystem.not_isArtifact
        · -- an assembled artifact has no link directories yet, so this one embeds all it gets
          obtain ⟨-, dir, -, parent, -, bindings, -, hparts⟩ := Artifact.assemble_eq_ok_iff.1 ha
          obtain ⟨-, hembedded⟩ :=
            KernelArchive.embedRuntimePath_withArchive (a := a) harchive (by rw [hparts])
          rw [hembedded] at h
          cases h
      · cases h
  · intro h
    obtain ⟨rfl, t, s, ht, hs, hnative⟩ := h
    refine Or.inr ⟨t, ht, Or.inr ⟨s, hs, Or.inl ?_⟩⟩
    exact Artifact.assemble_eq_error_iff.2 (Or.inl ⟨hnative, rfl⟩)

/-- **What a plan links.** The libraries of a plan are the toolchain's three and, if it is wanted,
the archive. Its directories are then what is linked from and what is embedded, all of them seen
from the root. With all parts there, a plan fails for want of a native source only. -/
theorem linking_planWith (c : Configuration) (locator : Locator) (w : World) :
    (∀ a, (c.planWith locator w).result = .ok a →
      ∃ t, (c.resolveWith locator w).result = .ok t ∧
        (c.aot = .enabled →
          a.libraries = [t.tensor.library, t.tensor.bindingLibrary, t.cuda.runtime,
            .ofName c.archive] ∧
          (∃ dirs, c.archiveDirectories w = .ok dirs ∧ a.linkDirs = dirs.eraseDupsBy Path.same) ∧
          a.linkDirs ≠ [] ∧
          a.runtimePath = some ⟨[RuntimePath.originToken], a.linkDirs⟩ ∧
          ∀ dir ∈ a.linkDirs, dir.isAbsolute = true) ∧
        (c.aot = .disabled →
          a.libraries = [t.tensor.library, t.tensor.bindingLibrary, t.cuda.runtime] ∧
          a.linkDirs = [] ∧ a.runtimePath = none)) ∧
    ((∃ fault, (c.planWith locator w).result = .error (.artifact fault)) ↔
      ∃ t s, (c.resolveWith locator w).result = .ok t ∧ SourceSet.discover c w = .ok s ∧
        s.native = []) ∧
    ∀ module, (c.planWith locator w).result ≠ .error (.artifact (.noRuntimePath module)) := by
  refine ⟨fun b hb => ?_, ?_, fun module h => ?_⟩
  · obtain ⟨t, ht, s, -, a, ha, hdisabled, henabled⟩ := planWith_eq_ok_iff.1 hb
    obtain ⟨-, dir, -, parent, -, bindings, -, rfl⟩ := Artifact.assemble_eq_ok_iff.1 ha
    refine ⟨t, ht, fun haot => ?_, fun haot => ?_⟩
    · obtain ⟨dirs, hdirs, rfl⟩ := henabled haot
      have hne := Path.dedup_ne_nil (archiveDirectories_ne_nil hdirs)
      refine ⟨rfl, ⟨dirs, hdirs, Path.dedup_eq_eraseDupsBy dirs⟩, hne, rfl, fun dir hdir => ?_⟩
      exact isAbsolute_of_mem_archiveDirectories hdirs dir (Path.mem_of_mem_dedup hdir)
    · obtain rfl := hdisabled haot
      exact ⟨rfl, rfl, rfl⟩
  · constructor
    · intro h
      obtain ⟨fault, h⟩ := h
      exact (planWith_eq_artifact_iff.1 h).2
    · intro h
      exact ⟨_, planWith_eq_artifact_iff.2 ⟨rfl, h⟩⟩
  · cases (planWith_eq_artifact_iff.1 h).1

end Configuration

end ExtensionPlan
