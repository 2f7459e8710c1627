import ExtensionPlan.Proofs.Artifact.Compilation
import ExtensionPlan.Proofs.Configuration.Resolved
import ExtensionPlan.Proofs.Glob.Rooted
import ExtensionPlan.Proofs.Plan.Directives

/-!
# ExtensionPlan.Proofs.Plan.Spelling

**The spelling of directories does not matter.** A plan uses the directories of its configuration
as they are seen from the root, so a configuration that names them in that form leads to the same
plan, after the same events (`Configuration.planWith_withAbsoluteDirs`). As they are spelled they
are shown in one place only, when there is no native source, and there the failure shows the other
spelling. All other failures come from stages that see what they saw before: the toolchain is
resolved without any of these directories, and the stages after it get equal values.
-/

namespace ExtensionPlan

/-- The failure as it is when the source directory is spelled as it is seen from the root. -/
def PlanError.seenFrom (w : World) : PlanError → PlanError
  | .artifact (.noSources extension directory) =>
    .artifact (.noSources extension (w.absoluteForm directory))
  | e => e

namespace PlanError

variable {w : World} {e : PlanError}

theorem seenFrom_of_not_isArtifact (h : ¬ e.IsArtifact) : e.seenFrom w = e := by
  cases e with
  | artifact fault => exact absurd ⟨fault, rfl⟩ h
  | _ => rfl

theorem seenFrom_of_isSystem (h : e.IsSystem) : e.seenFrom w = e :=
  seenFrom_of_not_isArtifact h.not_isArtifact

end PlanError

/-! ### What is seen from the root in an artifact -/

namespace Artifact

/-- The units, the companions and the directories to link from are seen from the root. -/
structure ShowsAbsolute (a : Artifact) : Prop where
  units : ∀ u ∈ a.units, u.path.isAbsolute = true
  /-- A companion is the last directory of its rule. -/
  companions : ∀ rule ∈ a.includeRules, ∃ companion, rule.dirs.getLast? = some companion ∧
    companion.isAbsolute = true
  linkDirs : ∀ dir ∈ a.linkDirs, dir.isAbsolute = true

theorem showsAbsolute_of_assemble {c : Configuration} {t : Toolchain} {s : SourceSet} {w : World}
    {a : Artifact} (hs : SourceSet.discover c w = .ok s) (h : assemble c t s w = .ok a) :
    a.ShowsAbsolute := by
  obtain ⟨-, dir, hdir, parent, hparent, bindings, hbindings, rfl⟩ := assemble_eq_ok_iff.1 h
  refine ⟨?_, ?_, fun dir hdir => absurd hdir List.not_mem_nil⟩
  · intro u hu
    refine SourceSet.isAbsolute_of_discover hs u.path ?_
    rw [← map_path_unitsOf]
    exact List.mem_map_of_mem hu
  · intro rule hrule
    obtain ⟨companion, hcompanion, rfl⟩ := List.mem_map.1 hrule
    refine ⟨companion, List.getLast?_concat, ?_⟩
    simp only [List.mem_cons, List.not_mem_nil, or_false] at hcompanion
    rcases hcompanion with rfl | rfl | rfl
    · exact Configuration.isAbsolute_of_sourceDirectory hdir
    · exact Configuration.isAbsolute_of_parentDirectory hparent
    · exact Configuration.isAbsolute_of_bindingsDirectory hbindings

end Artifact

/-! ### The stages of a plan -/

theorem SourceSet.discover_withAbsoluteDirs (c : Configuration) (w : World) :
    discover (c.withAbsoluteDirs w) w = discover c w := by
  unfold discover
  rw [Configuration.sourceDirectory_withAbsoluteDirs,
    Configuration.bindingsDirectory_withAbsoluteDirs]
  rfl

theorem KernelArchive.ofConfiguration_withAbsoluteDirs (c : Configuration) (w : World) :
    ofConfiguration (c.withAbsoluteDirs w) w = ofConfiguration c w := by
  rw [ofConfiguration, Configuration.archiveDirectories_withAbsoluteDirs]
  rfl

/-- Assembling is the one stage that shows the source directory as it is spelled. -/
theorem Artifact.assemble_withAbsoluteDirs (c : Configuration) (t : Toolchain) (s : SourceSet)
    (w : World) : assemble (c.withAbsoluteDirs w) t s w =
      (assemble c t s w).mapError (PlanError.seenFrom w) := by
  cases h : assemble c t s w with
  | ok a =>
      rw [assemble_eq_ok_iff] at h
      refine assemble_eq_ok_iff.2 ?_
      rw [Configuration.sourceDirectory_withAbsoluteDirs,
        Configuration.parentDirectory_withAbsoluteDirs,
        Configuration.bindingsDirectory_withAbsoluteDirs]
      exact h
  | error e =>
      refine assemble_eq_error_iff.2 ?_
      rw [Configuration.sourceDirectory_withAbsoluteDirs,
        Configuration.parentDirectory_withAbsoluteDirs,
        Configuration.bindingsDirectory_withAbsoluteDirs]
      rcases assemble_eq_error_iff.1 h with ⟨hnative, rfl⟩ | ⟨hnative, hdirs⟩
      · exact Or.inl ⟨hnative, rfl⟩
      · have hsource : c.sourceDirectory w = .error e := by
          simpa only [Configuration.parentDirectory_eq_error_iff,
            Configuration.bindingsDirectory_eq_error_iff, or_self] using hdirs
        rw [PlanError.seenFrom_of_isSystem (Configuration.isSystem_of_sourceDirectory hsource)]
        exact Or.inr ⟨hnative, hdirs⟩

namespace Configuration

variable {c : Configuration} {locator : Locator} {w : World}

/-- What a plan does with the artifact that was assembled. -/
def finish (c : Configuration) (a : Artifact) : Run PlanError Artifact := do
  if c.aot.isEnabled then
    let archive ← Run.look (KernelArchive.ofConfiguration c)
    let (artifact, linked) ← a.linkArchive c.aot archive
    if linked then Run.look fun _ => artifact.embedRuntimePath
    else return artifact
  else return a

theorem planWith_eq (c : Configuration) (locator : Locator) :
    c.planWith locator = c.resolveWith locator >>= fun t =>
      Run.look (SourceSet.discover c) >>= fun s =>
        Run.look (Artifact.assemble c t s) >>= c.finish := rfl

theorem finish_withAbsoluteDirs (c : Configuration) (a : Artifact) (w : World) :
    (c.withAbsoluteDirs w).finish a w = c.finish a w := by
  have haot : (c.withAbsoluteDirs w).aot = c.aot := rfl
  unfold finish
  rw [haot]
  split
  · refine Run.bind_apply_congr ?_ fun archive => rfl
    rw [Run.look, KernelArchive.ofConfiguration_withAbsoluteDirs]
    rfl
  · rfl

/-- What comes after assembling does not fail over sources. -/
theorem mapError_finish (c : Configuration) (a : Artifact) (w : World) :
    (c.finish a).mapError (PlanError.seenFrom w) = c.finish a := by
  refine Run.mapError_of_failsOnly ?_
  unfold finish
  split
  · refine Run.FailsOnly.bind (Run.FailsOnly.look fun w' e h => ?_) fun archive => ?_
    · exact PlanError.seenFrom_of_isSystem (isSystem_of_archiveDirectories (map_eq_error_iff.1 h))
    · refine Run.FailsOnly.bind ?_ fun (artifact, linked) => ?_
      · exact Run.FailsOnly.of_ok fun w' => Artifact.result_linkArchive a c.aot archive w'
      · dsimp only
        split
        · refine Run.FailsOnly.look fun w' e h => ?_
          rw [(Artifact.embedRuntimePath_eq_error_iff.1 h).2]
          rfl
        · exact Run.FailsOnly.pure _
  · exact Run.FailsOnly.pure _

theorem mapError_planWith (c : Configuration) (locator : Locator) (w : World) :
    (c.planWith locator).mapError (PlanError.seenFrom w) =
      c.resolveWith locator >>= fun t => Run.look (SourceSet.discover c) >>= fun s =>
        (Run.look (Artifact.assemble c t s)).mapError (PlanError.seenFrom w) >>= c.finish := by
  have hresolve : (c.resolveWith locator).mapError (PlanError.seenFrom w) =
      c.resolveWith locator :=
    Run.mapError_of_failsOnly ((Toolchain.failsOnly_resolve locator c.cudaHome c.reader).imp
      fun e => PlanError.seenFrom_of_not_isArtifact)
  have hdiscover : (Run.look (SourceSet.discover c)).mapError (PlanError.seenFrom w) =
      Run.look (SourceSet.discover c) :=
    Run.mapError_of_failsOnly (Run.FailsOnly.look fun w' e h =>
      PlanError.seenFrom_of_not_isArtifact (SourceSet.not_isArtifact_of_discover h))
  rw [planWith_eq, Run.mapError_bind, hresolve]
  simp only [Run.mapError_bind, hdiscover, mapError_finish]

/-- Both configurations plan alike, in other words where there is no native source. -/
theorem planWith_withAbsoluteDirs_apply (c : Configuration) (locator : Locator) (w : World) :
    (c.withAbsoluteDirs w).planWith locator w =
      (c.planWith locator).mapError (PlanError.seenFrom w) w := by
  rw [mapError_planWith, planWith_eq]
  refine Run.bind_apply_congr rfl fun t => ?_
  refine Run.bind_apply_congr ?_ fun s => ?_
  · rw [Run.look, SourceSet.discover_withAbsoluteDirs]
    rfl
  · refine Run.bind_apply_congr ?_ fun a => finish_withAbsoluteDirs c a w
    rw [Run.look, Artifact.assemble_withAbsoluteDirs]
    rfl

theorem showsAbsolute_of_planWith {a : Artifact} (h : (c.planWith locator w).result = .ok a) :
    a.ShowsAbsolute := by
  obtain ⟨t, -, s, hs, base, hbase, hdisabled, henabled⟩ := planWith_eq_ok_iff.1 h
  have hshows := Artifact.showsAbsolute_of_assemble hs hbase
  cases haot : c.aot with
  | disabled =>
      rw [hdisabled haot]
      exact hshows
  | enabled =>
      obtain ⟨dirs, hdirs, rfl⟩ := henabled haot
      refine ⟨hshows.units, hshows.companions, fun dir hdir => ?_⟩
      exact isAbsolute_of_mem_archiveDirectories hdirs dir (Path.mem_of_mem_dedup hdir)

/-- **The spelling of directories does not matter.** A configuration that names its directories by
their absolute forms leads to the same plan, after the same events. Where there is none, it fails as
before; only the source directory without native sources is shown as it is spelled now.

Whichever way they are spelled, the sources, the companions and the directories to link from are
seen from the root in the plan. -/
theorem planWith_withAbsoluteDirs (c : Configuration) (locator : Locator) (w : World) :
    (((c.withAbsoluteDirs w).planWith locator w).events = (c.planWith locator w).events ∧
      ((c.withAbsoluteDirs w).planWith locator w).result =
        (c.planWith locator w).result.mapError (PlanError.seenFrom w)) ∧
    ∀ a, (c.planWith locator w).result = .ok a → a.ShowsAbsolute := by
  rw [planWith_withAbsoluteDirs_apply]
  exact ⟨⟨rfl, rfl⟩, fun a h => showsAbsolute_of_planWith h⟩

end Configuration

namespace Sample

/-- The sources of the installation, named from the working directory. -/
def relativeConfiguration : Configuration :=
  { configuration with sourceDir := "./s//", archiveDirs := ["k/./x/..", "", "//k/"] }

/-- Separators and `.` that stand for nothing are gone, and `..` is still a step. -/
theorem planWith_withAbsoluteDirs_sample :
    (relativeConfiguration.withAbsoluteDirs world).sourceDir = "/s/" ∧
    (relativeConfiguration.withAbsoluteDirs world).archiveDirs = ["/k/x/..", "", "//k/"] ∧
    ∃ a, (relativeConfiguration.planWith locator world).result = .ok a ∧
      ((relativeConfiguration.withAbsoluteDirs world).planWith locator world).result = .ok a ∧
      a.ShowsAbsolute := by
  obtain ⟨⟨-, hresult⟩, hshows⟩ :=
    Configuration.planWith_withAbsoluteDirs relativeConfiguration locator world
  have hok : (relativeConfiguration.planWith locator world).result.isOk = true := by
    decide +kernel
  cases h : (relativeConfiguration.planWith locator world).result with
  | error e =>
      rw [h] at hok
      cases hok
  | ok a =>
      rw [h] at hresult
      exact ⟨by decide +kernel, by decide +kernel, a, rfl, hresult, hshows a h⟩

end Sample

end ExtensionPlan
