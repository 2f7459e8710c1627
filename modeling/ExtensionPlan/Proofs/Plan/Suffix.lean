import ExtensionPlan.Proofs.Plan.Directives

/-!
# ExtensionPlan.Proofs.Plan.Suffix

**What the suffix changes.** The suffix of modules is the one answer of a locator that a plan can do
without. Two locators that differ in it only lead to the same plan or to the same failure, and the
plans differ in the file name of the module only (`Configuration.planWith_of_agreesWith`).

Each stage is shown to commute with exchanging the suffix: what it makes of a toolchain with another
suffix is what it makes of the toolchain, with another suffix or file name. As these are equations
between results, failures included, the stages follow one another by rewriting.
-/

namespace ExtensionPlan

/-! ### Locators that differ in the suffix -/

namespace Locator

/-- The suffix of the file names of modules: the one that is located, or else the standard one. -/
def suffix (l : Locator) (w : World) : String :=
  match (l.locate .extensionSuffix w).result with
  | .ok suffix => suffix
  | .error _ => BindingLibrary.standardSuffix

/-- The locators give the same answers, of the suffix apart. -/
def AgreesWith (l₁ l₂ : Locator) (w : World) : Prop :=
  ∀ d, d ≠ .extensionSuffix → (l₁.locate d w).result = (l₂.locate d w).result

theorem AgreesWith.refl (l : Locator) (w : World) : l.AgreesWith l w := fun _ _ => rfl

end Locator

variable {l₁ l₂ : Locator} {w : World}

/-! ### The toolchain -/

namespace BindingLibrary

/-- The generator with another suffix. -/
def withSuffix (b : BindingLibrary) (suffix : String) : BindingLibrary :=
  { b with extensionSuffix := suffix }

/-- A suffix that is not located is no failure. -/
theorem result_locateSuffix (l : Locator) (w : World) :
    (locateSuffix l w).result = .ok (l.suffix w) := by
  unfold locateSuffix Locator.suffix
  rw [Run.result_bind, Run.result_attempt]
  cases (l.locate .extensionSuffix w).result with
  | ok suffix => rfl
  | error e => rfl

theorem result_resolve_of_agreesWith (h : l₁.AgreesWith l₂ w) (dir : Path) (hints : SearchHints) :
    (resolve l₂ dir hints w).result =
      (·.withSuffix (l₂.suffix w)) <$> (resolve l₁ dir hints w).result := by
  unfold resolve
  simp only [Run.result_bind, Run.result_look, Run.result_pure, result_locateSuffix,
    h .pythonHeaders (by decide), map_bind]
  rfl

end BindingLibrary

namespace Toolchain

/-- The toolchain with another suffix. -/
def withSuffix (t : Toolchain) (suffix : String) : Toolchain :=
  { t with binding := t.binding.withSuffix suffix }

theorem result_resolve_of_agreesWith (h : l₁.AgreesWith l₂ w) (cudaHome : Option Path)
    (reader : Reader) :
    (resolve l₂ cudaHome reader w).result =
      (·.withSuffix (l₂.suffix w)) <$> (resolve l₁ cudaHome reader w).result := by
  unfold resolve resolveWith
  simp only [Run.result_bind, Run.result_pure, h .bindingLibrary (by decide),
    h .tensorRuntime (by decide), BindingLibrary.result_resolve_of_agreesWith h, map_bind,
    bind_map_left]
  rfl

end Toolchain

/-! ### The artifact -/

namespace Artifact

/-- The artifact with another file name. -/
def withFilename (a : Artifact) (filename : String) : Artifact := { a with filename := filename }

/-- Of the suffix, nothing but the file name is assembled. -/
theorem assemble_withSuffix (c : Configuration) (t : Toolchain) (s : SourceSet) (w : World)
    (suffix : String) :
    assemble c (t.withSuffix suffix) s w =
      (·.withFilename (c.moduleName ++ suffix)) <$> assemble c t s w := by
  unfold assemble
  split
  · rfl
  · simp only [map_bind]
    rfl

theorem withArchive_withFilename (a : Artifact) (filename : String) (archive : KernelArchive) :
    (a.withFilename filename).withArchive archive =
      (a.withArchive archive).withFilename filename := by
  rw [withArchive_eq, withArchive_eq]
  rfl

theorem embedRuntimePath_withFilename (a : Artifact) (filename : String) :
    (a.withFilename filename).embedRuntimePath =
      (·.withFilename filename) <$> a.embedRuntimePath := by
  have hdirs : (a.withFilename filename).linkDirs = a.linkDirs := rfl
  unfold embedRuntimePath
  rw [hdirs]
  dsimp only
  split
  · rfl
  · rfl

end Artifact

/-! ### The plan -/

namespace Configuration

/-- The plan of one locator is that of the other with the file name exchanged. -/
theorem result_planWith_of_agreesWith (c : Configuration) (h : l₁.AgreesWith l₂ w) :
    (c.planWith l₂ w).result =
      (·.withFilename (c.moduleName ++ l₂.suffix w)) <$> (c.planWith l₁ w).result := by
  simp only [result_planWith, resolveWith, Toolchain.result_resolve_of_agreesWith h,
    Artifact.assemble_withSuffix, map_bind, bind_map_left]
  refine bind_congr fun t => bind_congr fun s => bind_congr fun a => ?_
  split
  · rw [map_bind]
    refine bind_congr fun archive => ?_
    rw [Artifact.withArchive_withFilename, Artifact.embedRuntimePath_withFilename]
  · rfl

/-- **What the suffix changes.** Locators that differ in the suffix only lead both to the same
failure, or to plans that differ in the file name only. The file name is that of the module with the
suffix that was located, or with the standard one where none was. -/
theorem planWith_of_agreesWith (c : Configuration) (h : l₁.AgreesWith l₂ w) :
    (∃ e, (c.planWith l₁ w).result = .error e ∧ (c.planWith l₂ w).result = .error e) ∨
    ∃ a₁ a₂, (c.planWith l₁ w).result = .ok a₁ ∧ (c.planWith l₂ w).result = .ok a₂ ∧
      a₂ = { a₁ with filename := a₂.filename } ∧
      a₁.filename = c.moduleName ++ l₁.suffix w ∧ a₂.filename = c.moduleName ++ l₂.suffix w := by
  have hother := result_planWith_of_agreesWith c h
  -- a locator agrees with itself, which tells the file name of the first plan as well
  have hself := result_planWith_of_agreesWith c (.refl l₁ w)
  cases hplan : (c.planWith l₁ w).result with
  | error e =>
      rw [hplan] at hother
      exact Or.inl ⟨e, rfl, hother⟩
  | ok a =>
      rw [hplan] at hother hself
      refine Or.inr ⟨a, _, rfl, hother, rfl, ?_, rfl⟩
      rw [Except.ok.inj hself]
      rfl

end Configuration

namespace Sample

/-- An interpreter that knows where the parts of the installation are, and a suffix. -/
def interpreter : Locator :=
  .interpreter (.answers fun expression =>
    if expression = Dependency.tensorRuntime.expression then .ok ⟨some 0, "/t\n", ""⟩
    else if expression = Dependency.extensionSuffix.expression then .ok ⟨some 0, ".abi3.so\n", ""⟩
    else .ok ⟨some 0, "/b\n", ""⟩) 0

/-- The manifest of the installation tells no suffix, so the standard one is taken. -/
theorem planWith_of_agreesWith_sample :
    locator.AgreesWith interpreter world ∧
    ∃ a₁ a₂, (configuration.planWith locator world).result = .ok a₁ ∧
      (configuration.planWith interpreter world).result = .ok a₂ ∧
      a₂ = { a₁ with filename := a₂.filename } ∧
      a₁.filename = "triton_distributed.so" ∧ a₂.filename = "triton_distributed.abi3.so" := by
  have hagrees : locator.AgreesWith interpreter world := by
    intro d hd
    cases d with
    | bindingLibrary => rfl
    | tensorRuntime => rfl
    | pythonHeaders => rfl
    | extensionSuffix => exact absurd rfl hd
  refine ⟨hagrees, ?_⟩
  rcases Configuration.planWith_of_agreesWith configuration hagrees with
    ⟨e, he, -⟩ | ⟨a₁, a₂, ha₁, ha₂, hsame, hname₁, hname₂⟩
  · obtain ⟨a, ha, -⟩ := exists_plan
    rw [ha] at he
    cases he
  · exact ⟨a₁, a₂, ha₁, ha₂, hsame, hname₁.trans (by rfl), hname₂.trans (by rfl)⟩

end Sample

end ExtensionPlan
