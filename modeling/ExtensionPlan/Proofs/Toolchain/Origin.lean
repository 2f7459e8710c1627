import ExtensionPlan.Proofs.Package.Failure
import ExtensionPlan.Proofs.Toolchain.Populated

/-!
# ExtensionPlan.Proofs.Toolchain.Origin

**Where the tensor runtime comes from.** Every directory that was located is a hint for all packages
after it, in the order in which they are located. So the tensor runtime is taken from the directory
that was located for it only if the binding generator's directory has no package file of that name
(`Toolchain.comesFrom_of_resolve`); if it has one, what was located for the tensor runtime does not
count. From whichever of the two it is taken, headers and libraries are all of one installation
(`Toolchain.ComesFrom`).
-/

namespace ExtensionPlan

namespace PackageSpec

variable {spec : PackageSpec} {w : World} {hint first second p : Path}

/-- Of the candidates below the hint this is the first one that is a regular file. -/
def IsFirstBelow (spec : PackageSpec) (w : World) (hint p : Path) : Prop :=
  w.isFile p = true ∧ ∃ before after, spec.candidates hint = before ++ p :: after ∧
    ∀ other ∈ before, w.isFile other = false

theorem isFirstBelow_iff :
    spec.IsFirstBelow w hint p ↔ (spec.candidates hint).find? w.isFile = some p := by
  rw [IsFirstBelow, List.find?_eq_some_iff_append]
  simp

theorem IsFirstBelow.mem (h : spec.IsFirstBelow w hint p) : p ∈ spec.candidates hint := by
  obtain ⟨-, before, after, hcandidates, -⟩ := h
  simp [hcandidates]

/-- Of two hints the second one counts where the first one has no package file. -/
theorem isFirstBelow_of_findPackageFile
    (h : spec.findPackageFile ((SearchHints.empty.register first).register second) w = some p) :
    spec.IsFirstBelow w first p ∨
      (∀ q ∈ spec.candidates first, w.isFile q = false) ∧ spec.IsFirstBelow w second p := by
  rw [findPackageFile, SearchHints.dirs_register_register] at h
  simp only [isFirstBelow_iff]
  cases hfirst : (spec.candidates first).find? w.isFile with
  | some q =>
      left
      split at h
      · simpa [hfirst] using h
      · simpa [hfirst] using h
  | none =>
      -- so the second one is not the first one again
      right
      refine ⟨by simpa using hfirst, ?_⟩
      split at h
      · simp [hfirst] at h
      · simpa [hfirst] using h

end PackageSpec

namespace Toolchain

variable {locator : Locator} {cudaHome : Option Path} {reader : Reader} {w : World}
  {t : Toolchain}

/-! ### The tensor runtime -/

/-- If there is a package file of the tensor runtime below the directory that was located for it,
the runtime is installed above such a file. -/
def StaysWithLocator (t : Toolchain) (w : World) : Prop :=
  (∃ p ∈ PackageSpec.torch.candidates t.tensor.dir, w.isFile p = true) →
    ∃ p ∈ PackageSpec.torch.candidates t.tensor.dir, w.isFile p = true ∧
      t.tensor.installDir ∈ p.parents

/-- The tensor runtime is the one whose package file is the first below the directory: it is
installed in the nearest directory above that file that has headers, and its headers and libraries
are there. -/
structure ComesFrom (t : Toolchain) (w : World) (dir : Path) : Prop where
  installDir : ∃ p, PackageSpec.torch.IsFirstBelow w dir p ∧
    Path.IsNearestAbove (fun above => w.isDirectory (above.join "include")) p t.tensor.installDir
  includeDirs : t.tensor.includeDirs =
    PackageSpec.existing w t.tensor.installDir ["include", "include/torch/csrc/api/include"]
  libDirs : t.tensor.libDirs = PackageSpec.existing w t.tensor.installDir ["lib", "lib64"]

/-- A runtime that comes from the directory that was located for it stays with it. -/
theorem ComesFrom.staysWithLocator (h : t.ComesFrom w t.tensor.dir) : t.StaysWithLocator w := by
  intro _
  obtain ⟨p, hfirst, hnearest⟩ := h.installDir
  exact ⟨p, hfirst.mem, hfirst.1, hnearest.above⟩

/-- Both directories are the ones that were located. -/
theorem located_of_resolve (h : (resolve locator cudaHome reader w).result = .ok t) :
    (locator.locate .bindingLibrary w).result = .ok t.binding.dir.text ∧
      (locator.locate .tensorRuntime w).result = .ok t.tensor.dir.text := by
  obtain ⟨bindingDir, hbindingDir, binding, hbinding, tensorDir, htensorDir, tensor, htensor,
    cuda, -, rfl⟩ := resolve_eq_ok_iff.1 h
  obtain ⟨generator, -, headers, -, -, suffix, -, rfl⟩ :=
    BindingLibrary.resolve_eq_ok_iff.1 hbinding
  obtain ⟨package, -, file, -, rfl⟩ := TensorRuntime.resolve_eq_ok_iff.1 htensor
  rw [Path.text_ofString, Path.text_ofString]
  exact ⟨hbindingDir, htensorDir⟩

/-- The package file of the tensor runtime is searched below both, and the rest follows from it. -/
theorem exists_packageFile_of_resolve (h : (resolve locator cudaHome reader w).result = .ok t) :
    ∃ p, PackageSpec.torch.findPackageFile
        ((SearchHints.empty.register t.binding.dir).register t.tensor.dir) w = some p ∧
      ∀ dir, PackageSpec.torch.IsFirstBelow w dir p → t.ComesFrom w dir := by
  obtain ⟨bindingDir, -, binding, hbinding, tensorDir, -, tensor, htensor, cuda, -, rfl⟩ :=
    resolve_eq_ok_iff.1 h
  obtain ⟨generator, -, headers, -, -, suffix, -, rfl⟩ :=
    BindingLibrary.resolve_eq_ok_iff.1 hbinding
  obtain ⟨package, hpackage, file, -, rfl⟩ := TensorRuntime.resolve_eq_ok_iff.1 htensor
  obtain ⟨p, hp, installDir, hdir, required, -, flags, -, rfl⟩ :=
    PackageSpec.find_eq_ok_iff.1 hpackage
  have hinclude : PackageSpec.torch.primaryInclude = "include" := rfl
  have hnearest := PackageSpec.findInstallDir_eq_some_iff.1 hdir
  rw [hinclude] at hnearest
  exact ⟨p, hp, fun dir hfirst => ⟨⟨p, hfirst, hnearest⟩, rfl, rfl⟩⟩

/-- **The first of two directories.** The tensor runtime comes from the directory that was located
for it if the binding generator's directory has no package file of the runtime. If it has one then
the runtime comes from there, whatever was located for it. -/
theorem comesFrom_of_resolve (h : (resolve locator cudaHome reader w).result = .ok t) :
    (locator.locate .bindingLibrary w).result = .ok t.binding.dir.text ∧
      (locator.locate .tensorRuntime w).result = .ok t.tensor.dir.text ∧
      ((∀ p ∈ PackageSpec.torch.candidates t.binding.dir, w.isFile p = false) →
        t.ComesFrom w t.tensor.dir ∧ t.StaysWithLocator w) ∧
      ((∃ p ∈ PackageSpec.torch.candidates t.binding.dir, w.isFile p = true) →
        t.ComesFrom w t.binding.dir) := by
  obtain ⟨hbinding, htensor⟩ := located_of_resolve h
  obtain ⟨p, hp, hcomes⟩ := exists_packageFile_of_resolve h
  refine ⟨hbinding, htensor, fun hnone => ?_, fun hsome => ?_⟩
  · rcases PackageSpec.isFirstBelow_of_findPackageFile hp with hfirst | ⟨-, hsecond⟩
    · have hfile := hnone p hfirst.mem
      rw [hfirst.1] at hfile
      cases hfile
    · have hhere := hcomes t.tensor.dir hsecond
      exact ⟨hhere, hhere.staysWithLocator⟩
  · rcases PackageSpec.isFirstBelow_of_findPackageFile hp with hfirst | ⟨hnone, -⟩
    · exact hcomes t.binding.dir hfirst
    · obtain ⟨q, hq, hfile⟩ := hsome
      rw [hnone q hq] at hfile
      cases hfile

end Toolchain

/-! ### Two installations -/

namespace Sample

/-- What an installation of the tensor runtime has. -/
def runtimeChildren : List (FileName × Node) :=
  [(fileName "TorchConfig.cmake", emptyFile),
    (fileName "include", .directory []),
    (fileName "lib", .directory [
      (fileName "libtorch.so", emptyFile),
      (fileName "libc10.so", emptyFile),
      (fileName "libtorch_python.so", emptyFile)])]

/-- An installation of the tensor runtime, and another one in the place of the binding generator. -/
def twofoldTree : Tree where
  children :=
    [(fileName "b", .directory
        ((fileName "pybind11Config.cmake", emptyFile) :: runtimeChildren)),
      (fileName "t", .directory runtimeChildren),
      (fileName "c", .directory [
        (fileName "include", .directory []),
        (fileName "lib", .directory [
          (fileName "libcudart.so", emptyFile)])])]
  proper := by rfl

/-- The installations with nothing else around. -/
def twofoldWorld : World := .ofTree twofoldTree []

theorem exists_twofold : ∃ t,
    (Toolchain.resolve locator (some "/c") .table twofoldWorld).result = .ok t ∧
      t.binding.dir = "/b" ∧ t.tensor.dir = "/t" ∧ t.tensor.installDir = "/b" := by
  have h : (Toolchain.resolve locator (some "/c") .table twofoldWorld).result.toOption.map
      (fun t => (t.binding.dir, t.tensor.dir, t.tensor.installDir)) =
        some (Path.ofString "/b", Path.ofString "/t", Path.ofString "/b") := by
    decide +kernel
  obtain ⟨t, ht, heq⟩ := Option.map_eq_some_iff.1 h
  simp only [Prod.mk.injEq] at heq
  exact ⟨t, toOption_eq_some_iff.1 ht, heq⟩

/-- The runtime in the place of the binding generator is taken. -/
theorem not_staysWithLocator : ∃ t,
    (Toolchain.resolve locator (some "/c") .table twofoldWorld).result = .ok t ∧
      ¬ t.StaysWithLocator twofoldWorld := by
  obtain ⟨t, ht, -, htensor, hinstall⟩ := exists_twofold
  refine ⟨t, ht, fun hstays => ?_⟩
  rw [Toolchain.StaysWithLocator, htensor, hinstall] at hstays
  have hnone : ∀ p ∈ PackageSpec.torch.candidates "/t", Path.ofString "/b" ∉ p.parents := by
    decide +kernel
  obtain ⟨p, hp, -, habove⟩ := hstays (by decide +kernel)
  exact hnone p hp habove

/-- With one installation only it is where it was located, and of two the one in the place of the
binding generator counts. -/
theorem comesFrom_of_resolve_twofold :
    (∃ t, (Toolchain.resolve locator (some "/c") .table world).result = .ok t ∧
      t.ComesFrom world t.tensor.dir) ∧
    ∃ t, (Toolchain.resolve locator (some "/c") .table twofoldWorld).result = .ok t ∧
      t.ComesFrom twofoldWorld t.binding.dir := by
  constructor
  · have h : (Toolchain.resolve locator (some "/c") .table world).result.toOption.map
        (fun t => t.binding.dir) = some (Path.ofString "/b") := by
      decide +kernel
    obtain ⟨t, ht, hdir⟩ := Option.map_eq_some_iff.1 h
    have ht := toOption_eq_some_iff.1 ht
    obtain ⟨-, -, hcomes, -⟩ := Toolchain.comesFrom_of_resolve ht
    rw [hdir] at hcomes
    exact ⟨t, ht, (hcomes (by decide +kernel)).1⟩
  · obtain ⟨t, ht, hdir, -, -⟩ := exists_twofold
    obtain ⟨-, -, -, hcomes⟩ := Toolchain.comesFrom_of_resolve ht
    rw [hdir] at hcomes
    exact ⟨t, ht, hdir ▸ hcomes (by decide +kernel)⟩

end Sample

end ExtensionPlan
