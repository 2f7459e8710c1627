import ExtensionPlan.Proofs.Package
import ExtensionPlan.Toolchain

/-!
# ExtensionPlan.Proofs.Toolchain

**What resolving a toolchain means.** For each part of a toolchain there is one lemma that says
what was found when it is resolved; the libraries of a resolved toolchain are put together from
them in `Toolchain.foundLibraries_of_resolve`.

A toolchain that is not resolved is never taken for an artifact that cannot be assembled
(`Toolchain.failsOnly_resolve`).
-/

namespace ExtensionPlan

namespace PlanError

/-- The failure is that the parts make no artifact. -/
def IsArtifact (e : PlanError) : Prop := ∃ fault, e = .artifact fault

/-- The failure is that a dependency was not located. -/
def IsNotLocated (e : PlanError) : Prop :=
  ∃ dependency expression diagnosis, e = .notLocated dependency expression diagnosis

/-- The failure is that something on the machine is missing, or cannot be read. -/
def IsUnavailable (e : PlanError) : Prop :=
  (∃ toolkit shortfall, e = .missing toolkit shortfall) ∨ ∃ path cause, e = .system path cause

theorem isUnavailable_missing (toolkit : String) (shortfall : Shortfall) :
    (PlanError.missing toolkit shortfall).IsUnavailable := Or.inl ⟨toolkit, shortfall, rfl⟩

theorem not_isArtifact_notLocated (dependency expression : String) (diagnosis : Diagnosis) :
    ¬ (PlanError.notLocated dependency expression diagnosis).IsArtifact := by
  intro h
  obtain ⟨fault, h⟩ := h
  cases h

theorem not_isArtifact_system (path : Path) (cause : SystemError) :
    ¬ (PlanError.system path cause).IsArtifact := by
  intro h
  obtain ⟨fault, h⟩ := h
  cases h

variable {e : PlanError}

theorem IsUnavailable.not_isArtifact (h : e.IsUnavailable) : ¬ e.IsArtifact := by
  intro hartifact
  obtain ⟨fault, rfl⟩ := hartifact
  rcases h with ⟨toolkit, shortfall, h⟩ | ⟨path, cause, h⟩
  · cases h
  · cases h

theorem IsUnavailable.not_isNotLocated (h : e.IsUnavailable) : ¬ e.IsNotLocated := by
  intro hlocated
  obtain ⟨dependency, expression, diagnosis, rfl⟩ := hlocated
  rcases h with ⟨toolkit, shortfall, h⟩ | ⟨path, cause, h⟩
  · cases h
  · cases h

end PlanError

/-! ### Locating -/

/-- A successful reply says what its last line says that is not blank. -/
theorem Query.answer_eq_ok {q : Query} {reply : Reply} {line : List Char}
    (hstatus : reply.status = some q.successCode)
    (hlast : (Text.filledLines reply.stdout.toList).getLast? = some line)
    (hnone : line ≠ "None".toList) : q.answer reply = .ok (.ofList line) := by
  unfold answer
  simp only [if_pos hstatus, hlast, if_neg hnone]

/-- A reply that is no answer is blamed on the question. -/
theorem Query.answer_eq_error {q : Query} {reply : Reply} {e : PlanError}
    (h : q.answer reply = .error e) : ∃ diagnosis, e = q.failure diagnosis := by
  unfold answer at h
  split at h
  · split at h
    · split at h
      · cases h
        exact ⟨_, rfl⟩
      · cases h
    · cases h
      exact ⟨_, rfl⟩
  · cases h
    exact ⟨_, rfl⟩

theorem Interpreter.failsOnly_ask (i : Interpreter) (q : Query) :
    (i.ask q).FailsOnly fun e => ∃ diagnosis, e = q.failure diagnosis := by
  refine Run.FailsOnly.bind ?_ fun _ => Run.FailsOnly.bind ?_ fun reply => ?_
  · exact Run.FailsOnly.of_ok fun w => Run.result_log _ w
  · refine Run.FailsOnly.look fun w e h => ?_
    obtain ⟨cause, -, he⟩ := mapError_eq_error_iff.1 h
    exact ⟨.notStarted cause, he.symm⟩
  · exact Run.FailsOnly.look fun w e h => Query.answer_eq_error h

theorem Manifest.locate_eq_error {m : Manifest} {path : Path} {d : Dependency} {e : PlanError}
    (h : m.locate path d = .error e) :
    e = .notLocated d.name (d.manifestKey ++ " in " ++ path.text) .noEntry := by
  unfold locate at h
  split at h
  · cases h
    rfl
  · split at h <;> cases h

/-- Whichever way a dependency is looked for, the failure is that it was not located. -/
theorem Locator.failsOnly_locate (locator : Locator) (d : Dependency) :
    (locator.locate d).FailsOnly fun e => ∃ expression diagnosis,
      e = .notLocated d.name expression diagnosis := by
  cases locator with
  | interpreter i successCode =>
      intro w e h
      obtain ⟨diagnosis, he⟩ := Interpreter.failsOnly_ask i (.ofDependency d successCode) w e h
      exact ⟨_, diagnosis, he⟩
  | manifest path m =>
      intro w e h
      exact ⟨_, _, Manifest.locate_eq_error h⟩
  | environment reader =>
      refine Run.FailsOnly.bind ?_ fun value => ?_
      · exact Run.FailsOnly.of_ok fun w => Run.result_read reader d.key w
      · split
        · exact Run.FailsOnly.pure _
        · exact Run.FailsOnly.fail ⟨_, _, rfl⟩

theorem Locator.not_isArtifact_of_locate (locator : Locator) (d : Dependency) :
    (locator.locate d).FailsOnly fun e => ¬ e.IsArtifact := by
  intro w e h
  obtain ⟨expression, diagnosis, rfl⟩ := locator.failsOnly_locate d w e h
  exact PlanError.not_isArtifact_notLocated _ _ _

theorem PackageSpec.failsOnly_find (spec : PackageSpec) (hints : SearchHints) :
    (Run.look (spec.find hints)).FailsOnly PlanError.IsUnavailable := by
  intro w e h
  rcases PackageSpec.find_eq_error h with ⟨shortfall, rfl⟩ | ⟨file, cause, -, -, rfl⟩
  · exact PlanError.isUnavailable_missing _ _
  · exact Or.inr ⟨file, cause, rfl⟩

/-! ### The parts of a toolchain -/

namespace BindingLibrary

/-- The suffix is never a reason to fail. -/
theorem failsOnly_locateSuffix (locator : Locator) (p : PlanError → Prop) :
    (locateSuffix locator).FailsOnly p := by
  refine Run.FailsOnly.bind ?_ fun answer => ?_
  · exact Run.FailsOnly.of_ok fun w => Run.result_attempt _ w
  · cases answer with
    | ok suffix => exact Run.FailsOnly.pure suffix
    | error e =>
        refine Run.FailsOnly.bind ?_ fun _ => Run.FailsOnly.pure _
        exact Run.FailsOnly.of_ok fun w => Run.result_warn _ w

/-- A binding generator is resolved when its package is found and the headers are there that it
goes with. -/
theorem resolve_eq_ok_iff {locator : Locator} {dir : Path} {hints : SearchHints} {w : World}
    {b : BindingLibrary} :
    (resolve locator dir hints w).result = .ok b ↔
      ∃ package, PackageSpec.pybind11.find hints w = .ok package ∧
      ∃ headers, (locator.locate .pythonHeaders w).result = .ok headers ∧
        w.isDirectory headers = true ∧
      ∃ suffix, (locateSuffix locator w).result = .ok suffix ∧
        b =
          { dir := dir
            installDir := package.installDir
            includeDirs := package.includeDirs ++ [Path.ofString headers]
            moduleFlags := standardFlags
            extensionSuffix := suffix } := by
  unfold resolve
  simp only [Run.result_bind, Run.result_look, Run.result_pure, bind_eq_ok_iff, Except.ok.injEq]
  refine exists_congr fun package => and_congr_right fun _ => ?_
  refine exists_congr fun headers => and_congr_right fun _ => ?_
  by_cases hheaders : w.isDirectory headers = true
  · simp [hheaders, eq_comm]
  · simp [hheaders]

/-- Headers that are located may still not be there. -/
theorem failsOnly_headers (headers : Path) :
    (Run.look fun w => if w.isDirectory headers then .ok ()
      else .error (.missing Dependency.pythonHeaders.name (.notDirectory headers))).FailsOnly
        PlanError.IsUnavailable := by
  refine Run.FailsOnly.look fun w e h => ?_
  split at h
  · cases h
  · cases h
    exact PlanError.isUnavailable_missing _ _

theorem failsOnly_resolve (locator : Locator) (dir : Path) (hints : SearchHints) :
    (resolve locator dir hints).FailsOnly fun e => ¬ e.IsArtifact := by
  refine Run.FailsOnly.bind ?_ fun package => ?_
  · exact (PackageSpec.failsOnly_find _ _).imp fun e => PlanError.IsUnavailable.not_isArtifact
  refine Run.FailsOnly.bind (locator.not_isArtifact_of_locate _) fun headers => ?_
  refine Run.FailsOnly.bind ?_ fun _ => ?_
  · exact (failsOnly_headers headers).imp fun e => PlanError.IsUnavailable.not_isArtifact
  · exact Run.FailsOnly.bind (failsOnly_locateSuffix locator _) fun _ => Run.FailsOnly.pure _

end BindingLibrary

namespace TensorRuntime

/-- A tensor runtime is resolved when its package is found, and in the package the library that
binds it to Python. -/
theorem resolve_eq_ok_iff {dir : Path} {hints : SearchHints} {w : World} {t : TensorRuntime} :
    (resolve dir hints w).result = .ok t ↔
      ∃ package, PackageSpec.torch.find hints w = .ok package ∧
      ∃ binding, w.findLibrary "torch_python" package.libDirs = .ok binding ∧
        t =
          { dir := dir
            installDir := package.installDir
            includeDirs := package.includeDirs
            libDirs := package.libDirs
            library := .ofFiles "torch" package.libraries
            bindingLibrary := .ofFiles "torch_python" [binding]
            flags := package.flags } := by
  unfold resolve
  simp only [Run.result_bind, Run.result_look, Run.result_pure, bind_eq_ok_iff,
    mapError_eq_ok_iff, Except.ok.injEq]
  refine exists_congr fun package => and_congr_right fun _ => ?_
  exact exists_congr fun binding => and_congr_right fun _ => eq_comm

theorem failsOnly_resolve (dir : Path) (hints : SearchHints) :
    (resolve dir hints).FailsOnly PlanError.IsUnavailable := by
  refine Run.FailsOnly.bind (PackageSpec.failsOnly_find _ _) fun package => ?_
  refine Run.FailsOnly.bind ?_ fun _ => Run.FailsOnly.pure _
  refine Run.FailsOnly.look fun w e h => ?_
  obtain ⟨cause, -, rfl⟩ := mapError_eq_error_iff.1 h
  exact PlanError.isUnavailable_missing _ _

end TensorRuntime

namespace Cuda.Layout

variable {home : Path} {reader : Reader} {w : World} {layout : Layout}

theorem exists_place_iff {places : List Path} :
    (∃ place ∈ places, w.isDirectory (home.join place) = true) ↔
      ((places.map home.join).filter w.isDirectory).isEmpty = false := by
  simp [List.isEmpty_eq_false_iff, List.filter_eq_nil_iff]

/-- There is a layout where there are headers, and its directories are the places that exist. -/
theorem discover_eq_ok_iff :
    (discover home reader w).result = .ok layout ↔
      w.isDirectory home = true ∧
      (∃ place ∈ includePlaces, w.isDirectory (home.join place) = true) ∧
      layout = ⟨home, (includePlaces.map home.join).filter w.isDirectory,
        ((libPlaces.map home.join).filter w.isDirectory).foldl Path.register
          (((w.value? reader "CUDA_LIB_DIR").toList.map Path.ofString).filter w.isDirectory)⟩ := by
  unfold discover
  rw [exists_place_iff, Run.result_bind, Run.result_look, bind_eq_ok_iff]
  constructor
  · intro ⟨_, hhome, h⟩
    rw [Run.result_bind, Run.result_look, ok_bind] at h
    split at h
    · cases h
    · next hfilled =>
      simp only [Run.result_bind, Run.result_read, Run.result_look, Run.result_pure,
        ok_bind, Except.ok.injEq] at h
      split at hhome
      · next hdirectory => exact ⟨hdirectory, by simpa using hfilled, h.symm⟩
      · cases hhome
  · intro ⟨hhome, hfilled, h⟩
    refine ⟨(), by rw [if_pos hhome], ?_⟩
    rw [Run.result_bind, Run.result_look, ok_bind, hfilled, if_neg Bool.false_ne_true, h]
    rfl

end Cuda.Layout

namespace CudaToolkit

/-- The toolkit at the directory that was found, if one was. -/
def resolveAt (reader : Reader) : Option Path → Run PlanError CudaToolkit
  | none => Run.fail (.missing title .noCudaHome)
  | some home => do
    let layout ← (Cuda.Layout.discover home reader).mapError fun e =>
      .missing title (.badCudaHome e home)
    let runtime ← Run.look fun w =>
      (w.findLibrary "cudart" layout.libDirs).mapError fun e => .missing title (.noLibrary e)
    return ⟨layout.home, layout.includeDirs, layout.libDirs, .ofFiles "cudart" [runtime]⟩

/-- The directory is settled first, and a given one needs no search. -/
theorem resolve_eq (home : Option Path) (reader : Reader) :
    resolve home reader =
      (match home with
        | some home => pure (some home)
        | none => Cuda.findHome reader) >>= resolveAt reader := by
  cases home with
  | none => rfl
  | some home => rfl

/-- The directory that is taken for the toolkit's: the one given, or else the one that is found. -/
def IsPlace (home : Option Path) (reader : Reader) (w : World) (place : Path) : Prop :=
  home = some place ∨
    home = none ∧ ((Cuda.findHome reader : Run PlanError _) w).result = .ok (some place)

theorem IsPlace.unique {home : Option Path} {reader : Reader} {w : World} {place other : Path}
    (h : IsPlace home reader w place) (hother : IsPlace home reader w other) : place = other := by
  rcases h with rfl | ⟨rfl, hfound⟩
  · rcases hother with h | ⟨h, -⟩
    · exact Option.some.inj h
    · cases h
  · rcases hother with h | ⟨-, hfound'⟩
    · cases h
    · rw [hfound] at hfound'
      exact Option.some.inj (Except.ok.inj hfound')

/-- A resolved toolkit has the directories of a layout, and its runtime is found in those. -/
theorem resolve_eq_ok_iff {home : Option Path} {reader : Reader} {w : World} {t : CudaToolkit} :
    (resolve home reader w).result = .ok t ↔
      ∃ place, IsPlace home reader w place ∧
      ∃ layout, (Cuda.Layout.discover place reader w).result = .ok layout ∧
      ∃ file, w.findLibrary "cudart" layout.libDirs = .ok file ∧
        t = ⟨layout.home, layout.includeDirs, layout.libDirs, .ofFiles "cudart" [file]⟩ := by
  have hat : ∀ found, (resolveAt reader found w).result = .ok t ↔ ∃ place, found = some place ∧
      ∃ layout, (Cuda.Layout.discover place reader w).result = .ok layout ∧
      ∃ file, w.findLibrary "cudart" layout.libDirs = .ok file ∧
        t = ⟨layout.home, layout.includeDirs, layout.libDirs, .ofFiles "cudart" [file]⟩ := by
    intro found
    cases found with
    | none => simp [resolveAt]
    | some place =>
        simp only [resolveAt, Run.result_bind, Run.result_look, Run.result_pure,
          Run.result_mapError, bind_eq_ok_iff, mapError_eq_ok_iff, Except.ok.injEq,
          Option.some.injEq, exists_eq_left', eq_comm (a := t)]
  rw [resolve_eq, Run.result_bind, bind_eq_ok_iff]
  simp only [hat]
  cases home with
  | none => simp [IsPlace]
  | some home => simp [IsPlace]

/-- The directories and the runtime of a resolved toolkit, wherever it was found. -/
theorem exists_layout_of_resolve {home : Option Path} {reader : Reader} {w : World}
    {t : CudaToolkit} (h : (resolve home reader w).result = .ok t) :
    ∃ place layout, (Cuda.Layout.discover place reader w).result = .ok layout ∧
      ∃ file, w.findLibrary "cudart" layout.libDirs = .ok file ∧
        t = ⟨layout.home, layout.includeDirs, layout.libDirs, .ofFiles "cudart" [file]⟩ := by
  obtain ⟨place, -, h⟩ := resolve_eq_ok_iff.1 h
  exact ⟨place, h⟩

/-- Searching for a toolkit may find none, and that is an answer. -/
theorem failsOnly_findHome (reader : Reader) (p : PlanError → Prop) :
    (Cuda.findHome reader : Run PlanError _).FailsOnly p := by
  have readable : ∀ name, (Run.readFilled reader name : Run PlanError _).FailsOnly p := by
    intro name
    exact Run.FailsOnly.of_ok fun w => Run.result_readFilled reader name w
  refine Run.FailsOnly.bind (readable "CUDA_HOME") fun first => ?_
  cases first
  case' some home => refine Run.FailsOnly.bind (Run.FailsOnly.pure _) fun named => ?_
  case' none => refine Run.FailsOnly.bind (readable "CUDA_PATH") fun named => ?_
  -- the same is done with what was read, from whichever variable
  all_goals
    cases named with
    | some home => exact Run.FailsOnly.pure _
    | none =>
        refine Run.FailsOnly.look fun w e h => ?_
        split at h <;> cases h

theorem failsOnly_resolve (home : Option Path) (reader : Reader) :
    (resolve home reader).FailsOnly PlanError.IsUnavailable := by
  rw [resolve_eq]
  refine Run.FailsOnly.bind ?_ fun found => ?_
  · cases home with
    | some home => exact Run.FailsOnly.pure _
    | none => exact failsOnly_findHome reader _
  · cases found with
    | none => exact Run.FailsOnly.fail (PlanError.isUnavailable_missing _ _)
    | some home =>
        refine Run.FailsOnly.bind ?_ fun layout => ?_
        · exact Run.FailsOnly.mapError _ fun e => PlanError.isUnavailable_missing _ _
        · refine Run.FailsOnly.bind ?_ fun _ => Run.FailsOnly.pure _
          refine Run.FailsOnly.look fun w e h => ?_
          obtain ⟨cause, -, rfl⟩ := mapError_eq_error_iff.1 h
          exact PlanError.isUnavailable_missing _ _

end CudaToolkit

/-! ### The toolchain -/

namespace Toolchain

theorem failsOnly_resolve (locator : Locator) (cudaHome : Option Path) (reader : Reader) :
    (resolve locator cudaHome reader).FailsOnly fun e => ¬ e.IsArtifact := by
  refine Run.FailsOnly.bind (locator.not_isArtifact_of_locate _) fun bindingDir => ?_
  refine Run.FailsOnly.bind (BindingLibrary.failsOnly_resolve _ _ _) fun binding => ?_
  refine Run.FailsOnly.bind (locator.not_isArtifact_of_locate _) fun tensorDir => ?_
  refine Run.FailsOnly.bind ?_ fun tensor => ?_
  · exact (TensorRuntime.failsOnly_resolve _ _).imp fun e =>
      PlanError.IsUnavailable.not_isArtifact
  refine Run.FailsOnly.bind ?_ fun cuda => Run.FailsOnly.pure _
  exact (CudaToolkit.failsOnly_resolve _ _).imp fun e => PlanError.IsUnavailable.not_isArtifact

/-- The packages are resolved first, and the toolkit after them. -/
theorem result_resolveWith {κ : Type} (locator : Locator)
    (toolkit : Run PlanError κ) (w : World) :
    (resolveWith locator toolkit w).result =
      (resolveWith locator (pure ()) w).result >>= fun packages =>
        (toolkit w).result.map fun cuda => { packages with cuda := cuda } := by
  unfold resolveWith
  simp only [Run.result_bind, Run.result_pure, bind_assoc, ok_bind]
  rfl

/-- A toolchain is resolved when its parts are, each package being searched where it was located
and where those before it were. -/
theorem resolve_eq_ok_iff {locator : Locator} {cudaHome : Option Path} {reader : Reader}
    {w : World} {t : Toolchain} :
    (resolve locator cudaHome reader w).result = .ok t ↔
      ∃ bindingDir, (locator.locate .bindingLibrary w).result = .ok bindingDir ∧
      ∃ binding, (BindingLibrary.resolve locator bindingDir
        (SearchHints.empty.register bindingDir) w).result = .ok binding ∧
      ∃ tensorDir, (locator.locate .tensorRuntime w).result = .ok tensorDir ∧
      ∃ tensor, (TensorRuntime.resolve tensorDir
        ((SearchHints.empty.register bindingDir).register tensorDir) w).result = .ok tensor ∧
      ∃ cuda, (CudaToolkit.resolve cudaHome reader w).result = .ok cuda ∧
        t = ⟨binding, tensor, cuda,
          (SearchHints.empty.register bindingDir).register tensorDir⟩ := by
  unfold resolve resolveWith
  simp only [Run.result_bind, Run.result_pure, bind_eq_ok_iff, Except.ok.injEq]
  refine exists_congr fun bindingDir => and_congr_right fun _ => ?_
  refine exists_congr fun binding => and_congr_right fun _ => ?_
  refine exists_congr fun tensorDir => and_congr_right fun _ => ?_
  refine exists_congr fun tensor => and_congr_right fun _ => ?_
  exact exists_congr fun cuda => and_congr_right fun _ => eq_comm

/-- The files of a toolchain's libraries, as they were found: one for each name that is required,
one for each optional name that is found, the binding of the tensor runtime and the runtime of the
GPU toolkit. -/
structure FoundLibraries (t : Toolchain) (w : World) where
  torch : Path
  c10 : Path
  binding : Path
  cuda : Path
  torch_found : w.findLibrary "torch" t.tensor.libDirs = .ok torch
  c10_found : w.findLibrary "c10" t.tensor.libDirs = .ok c10
  binding_found : w.findLibrary "torch_python" t.tensor.libDirs = .ok binding
  cuda_found : w.findLibrary "cudart" t.cuda.libDirs = .ok cuda
  tensor_library : t.tensor.library = .ofFiles "torch" (torch :: c10 ::
    w.foundFiles t.tensor.libDirs ["torch_cpu", "torch_cuda", "c10_cuda"])
  binding_library : t.tensor.bindingLibrary = .ofFiles "torch_python" [binding]
  cuda_library : t.cuda.runtime = .ofFiles "cudart" [cuda]

/-- A resolved toolchain has its libraries, each found in the directories of its part. -/
theorem foundLibraries_of_resolve {locator : Locator} {cudaHome : Option Path} {reader : Reader}
    {w : World} {t : Toolchain} (h : (resolve locator cudaHome reader w).result = .ok t) :
    Nonempty (t.FoundLibraries w) := by
  obtain ⟨bindingDir, -, binding, -, tensorDir, -, tensor, htensor, cuda, hcuda, rfl⟩ :=
    resolve_eq_ok_iff.1 h
  obtain ⟨package, hpackage, file, hfile, rfl⟩ := TensorRuntime.resolve_eq_ok_iff.1 htensor
  obtain ⟨packageFile, -, installDir, -, required, hrequired, flags, -, rfl⟩ :=
    PackageSpec.find_eq_ok_iff.1 hpackage
  obtain ⟨home, layout, -, runtime, hruntime, rfl⟩ := CudaToolkit.exists_layout_of_resolve hcuda
  -- two libraries are required, so there are two files
  obtain ⟨torch, files, htorch, hfiles, rfl⟩ := List.forall₂_cons_left_iff.1 hrequired
  obtain ⟨c10, none, hc10, hnone, rfl⟩ := List.forall₂_cons_left_iff.1 hfiles
  obtain rfl := List.forall₂_nil_left_iff.1 hnone
  exact ⟨⟨torch, c10, file, runtime, htorch, hc10, hfile, hruntime, rfl, rfl, rfl⟩⟩

end Toolchain

end ExtensionPlan
