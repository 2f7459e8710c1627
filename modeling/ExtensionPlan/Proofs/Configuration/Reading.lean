import ExtensionPlan.Configuration
import ExtensionPlan.Proofs.Run

/-!
# ExtensionPlan.Proofs.Configuration.Reading

**What is read.** Four steps of reading a configuration can fail: the source directory, the
strictness of toggles, the kernel toggle and the kind of locator. `Configuration.result_read` puts
them in their order, and everything else that was read into `Configuration.ofParts`, so that later
statements take those four steps apart and never the thirteen variables.
-/

namespace ExtensionPlan

/-- The value of a variable that is not empty. -/
def World.filled? (w : World) (reader : Reader) (name : String) : Option String :=
  (w.value? reader name).filter (· ≠ "")

namespace Configuration

/-! ### The kernel toggle -/

/-- The kernel toggle that a text sets, read strictly or not. -/
def toggleOf (strict : Bool) (text : Option String) : Except PlanError Toggle :=
  if strict then Toggle.parseStrict Setting.aot.key text else .ok (Toggle.parse text)

theorem setAot_eq (c : Configuration) (text : Option String) :
    c.setAot text = (toggleOf c.strictToggles text).map fun aot => { c with aot := aot } := by
  unfold setAot toggleOf
  split <;> rfl

/-! ### The steps of reading -/

variable (reader : Reader) (w : World)

theorem result_readSourceDir :
    (readSourceDir reader w).result =
      match w.filled? reader Setting.sourceDir.key with
      | some dir => .ok (dir : Path)
      | none => w.currentDirectory.mapError (.system ".") := by
  unfold readSourceDir World.filled?
  rw [Run.result_bind, Run.result_readFilled]
  cases (w.value? reader Setting.sourceDir.key).filter (· ≠ "") with
  | none => rfl
  | some dir => rfl

theorem result_readParsed {α : Type} (s : Setting) (parse : String → Except PlanError α)
    (unset : α) :
    (readParsed reader s parse unset w).result =
      match w.filled? reader s.key with
      | some text => parse text
      | none => .ok unset := by
  unfold readParsed World.filled?
  rw [Run.result_bind, Run.result_readFilled]
  cases (w.value? reader s.key).filter (· ≠ "") with
  | none => rfl
  | some text => rfl

theorem result_readCudaHome :
    (readCudaHome reader w).result =
      .ok (w.filled? reader Setting.cudaHome.key <|> w.filled? reader "CUDA_PATH") := by
  unfold readCudaHome World.filled?
  rw [Run.result_bind, Run.result_readFilled]
  cases (w.value? reader Setting.cudaHome.key).filter (· ≠ "") with
  | none => rfl
  | some home => rfl

/-! ### The configuration -/

/-- The configuration with the four parts that may be refused as they are given, and all other
parts as the environment has them. -/
def ofParts (sourceDir : Path) (strictToggles : Bool) (aot : Toggle) (locator : LocatorKind) :
    Configuration :=
  let filled (s : Setting) := w.filled? reader s.key
  { python := (filled .python).map Path.ofString
    sourceDir := sourceDir
    bindingsDirName := (filled .bindingsDirName).getD "pybind"
    kernelFile := (filled .kernelFile).getD "kernel.cu"
    sourceExtension :=
      ((filled .sourceExtension).map fun e =>
        String.ofList (e.toList.dropWhile (· == '.'))).getD "cc"
    moduleName := (filled .moduleName).getD "triton_distributed"
    aot := aot
    strictToggles := strictToggles
    archive := (filled .archive).getD "triton_distributed_kernel"
    archiveDirs :=
      ((filled .archiveDirs).map fun text => (Path.ofSearchList text).filter (!·.isEmpty)).getD []
    cudaHome :=
      (filled .cudaHome <|> w.filled? reader "CUDA_PATH").map Path.ofString
    locator := locator
    manifest := (filled .manifest).map Path.ofString
    flags := ((filled .flags).map FlagSet.parse).getD ∅
    reader := reader }

/-- Reading is the four steps that may fail, in their order. -/
theorem result_readFor (later : Reader) :
    (readFor reader later w).result = (do
      let sourceDir ← (readSourceDir reader w).result
      let strict ←
        (readParsed reader .strictToggles (parseBoolean .strictToggles) false w).result
      let aot ← toggleOf strict (w.value? reader Setting.aot.key)
      let locator ← (readParsed reader .locator LocatorKind.parse .interpreter w).result
      return { ofParts reader w sourceDir strict aot locator with reader := later }) := by
  unfold readFor
  simp only [Run.result_bind, Run.result_look, Run.result_read, Run.result_readFilled,
    Run.result_pure, result_readCudaHome, setAot_eq, ok_bind]
  refine bind_congr fun sourceDir => bind_congr fun strict => ?_
  cases toggleOf strict (w.value? reader Setting.aot.key) with
  | error e => rfl
  | ok aot => rfl

theorem result_read :
    (read reader w).result = (do
      let sourceDir ← (readSourceDir reader w).result
      let strict ←
        (readParsed reader .strictToggles (parseBoolean .strictToggles) false w).result
      let aot ← toggleOf strict (w.value? reader Setting.aot.key)
      let locator ← (readParsed reader .locator LocatorKind.parse .interpreter w).result
      return ofParts reader w sourceDir strict aot locator) := result_readFor reader w reader

variable {reader : Reader} {w : World} {c : Configuration}

/-- A configuration was read when each of the four steps had a value. -/
theorem read_eq_ok_iff :
    (read reader w).result = .ok c ↔
      ∃ sourceDir, (readSourceDir reader w).result = .ok sourceDir ∧
      ∃ strict, (readParsed reader .strictToggles (parseBoolean .strictToggles) false w).result =
        .ok strict ∧
      ∃ aot, toggleOf strict (w.value? reader Setting.aot.key) = .ok aot ∧
      ∃ locator, (readParsed reader .locator LocatorKind.parse .interpreter w).result =
        .ok locator ∧
      ofParts reader w sourceDir strict aot locator = c := by
  simp only [result_read, bind_eq_ok_iff, pure_eq_ok_iff]

/-- Later steps read the environment as the configuration was read. -/
theorem reader_of_read (h : (read reader w).result = .ok c) : c.reader = reader := by
  obtain ⟨sourceDir, -, strict, -, aot, -, locator, -, rfl⟩ := read_eq_ok_iff.1 h
  rfl

end Configuration

end ExtensionPlan
