import ExtensionPlan.FlagSet
import ExtensionPlan.Run
import ExtensionPlan.Toggle

/-!
# Configuration

Every setting has a name and an environment variable. `Configuration.readFor` reads the variables
once, in a fixed order, and the settings that are not set keep their defaults; nothing that is
derived from a configuration reads these variables again. The directories of a configuration are
spelled as they were given and made absolute on use (`Configuration.sourceDirectory` and its
neighbours).
-/

namespace ExtensionPlan

/-! ## Settings -/

/-- Something that can be configured. -/
inductive Setting where
  /-- The interpreter that is asked for dependencies. -/
  | python
  /-- The directory of the hand-written sources and the kernel. -/
  | sourceDir
  /-- The name of the directory of generated bindings, beside the source directory. -/
  | bindingsDirName
  /-- The file name of the kernel source. -/
  | kernelFile
  /-- The extension of native and binding sources. -/
  | sourceExtension
  /-- The name of the module that is produced. -/
  | moduleName
  /-- Whether the ahead-of-time kernel archive is linked. -/
  | aot
  /-- Whether a toggle that is not understood is an error. -/
  | strictToggles
  /-- The link name of the kernel archive. -/
  | archive
  /-- The directories of the kernel archive. -/
  | archiveDirs
  /-- The directory of the GPU toolkit. -/
  | cudaHome
  /-- How dependencies are located. -/
  | locator
  /-- The manifest that a locator may read. -/
  | manifest
  /-- The compiler flags to start from. -/
  | flags
  deriving DecidableEq, Repr

namespace Setting

/-- The name of the setting. -/
def name : Setting → String
  | .python => "python"
  | .sourceDir => "source_dir"
  | .bindingsDirName => "bindings_dir_name"
  | .kernelFile => "kernel_file"
  | .sourceExtension => "source_extension"
  | .moduleName => "module_name"
  | .aot => "aot"
  | .strictToggles => "strict_feature_flags"
  | .archive => "aot_archive"
  | .archiveDirs => "aot_lib_dirs"
  | .cudaHome => "cuda_home"
  | .locator => "locator"
  | .manifest => "manifest"
  | .flags => "cxx_flags"

/-- The environment variable of the setting. -/
def key : Setting → String
  | .python => "PYO3_PYTHON"
  | .sourceDir => "EXT_SOURCE_DIR"
  | .bindingsDirName => "EXT_BINDINGS_DIR"
  | .kernelFile => "EXT_KERNEL_FILE"
  | .sourceExtension => "EXT_SOURCE_EXT"
  | .moduleName => "EXT_MODULE_NAME"
  | .aot => "TRITON_DIST_AOT"
  | .strictToggles => "EXT_STRICT_FEATURE_FLAGS"
  | .archive => "EXT_AOT_ARCHIVE"
  | .archiveDirs => "EXT_AOT_LIB_DIRS"
  | .cudaHome => "CUDA_HOME"
  | .locator => "EXT_LOCATOR"
  | .manifest => "EXT_DEPENDENCY_MANIFEST"
  | .flags => "CXXFLAGS"

/-- The settings in the order in which they are listed to the user. -/
def all : List Setting :=
  [.python, .sourceDir, .bindingsDirName, .kernelFile, .sourceExtension, .moduleName, .aot,
    .strictToggles, .archive, .archiveDirs, .cudaHome, .locator, .manifest, .flags]

end Setting

/-! ## Values of settings -/

/-- How dependencies are located. -/
inductive LocatorKind where
  /-- By asking the interpreter. -/
  | interpreter
  /-- By a manifest. -/
  | manifest
  /-- By one environment variable each. -/
  | environment
  deriving DecidableEq, Repr, Inhabited

/-- The name of the kind. -/
def LocatorKind.name : LocatorKind → String
  | .interpreter => "interpreter"
  | .manifest => "manifest"
  | .environment => "env"

/-- The kind that the text names, without regard to capitals and white space around it. -/
def LocatorKind.parse (text : String) : Except PlanError LocatorKind :=
  let word := text.trimBlank.asciiLower
  if word = "interpreter" ∨ word = "python" then .ok .interpreter
  else if word = "manifest" then .ok .manifest
  else if word = "env" ∨ word = "environment" then .ok .environment
  else .error (.rejected Setting.locator.key text .notLocator)

/-- The truth value that the text names, without regard to capitals and white space around it. -/
def parseBoolean (setting : Setting) (text : String) : Except PlanError Bool :=
  let word := text.trimBlank.asciiLower
  if ["1", "true", "on", "yes"].contains word then .ok true
  else if ["0", "false", "off", "no"].contains word then .ok false
  else .error (.rejected setting.key text .notBoolean)

/-! ## Configurations -/

/-- What one plan is made from. -/
structure Configuration (π : Type := Path) where
  python : Option π
  sourceDir : π
  bindingsDirName : String
  kernelFile : String
  sourceExtension : String
  moduleName : String
  aot : Toggle
  strictToggles : Bool
  archive : String
  /-- No directories mean the one where the archive is built below the source directory. -/
  archiveDirs : List π
  cudaHome : Option π
  locator : LocatorKind
  manifest : Option π
  flags : FlagSet
  /-- How later steps read the environment. -/
  reader : Reader
  deriving DecidableEq, Repr, Inhabited

namespace Configuration

/-- The configuration with its paths in another form. -/
def map {π ρ : Type} (f : π → ρ) (c : Configuration π) : Configuration ρ :=
  { c with
    python := c.python.map f
    sourceDir := f c.sourceDir
    archiveDirs := c.archiveDirs.map f
    cudaHome := c.cudaHome.map f
    manifest := c.manifest.map f }

/-- The configuration with every setting but the source directory at its default. -/
def ofSourceDir (sourceDir : Path) (reader : Reader) : Configuration where
  python := none
  sourceDir := sourceDir
  bindingsDirName := "pybind"
  kernelFile := "kernel.cu"
  sourceExtension := "cc"
  moduleName := "triton_distributed"
  aot := .disabled
  strictToggles := false
  archive := "triton_distributed_kernel"
  archiveDirs := []
  cudaHome := none
  locator := .interpreter
  manifest := none
  flags := ∅
  reader := reader

/-- The configuration with its kernel toggle set by a text, read as strictly as the configuration
asks for. -/
def setAot {π : Type} (c : Configuration π) (text : Option String) :
    Except PlanError (Configuration π) :=
  if c.strictToggles then
    (Toggle.parseStrict Setting.aot.key text).map fun aot => { c with aot := aot }
  else .ok { c with aot := Toggle.parse text }

/-! ## Reading -/

/-- The source directory that a variable names, or else the working directory. -/
def readSourceDir (reader : Reader) : Run PlanError Path := do
  match ← Run.readFilled reader Setting.sourceDir.key with
  | some dir => return (dir : Path)
  | none => Run.look fun w => w.currentDirectory.mapError (.system ".")

/-- The value that the text of a setting stands for, or the given one if the setting is not set. -/
def readParsed {α : Type} (reader : Reader) (s : Setting) (parse : String → Except PlanError α)
    (unset : α) : Run PlanError α := do
  match ← Run.readFilled reader s.key with
  | some text => Run.look fun _ => parse text
  | none => return unset

/-- The directory of the GPU toolkit. Where its own variable does not name one, another may. -/
def readCudaHome (reader : Reader) : Run PlanError (Option String) := do
  match ← Run.readFilled reader Setting.cudaHome.key with
  | some home => return some home
  | none => Run.readFilled reader "CUDA_PATH"

/-- The configuration that the environment describes, for later steps that read the environment in
a way of their own. An empty variable counts as unset. -/
def readFor (reader later : Reader) : Run PlanError Configuration := do
  let setting (s : Setting) : Run PlanError (Option String) := Run.readFilled reader s.key
  let sourceDir ← readSourceDir reader
  let c := ofSourceDir sourceDir later
  let python ← setting .python
  let bindingsDirName ← setting .bindingsDirName
  let kernelFile ← setting .kernelFile
  let sourceExtension ← setting .sourceExtension
  let moduleName ← setting .moduleName
  let strictToggles ←
    readParsed reader .strictToggles (parseBoolean .strictToggles) c.strictToggles
  let aot ← Run.read reader Setting.aot.key
  let c ← Run.look fun _ => { c with strictToggles := strictToggles }.setAot aot
  let archive ← setting .archive
  let archiveDirs ← setting .archiveDirs
  let cudaHome ← readCudaHome reader
  let locator ← readParsed reader .locator LocatorKind.parse c.locator
  let manifest ← setting .manifest
  let flags ← setting .flags
  return { c with
    python := python.map Path.ofString
    bindingsDirName := bindingsDirName.getD c.bindingsDirName
    kernelFile := kernelFile.getD c.kernelFile
    sourceExtension :=
      (sourceExtension.map fun e => String.ofList (e.toList.dropWhile (· == '.'))).getD
        c.sourceExtension
    moduleName := moduleName.getD c.moduleName
    archive := archive.getD c.archive
    archiveDirs :=
      (archiveDirs.map fun text => (Path.ofSearchList text).filter (!·.isEmpty)).getD
        c.archiveDirs
    cudaHome := cudaHome.map Path.ofString
    locator := locator
    manifest := manifest.map Path.ofString
    flags := (flags.map FlagSet.parse).getD c.flags }

/-- The configuration that the environment describes, for later steps that read it likewise. -/
def read (reader : Reader) : Run PlanError Configuration := readFor reader reader

/-! ## Directories -/

/-- The path as seen from the root. -/
def absolute (w : World) (p : Path) : Except PlanError Path := (w.absolute p).mapError (.system p)

/-- The source directory. -/
def sourceDirectory (c : Configuration) (w : World) : Except PlanError Path :=
  absolute w c.sourceDir

/-- The directory above the source directory; the root stands in for its own. -/
def parentDirectory (c : Configuration) (w : World) : Except PlanError Path :=
  (c.sourceDirectory w).map fun dir => dir.parent?.getD dir

/-- The directory of generated bindings, beside the source directory. -/
def bindingsDirectory (c : Configuration) (w : World) : Except PlanError Path :=
  (c.parentDirectory w).map (·.join c.bindingsDirName)

/-- The directories of the kernel archive. Empty paths among them do not count. -/
def archiveDirectories (c : Configuration) (w : World) : Except PlanError (List Path) :=
  let dirs := c.archiveDirs.filter (!·.isEmpty)
  if dirs.isEmpty then (c.sourceDirectory w).map fun dir => [(dir.join "build").join "lib"]
  else dirs.mapM (absolute w)

end Configuration

end ExtensionPlan
