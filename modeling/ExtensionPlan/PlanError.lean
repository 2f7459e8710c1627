import ExtensionPlan.Glob.Pattern
import ExtensionPlan.Path.Basic
import ExtensionPlan.Program
import ExtensionPlan.SystemError
import ExtensionPlan.Text.Quoted

/-!
# Why there is no plan

Two kinds of failure, each a type of causes with one function for the wording:

* `ProbeError` — a look at the surroundings found nothing usable;
* `PlanError` — planning came to an end without a plan. Some of its causes carry a probe's.
-/

namespace ExtensionPlan

/-- The paths as a list in a message. -/
def quotedPaths (paths : List Path) : String :=
  "[" ++ ", ".intercalate (paths.map fun p => Text.quotedPath p.text) ++ "]"

/-! ## Probes -/

/-- Why a look at the surroundings found nothing usable. -/
inductive ProbeError where
  | cudaNotFound
  | interpreterNotFound
  | libraryNotFound (name : String) (searched : List Path)
  /-- The toolkit at `home` has no include directory. -/
  | cudaIncludeNotFound (home : Path)
  deriving DecidableEq, Repr

/-- The wording of a probe's failure. -/
def ProbeError.message : ProbeError → String
  | .cudaNotFound => "CUDA installation not found"
  | .interpreterNotFound => "Python interpreter not found"
  | .libraryNotFound name searched =>
    "library " ++ name ++ " not found in " ++ quotedPaths searched
  | .cudaIncludeNotFound home =>
    "Path not found: CUDA include directory under " ++ home.text

/-! ## Causes -/

/-- Why a dependency could not be located. -/
inductive Diagnosis where
  /-- The interpreter did not start. -/
  | notStarted (cause : SystemError)
  /-- The interpreter did not end as it had to. -/
  | unsuccessful (reply : Reply)
  /-- The interpreter printed nothing that could be a location. -/
  | unusable (stdout : String)
  /-- The manifest does not mention the dependency. -/
  | noEntry
  /-- The variable for the dependency is not set. -/
  | unset
  /-- There is no interpreter to ask. -/
  | noInterpreter
  deriving DecidableEq, Repr

/-- How a reply that counts as a failure is reported: how the interpreter ended, and what it wrote,
its complaints first. -/
def Reply.diagnosis (reply : Reply) : String :=
  let status := match reply.status with
    | some code => "exit status " ++ toString code
    | none => "terminated by signal"
  let output := "\n".intercalate
    ([reply.stderr.trimBlank, reply.stdout.trimBlank].filter (· ≠ ""))
  if output = "" then status else status ++ ": " ++ output

/-- The wording of a diagnosis. -/
def Diagnosis.message : Diagnosis → String
  | .notStarted cause => "failed to run interpreter: " ++ cause.message
  | .unsuccessful reply => reply.diagnosis
  | .unusable stdout => "query printed no usable value: " ++ Text.quoted stdout.trimBlank
  | .noEntry => "no entry in manifest"
  | .unset => "environment variable is not set"
  | .noInterpreter => ProbeError.interpreterNotFound.message

/-- What is missing of a toolkit or package. -/
inductive Shortfall where
  /-- No package file of this name lies under the searched directories. -/
  | noPackageFile (file : String) (searched : List Path)
  /-- No directory above the package file has this include directory. -/
  | noInclude (packageFile : Path) (includeDirectory : String)
  | notDirectory (path : Path)
  | noLibrary (cause : ProbeError)
  /-- Nothing tells where the toolkit is. -/
  | noCudaHome
  /-- What is at `home` is no toolkit. -/
  | badCudaHome (cause : ProbeError) (home : Path)
  deriving DecidableEq, Repr

/-- The wording of a shortfall. -/
def Shortfall.message : Shortfall → String
  | .noPackageFile file searched => "no " ++ file ++ " under " ++ quotedPaths searched
  | .noInclude packageFile includeDirectory =>
    "found " ++ packageFile.text ++ " but no " ++ includeDirectory ++ " directory above it"
  | .notDirectory path => path.text ++ " is not a directory"
  | .noLibrary cause => cause.message
  | .noCudaHome => "set CUDA_HOME or CUDA_PATH, or put nvcc on PATH"
  | .badCudaHome cause home => cause.message ++ " (CUDA_HOME=" ++ home.text ++ ")"

/-- Why a value is not accepted for a setting. -/
inductive Rejection where
  | notToggle
  | notBoolean
  | notLocator
  | badPattern (cause : Glob.PatternError)
  /-- The manifest locator was chosen and no manifest named. -/
  | noManifest
  | notManifest
  deriving DecidableEq, Repr

/-- The wording of a rejection. -/
def Rejection.message : Rejection → String
  | .notToggle => "expected one of on/1/true or off/0/false"
  | .notBoolean => "expected a boolean"
  | .notLocator => "expected one of interpreter, manifest, env"
  | .badPattern cause => "bad source pattern: " ++ cause.message
  | .noManifest => "the manifest locator needs a manifest path"
  | .notManifest => "not a JSON object of strings"

/-- Why the located parts make no artifact. -/
inductive ArtifactFault where
  /-- The source directory has no source with this extension. -/
  | noSources (extension : String) (directory : Path)
  /-- The module links the kernel archive, and no directory to load it from is absolute. -/
  | noRuntimePath (module : String)
  deriving DecidableEq, Repr

/-- The wording of an artifact's fault. -/
def ArtifactFault.message : ArtifactFault → String
  | .noSources extension directory =>
    "no native sources matching *." ++ extension ++ " in " ++ directory.text
  | .noRuntimePath module =>
    module ++ " links the ahead-of-time kernel archive but has no absolute library directory " ++
      "to embed"

/-! ## Planning -/

/-- Why planning came to an end without a plan. -/
inductive PlanError where
  /-- The dependency was not located; `expression` is what was asked for it. -/
  | notLocated (dependency expression : String) (diagnosis : Diagnosis)
  | missing (toolkit : String) (shortfall : Shortfall)
  | artifact (fault : ArtifactFault)
  /-- The value of the variable `key` is not accepted. -/
  | rejected (key value : String) (reason : Rejection)
  | system (path : Path) (cause : SystemError)
  deriving DecidableEq, Repr

/-- The wording of a failure. -/
def PlanError.message : PlanError → String
  | .notLocated dependency expression diagnosis =>
    "failed to locate " ++ dependency ++ " (query " ++ Text.quoted expression ++ "): " ++
      diagnosis.message
  | .missing toolkit shortfall => toolkit ++ " not found: " ++ shortfall.message
  | .artifact fault => "cannot assemble artifact: " ++ fault.message
  | .rejected key value reason =>
    "invalid configuration " ++ key ++ "=" ++ Text.quoted value ++ ": " ++ reason.message
  | .system path cause => "io error on " ++ path.text ++ ": " ++ cause.message

/-- The cause underneath a failure, where it has one of its own. -/
def PlanError.cause? : PlanError → Option String
  | .system _ cause => some cause.message
  | _ => none

end ExtensionPlan
