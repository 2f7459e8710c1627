import ExtensionPlan.Library
import ExtensionPlan.Package.Assignment

/-!
# Native packages

An installed package has a package file, which lies in one of a few places below a directory that
is searched. It is installed in the nearest directory above that file which has the package's
include directory; headers, libraries and flags follow from that directory and the file.

* `SearchHints` — the directories that are searched;
* `PackageSpec` — what a package looks like;
* `PackageSpec.find` — the package that is installed.
-/

namespace ExtensionPlan

/-! ## Search hints -/

/-- The directories that are searched for packages, none of them twice. -/
structure SearchHints where
  dirs : List Path
  distinct : dirs.Pairwise fun p q => p.same q = false
  deriving DecidableEq

namespace SearchHints

/-- No directories. -/
def empty : SearchHints := ⟨[], .nil⟩

instance : Inhabited SearchHints := ⟨empty⟩

/-- The hints with the directory at the end, unless it is there already. -/
def register (hints : SearchHints) (dir : Path) : SearchHints :=
  if h : dir.isIn hints.dirs = true then hints
  else
    { dirs := hints.dirs ++ [dir]
      distinct := by
        refine List.pairwise_append.2 ⟨hints.distinct, List.pairwise_singleton _ _, ?_⟩
        intro p hp q hq
        rw [List.mem_singleton] at hq
        subst hq
        exact Bool.eq_false_iff.2 fun hsame => h (Path.isIn_iff.2 ⟨p, hp, hsame⟩) }

end SearchHints

/-! ## Specifications -/

/-- What a package looks like once it is installed. -/
structure PackageSpec where
  name : String
  packageFile : String
  /-- Include directories, seen from where it is installed. The first has to be there. -/
  includeDirs : List String
  requiredLibraries : List String
  optionalLibraries : List String
  /-- The variable of the package file that holds compiler flags. -/
  flagsVariable : Option String
  deriving DecidableEq, Repr, Inhabited

/-- An installed package. -/
structure Package where
  name : String
  packageFile : Path
  installDir : Path
  includeDirs : List Path
  libDirs : List Path
  libraries : List Path
  flags : FlagSet
  deriving DecidableEq, Repr

namespace PackageSpec

/-- The tensor runtime. -/
def torch : PackageSpec where
  name := "Torch"
  packageFile := "TorchConfig.cmake"
  includeDirs := ["include", "include/torch/csrc/api/include"]
  requiredLibraries := ["torch", "c10"]
  optionalLibraries := ["torch_cpu", "torch_cuda", "c10_cuda"]
  flagsVariable := some "TORCH_CXX_FLAGS"

/-- The binding generator. -/
def pybind11 : PackageSpec where
  name := "pybind11"
  packageFile := "pybind11Config.cmake"
  includeDirs := ["include"]
  requiredLibraries := []
  optionalLibraries := []
  flagsVariable := none

/-! ## Finding a package -/

/-- Where the package file may be below a directory, the nearest places first. The package's own
directory may be spelled in small letters. -/
def candidates (spec : PackageSpec) (hint : Path) : List Path :=
  hint.join spec.packageFile ::
    [spec.name, spec.name.asciiLower].flatMap fun name : String =>
      [(hint.join name).join spec.packageFile,
        ((hint.join "share/cmake").join name).join spec.packageFile,
        ((hint.join "lib/cmake").join name).join spec.packageFile]

/-- The package file, the earlier directories first. -/
def findPackageFile (spec : PackageSpec) (hints : SearchHints) (w : World) : Option Path :=
  (hints.dirs.flatMap spec.candidates).find? w.isFile

/-- The include directory by which the place of the package is known. -/
def primaryInclude (spec : PackageSpec) : String := spec.includeDirs.head?.getD "include"

/-- The nearest directory above the package file that has the primary include directory. -/
def findInstallDir (spec : PackageSpec) (packageFile : Path) (w : World) : Option Path :=
  packageFile.parents.find? fun dir => w.isDirectory (dir.join spec.primaryInclude)

/-- The directories that exist of those seen from where the package is installed. -/
def existing (w : World) (installDir : Path) (places : List String) : List Path :=
  (places.map fun place : String => installDir.join place).filter w.isDirectory

/-- The flags that the package file holds. -/
def readFlags (spec : PackageSpec) (packageFile : Path) (w : World) : Except PlanError FlagSet :=
  match spec.flagsVariable with
  | none => .ok ∅
  | some name =>
    ((w.readText packageFile).mapError (.system packageFile)).map (Assignment.flags name)

/-- The package that is installed below one of the hints. -/
def find (spec : PackageSpec) (hints : SearchHints) (w : World) : Except PlanError Package := do
  let packageFile ← match spec.findPackageFile hints w with
    | some file => .ok file
    | none => .error (.missing spec.name (.noPackageFile spec.packageFile hints.dirs))
  let installDir ← match spec.findInstallDir packageFile w with
    | some dir => .ok dir
    | none => .error (.missing spec.name (.noInclude packageFile spec.primaryInclude))
  let libDirs := existing w installDir ["lib", "lib64"]
  let required ← spec.requiredLibraries.mapM fun name =>
    (w.findLibrary name libDirs).mapError fun e => PlanError.missing spec.name (.noLibrary e)
  let optional := spec.optionalLibraries.filterMap fun name => (w.findLibrary name libDirs).toOption
  let flags ← spec.readFlags packageFile w
  return {
    name := spec.name
    packageFile := packageFile
    installDir := installDir
    includeDirs := existing w installDir spec.includeDirs
    libDirs := libDirs
    libraries := required ++ optional
    flags := flags }

end PackageSpec

end ExtensionPlan
