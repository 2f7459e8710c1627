import ExtensionPlan.Executable
import ExtensionPlan.Library

/-!
# The GPU compute toolkit

Where the toolkit is (`Cuda.findHome`), and which of its directories hold headers and libraries
(`Cuda.Layout.discover`). Older and newer toolkits place them differently; every place that exists
is taken.
-/

namespace ExtensionPlan.Cuda

/-- The place where a toolkit is found that nothing names. -/
def standardHome : Path := "/usr/local/cuda"

/-- The toolkit's directory: what a variable names, the one above the compiler's own directory, or
the standard place. A compiler on the search path settles the matter even if no directory is two
levels above it. -/
def findHome {ε : Type} (reader : Reader) : Run ε (Option Path) := do
  let named ← match ← Run.readFilled reader "CUDA_HOME" with
    | some home => pure (some home)
    | none => Run.readFilled reader "CUDA_PATH"
  match named with
  | some home => return some (home : Path)
  | none =>
    Run.look fun w =>
      match w.findProgram "nvcc" with
      | some compiler => .ok (compiler.parent?.bind Path.parent?)
      | none => .ok (if w.isFound standardHome then some standardHome else none)

/-- The directories of a toolkit. -/
structure Layout (π : Type := Path) where
  home : π
  includeDirs : List π
  libDirs : List π
  deriving DecidableEq, Repr, Inhabited

/-- Where headers may be, seen from the toolkit. -/
def includePlaces : List Path := ["include", "targets/x86_64-linux/include"]

/-- Where libraries may be, seen from the toolkit. -/
def libPlaces : List Path := ["lib64", "lib", "lib/x64", "targets/x86_64-linux/lib"]

/-- The directories of the toolkit at `home`. The directory that `CUDA_LIB_DIR` names comes before
the other library directories; without headers there is no toolkit. -/
def Layout.discover (home : Path) (reader : Reader) : Run ProbeError Layout := do
  Run.look fun w => if w.isDirectory home then .ok () else .error .cudaNotFound
  let includeDirs ← Run.look fun w => .ok ((includePlaces.map home.join).filter w.isDirectory)
  if includeDirs.isEmpty then Run.fail (.cudaIncludeNotFound home)
  else
    let named ← Run.read reader "CUDA_LIB_DIR"
    let libDirs ← Run.look fun w => .ok <|
      ((libPlaces.map home.join).filter w.isDirectory).foldl Path.register
        ((named.toList.map Path.ofString).filter w.isDirectory)
    return ⟨home, includeDirs, libDirs⟩

end ExtensionPlan.Cuda
