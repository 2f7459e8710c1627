import ExtensionPlan.Cuda
import ExtensionPlan.Locator
import ExtensionPlan.Package.Basic

/-!
# The toolchain

A toolchain is what a module needs from its surroundings: the binding generator with the headers
of the interpreter, the tensor runtime, and the GPU toolkit. There is no toolchain with a part
missing; `Toolchain.resolve` finds the parts in this order and stops at the first failure.

Packages are located by a `Locator`, and each located directory is a hint for the packages after
it as well. The GPU toolkit is no package and is found in its own way.
-/

namespace ExtensionPlan

/-- The binding generator and the interpreter that it binds to. -/
structure BindingLibrary where
  /-- The directory that the locator gave. -/
  dir : Path
  installDir : Path
  /-- The generator's headers, then the interpreter's. -/
  includeDirs : List Path
  moduleFlags : FlagSet
  extensionSuffix : String
  deriving DecidableEq, Repr

/-- The tensor runtime. -/
structure TensorRuntime where
  /-- The directory that the locator gave. -/
  dir : Path
  installDir : Path
  includeDirs : List Path
  libDirs : List Path
  library : LibraryHandle
  /-- The library that binds the runtime to Python. -/
  bindingLibrary : LibraryHandle
  flags : FlagSet
  deriving DecidableEq, Repr

/-- The GPU toolkit. -/
structure CudaToolkit (π : Type := Path) where
  home : π
  includeDirs : List π
  libDirs : List π
  runtime : LibraryHandle π
  deriving DecidableEq, Repr

/-- What a module needs from its surroundings. -/
structure Toolchain (κ : Type := CudaToolkit) where
  binding : BindingLibrary
  tensor : TensorRuntime
  cuda : κ
  hints : SearchHints
  deriving DecidableEq

namespace BindingLibrary

/-- The flags of every binding module. -/
def standardFlags : FlagSet := .ofList ["-fvisibility=hidden"]

/-- The suffix of file names when the locator knows none. -/
def standardSuffix : String := ".so"

/-- The suffix of the file names of extension modules. Without one the standard suffix is taken,
and that is worth a warning only. -/
def locateSuffix (locator : Locator) : Run PlanError String := do
  match ← (locator.locate .extensionSuffix).attempt with
  | .ok suffix => return suffix
  | .error e =>
    Run.warn (e.message ++ "; using " ++ standardSuffix ++ " for the module filename")
    return standardSuffix

/-- The binding generator at a directory, found with the hints given. -/
def resolve (locator : Locator) (dir : Path) (hints : SearchHints) :
    Run PlanError BindingLibrary := do
  let package ← Run.look (PackageSpec.pybind11.find hints)
  let headers := Path.ofString (← locator.locate .pythonHeaders)
  Run.look fun w =>
    if w.isDirectory headers then .ok ()
    else .error (.missing Dependency.pythonHeaders.name (.notDirectory headers))
  let suffix ← locateSuffix locator
  return {
    dir := dir
    installDir := package.installDir
    includeDirs := package.includeDirs ++ [headers]
    moduleFlags := standardFlags
    extensionSuffix := suffix }

end BindingLibrary

/-- The tensor runtime at a directory, found with the hints given. -/
def TensorRuntime.resolve (dir : Path) (hints : SearchHints) : Run PlanError TensorRuntime := do
  let package ← Run.look (PackageSpec.torch.find hints)
  let binding ← Run.look fun w =>
    (w.findLibrary "torch_python" package.libDirs).mapError fun e =>
      .missing "torch_python" (.noLibrary e)
  return {
    dir := dir
    installDir := package.installDir
    includeDirs := package.includeDirs
    libDirs := package.libDirs
    library := .ofFiles "torch" package.libraries
    bindingLibrary := .ofFiles "torch_python" [binding]
    flags := package.flags }

namespace CudaToolkit

/-- The name of the toolkit in messages. -/
def title : String := "CUDA toolkit"

/-- The toolkit at `home`, or where it is usually found. -/
def resolve (home : Option Path) (reader : Reader) : Run PlanError CudaToolkit := do
  let found ← match home with
    | some home => pure (some home)
    | none => Cuda.findHome reader
  match found with
  | none => Run.fail (.missing title .noCudaHome)
  | some home =>
    let layout ← (Cuda.Layout.discover home reader).mapError fun e =>
      .missing title (.badCudaHome e home)
    let runtime ← Run.look fun w =>
      (w.findLibrary "cudart" layout.libDirs).mapError fun e => .missing title (.noLibrary e)
    return {
      home := layout.home
      includeDirs := layout.includeDirs
      libDirs := layout.libDirs
      runtime := .ofFiles "cudart" [runtime] }

end CudaToolkit

/-- The toolchain that the locator leads to, the toolkit being resolved in the way given. -/
def Toolchain.resolveWith {κ : Type} (locator : Locator) (toolkit : Run PlanError κ) :
    Run PlanError (Toolchain κ) := do
  let bindingDir := Path.ofString (← locator.locate .bindingLibrary)
  let hints := SearchHints.empty.register bindingDir
  let binding ← BindingLibrary.resolve locator bindingDir hints
  let tensorDir := Path.ofString (← locator.locate .tensorRuntime)
  let hints := hints.register tensorDir
  let tensor ← TensorRuntime.resolve tensorDir hints
  let cuda ← toolkit
  return ⟨binding, tensor, cuda, hints⟩

/-- The toolchain that the locator leads to. -/
def Toolchain.resolve (locator : Locator) (cudaHome : Option Path) (reader : Reader) :
    Run PlanError Toolchain := resolveWith locator (CudaToolkit.resolve cudaHome reader)

end ExtensionPlan
