import ExtensionPlan.Json.Basic
import ExtensionPlan.Plan

/-!
# Descriptions

What is planned and what it is planned from, as JSON documents. Paths are written as they are
spelled, and what may be missing is written as `null`.
-/

namespace ExtensionPlan

/-- The document of a list of paths. -/
def Json.ofPaths (paths : List Path) : Json := .ofTexts (paths.map (·.text))

/-- The document of flags. -/
def FlagSet.document (set : FlagSet) : Json := .ofTexts set.flags

/-- The document of a configuration. How it reads the environment is not part of it. -/
def Configuration.document (c : Configuration) : Json :=
  .object [
    ("python", .ofOption (fun p : Path => .text p.text) c.python),
    ("source_dir", .text c.sourceDir.text),
    ("bindings_dir_name", .text c.bindingsDirName),
    ("kernel_file", .text c.kernelFile),
    ("source_extension", .text c.sourceExtension),
    ("module_name", .text c.moduleName),
    ("aot", .text c.aot.name),
    ("strict_feature_flags", .bool c.strictToggles),
    ("aot_archive", .text c.archive),
    ("aot_lib_dirs", .ofPaths c.archiveDirs),
    ("cuda_home", .ofOption (fun p : Path => .text p.text) c.cudaHome),
    ("locator", .text c.locator.name),
    ("manifest", .ofOption (fun p : Path => .text p.text) c.manifest),
    ("cxx_flags", c.flags.document)]

/-- The document of a linked library. -/
def LibraryHandle.document (library : LibraryHandle) : Json :=
  .object [
    ("name", .text library.name),
    ("kind", .text library.kind.name),
    ("files", .ofPaths library.files)]

/-- The document of a package. -/
def Package.document (p : Package) : Json :=
  .object [
    ("name", .text p.name),
    ("config_file", .text p.packageFile.text),
    ("prefix", .text p.installDir.text),
    ("include_dirs", .ofPaths p.includeDirs),
    ("lib_dirs", .ofPaths p.libDirs),
    ("libraries", .ofPaths p.libraries),
    ("cxx_flags", p.flags.document)]

/-- The document of the binding generator. -/
def BindingLibrary.document (b : BindingLibrary) : Json :=
  .object [
    ("dir", .text b.dir.text),
    ("prefix", .text b.installDir.text),
    ("include_dirs", .ofPaths b.includeDirs),
    ("module_flags", b.moduleFlags.document),
    ("extension_suffix", .text b.extensionSuffix)]

/-- The document of the tensor runtime. -/
def TensorRuntime.document (t : TensorRuntime) : Json :=
  .object [
    ("dir", .text t.dir.text),
    ("prefix", .text t.installDir.text),
    ("include_dirs", .ofPaths t.includeDirs),
    ("lib_dirs", .ofPaths t.libDirs),
    ("library", t.library.document),
    ("binding_library", t.bindingLibrary.document),
    ("cxx_flags", t.flags.document)]

/-- The document of the GPU toolkit. -/
def CudaToolkit.document (c : CudaToolkit) : Json :=
  .object [
    ("home", .text c.home.text),
    ("include_dirs", .ofPaths c.includeDirs),
    ("lib_dirs", .ofPaths c.libDirs),
    ("runtime", c.runtime.document)]

/-- The document of a toolchain. -/
def Toolchain.document (t : Toolchain) : Json :=
  .object [
    ("binding", t.binding.document),
    ("tensor", t.tensor.document),
    ("cuda", t.cuda.document),
    ("search_hints", .ofPaths t.hints.dirs)]

/-- The document of a compilation unit. -/
def CompilationUnit.document (u : CompilationUnit) : Json :=
  .object [("path", .text u.path.text), ("kind", .text u.kind.name)]

/-- The document of a registration of include directories. -/
def IncludeRule.document (r : IncludeRule) : Json := .object [("dirs", .ofPaths r.dirs)]

/-- The document of a search path for loading. -/
def RuntimePath.document (r : RuntimePath) : Json :=
  .object [("relative", .ofTexts r.relative), ("absolute", .ofPaths r.absolute)]

/-- The document of an artifact. -/
def Artifact.document (a : Artifact) : Json :=
  .object [
    ("name", .text a.name),
    ("filename", .text a.filename),
    ("units", .list (a.units.map CompilationUnit.document)),
    ("include_rules", .list (a.includeRules.map IncludeRule.document)),
    ("interface_includes", .ofPaths a.interfaceIncludes),
    ("compile_flags", a.compileFlags.document),
    ("libraries", .list (a.libraries.map LibraryHandle.document)),
    ("link_dirs", .ofPaths a.linkDirs),
    ("runtime_path", .ofOption RuntimePath.document a.runtimePath)]

end ExtensionPlan
