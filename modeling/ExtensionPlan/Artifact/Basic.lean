import ExtensionPlan.SourceSet
import ExtensionPlan.Toolchain

/-!
# Artifacts

An artifact is one loadable module as a compiler and a linker have to be told about it: its
compilation units, include directories, flags, libraries, link directories and the search path
embedded in it. It is assembled from a configuration, a toolchain and sources, and afterwards only
grows (`Artifact.link`, `Artifact.addLinkDir`).
-/

namespace ExtensionPlan

/-- The collection that a compilation unit came from. -/
inductive UnitKind where
  | native
  | binding
  | kernel
  deriving DecidableEq, Repr

/-- The name of the kind. -/
def UnitKind.name : UnitKind → String
  | .native => "native"
  | .binding => "binding"
  | .kernel => "kernel"

/-- A source to be compiled. -/
structure CompilationUnit where
  path : Path
  kind : UnitKind
  deriving DecidableEq, Repr

/-- One registration of include directories: the tensor runtime's and a companion. -/
structure IncludeRule where
  dirs : List Path
  deriving DecidableEq, Repr

/-- Where a loader searches the libraries of the artifact. -/
structure RuntimePath where
  /-- Entries that depend on where the artifact lies. -/
  relative : List String
  absolute : List Path
  deriving DecidableEq, Repr

namespace RuntimePath

/-- The entries, the relative ones first. -/
def entries (r : RuntimePath) : List String := r.relative ++ r.absolute.map (·.text)

/-- The arguments by which a linker embeds the entries. -/
def linkerArgs (r : RuntimePath) : List String := r.entries.map ("-Wl,-rpath," ++ ·)

/-- What a loader takes for the directory of the loaded object. -/
def originToken : String := "$ORIGIN"

end RuntimePath

/-- A module to be built. -/
structure Artifact where
  name : String
  filename : String
  units : List CompilationUnit
  includeRules : List IncludeRule
  interfaceIncludes : List Path
  compileFlags : FlagSet
  libraries : List LibraryHandle
  linkDirs : List Path
  runtimePath : Option RuntimePath
  deriving DecidableEq, Repr

namespace Artifact

/-! ## Assembling -/

/-- The compilation units of the sources: native, then binding, then kernel ones. -/
def unitsOf (s : SourceSet) : List CompilationUnit :=
  s.native.map (⟨·, .native⟩) ++ s.bindings.map (⟨·, .binding⟩) ++ s.kernels.map (⟨·, .kernel⟩)

/-- The module that the parts make. There has to be a native source. -/
def assemble (c : Configuration) (t : Toolchain) (s : SourceSet) (w : World) :
    Except PlanError Artifact :=
  if s.native.isEmpty then .error (.artifact (.noSources c.sourceExtension c.sourceDir))
  else do
    let companions := [← c.sourceDirectory w, ← c.parentDirectory w, ← c.bindingsDirectory w]
    return {
      name := c.moduleName
      filename := c.moduleName ++ t.binding.extensionSuffix
      units := unitsOf s
      includeRules := companions.map fun companion => ⟨t.tensor.includeDirs ++ [companion]⟩
      interfaceIncludes := t.binding.includeDirs
      compileFlags := (c.flags.merge t.tensor.flags).merge t.binding.moduleFlags
      libraries := [t.tensor.library, t.tensor.bindingLibrary, t.cuda.runtime]
      linkDirs := []
      runtimePath := none }

/-! ## Growing -/

/-- The artifact with one more library. -/
def link (a : Artifact) (library : LibraryHandle) : Artifact :=
  { a with libraries := a.libraries ++ [library] }

/-- The artifact with one more link directory, unless it is there already. -/
def addLinkDir (a : Artifact) (dir : Path) : Artifact :=
  { a with linkDirs := Path.register a.linkDirs dir }

/-! ## Views -/

/-- The sources of one kind. -/
def pathsOf (a : Artifact) (kind : UnitKind) : List Path :=
  (a.units.filter fun u => decide (u.kind = kind)).map (·.path)

/-- Every include directory once: those of the rules, then those of the binding library. -/
def includeDirs (a : Artifact) : List Path :=
  Path.dedup (a.includeRules.flatMap (·.dirs) ++ a.interfaceIncludes)

end Artifact

end ExtensionPlan
