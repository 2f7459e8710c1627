import ExtensionPlan.Configuration
import ExtensionPlan.Glob.Search

/-!
# Sources

The sources of a module come from two directories: hand-written ones and the kernel from the
source directory, generated bindings from the directory beside it. Each collection is in the order
of paths.
-/

namespace ExtensionPlan

/-- The sources of a module. -/
structure SourceSet where
  native : List Path
  bindings : List Path
  kernels : List Path
  deriving DecidableEq, Repr, Inhabited

namespace SourceSet

/-- The number of sources. -/
def size (s : SourceSet) : Nat := s.native.length + s.bindings.length + s.kernels.length

/-- Is there no source at all? -/
def isEmpty (s : SourceSet) : Bool := s.size == 0

/-- The files of a directory that match the pattern, which is what the setting holds. A directory
that does not exist has none, and its pattern is not looked at; one below it that cannot be listed
may hold some, so then there is no answer. -/
def findIn (w : World) (dir : Path) (pattern : String) (setting : Setting) :
    Except PlanError (List Path) :=
  if w.isDirectory dir then
    match w.glob (Glob.escape dir.chars ++ '/' :: pattern.toList) with
    | .ok found => do
      let paths ← (found.mapM id).mapError fun e : Glob.Unlisted => .system e.path e.cause
      return Sorted.ofList Path.le (paths.filter w.isFile)
    | .error e => .error (.rejected setting.key pattern (.badPattern e))
  else .ok []

/-- The sources that a configuration describes. -/
def discover (c : Configuration) (w : World) : Except PlanError SourceSet := do
  let sourceDir ← c.sourceDirectory w
  let pattern := "*." ++ c.sourceExtension
  let native ← findIn w sourceDir pattern .sourceExtension
  let bindings ← findIn w (← c.bindingsDirectory w) pattern .sourceExtension
  let kernels ← findIn w sourceDir c.kernelFile .kernelFile
  return ⟨native, bindings, kernels⟩

end SourceSet

end ExtensionPlan
