import ExtensionPlan.Artifact.Basic

/-!
# Compilations

An artifact is compiled by at most two compilers: one for the C++ sources, and one for the kernels
if there are any. Both see the same include directories. Flags meant for the C++ compiler would
confuse the other one, but both understand definitions.
-/

namespace ExtensionPlan

/-- What one compiler is told. -/
structure Compilation where
  files : List Path
  includeDirs : List Path
  flags : List String
  /-- Whether the sources are C++. -/
  cpp : Bool
  /-- Whether the sources are GPU kernels. -/
  cuda : Bool
  /-- Whether the code may be loaded anywhere. -/
  pic : Bool
  /-- Whether the language version is set to C++17. -/
  cpp17 : Bool
  deriving DecidableEq, Repr

namespace Artifact

/-- The compilation of the native and binding sources. -/
def hostCompilation (a : Artifact) : Compilation where
  files := a.pathsOf .native ++ a.pathsOf .binding
  includeDirs := a.includeDirs
  flags := a.compileFlags.flags
  cpp := true
  cuda := false
  pic := true
  cpp17 := true

/-- The compilation of the kernels, if there are any. -/
def kernelCompilation? (a : Artifact) : Option Compilation :=
  let kernels := a.pathsOf .kernel
  if kernels.isEmpty then none
  else some {
    files := kernels
    includeDirs := a.includeDirs
    flags := a.compileFlags.flags.filter fun flag => "-D".toList.isPrefixOf flag.toList
    cpp := true
    cuda := true
    pic := true
    cpp17 := false }

end Artifact

end ExtensionPlan
