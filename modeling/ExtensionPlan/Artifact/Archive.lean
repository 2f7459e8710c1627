import ExtensionPlan.Artifact.Basic

/-!
# The ahead-of-time kernel archive

A separately built archive of kernels may be linked by name. The artifact then needs its
directories twice: to link, and to load. For loading it is told both the directory it will lie in
itself, so that an installed copy finds libraries shipped beside it, and the absolute link
directories, so that the copy in the build tree finds them where they were linked from.
-/

namespace ExtensionPlan

/-- An archive of kernels, and the directories of it and of what it needs. -/
structure KernelArchive where
  name : String
  libDirs : List Path
  deriving DecidableEq, Repr

/-- The archive that a configuration names. -/
def KernelArchive.ofConfiguration (c : Configuration) (w : World) :
    Except PlanError KernelArchive :=
  (c.archiveDirectories w).map fun dirs => ⟨c.archive, dirs⟩

/-- Has none of its directories the archive? -/
def KernelArchive.isMissing (archive : KernelArchive) (w : World) : Bool :=
  !(w.findLibrary archive.name archive.libDirs).toBool

namespace Artifact

/-- The artifact that links the archive. -/
def withArchive (a : Artifact) (archive : KernelArchive) : Artifact :=
  archive.libDirs.foldl addLinkDir (a.link (.ofName archive.name))

/-- Link the archive if it is wanted; the answer tells whether it was. An archive that is not
there may still be built before the module is, so that is worth a warning only. -/
def linkArchive (a : Artifact) (wanted : Toggle) (archive : KernelArchive) :
    Run PlanError (Artifact × Bool) :=
  if wanted.isEnabled then do
    if ← Run.look fun w => .ok (archive.isMissing w) then
      Run.warn "ahead-of-time kernel archive not found yet"
    return (a.withArchive archive, true)
  else pure (a, false)

/-- The artifact with a search path from its absolute link directories. -/
def embedRuntimePath (a : Artifact) : Except PlanError Artifact :=
  let absolute := a.linkDirs.filter Path.isAbsolute
  if absolute.isEmpty then .error (.artifact (.noRuntimePath a.name))
  else .ok { a with runtimePath := some ⟨[RuntimePath.originToken], absolute⟩ }

end Artifact

end ExtensionPlan
