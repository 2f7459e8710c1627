import ExtensionPlan.Artifact.Archive

/-!
# Planning

From a configuration to an artifact: resolve the toolchain, discover the sources, assemble them,
and link the kernel archive if it is wanted. Either all of it succeeds or there is no artifact.
-/

namespace ExtensionPlan

namespace Configuration

/-- The toolchain that a locator leads to under the configuration. -/
def resolveWith (c : Configuration) (locator : Locator) : Run PlanError Toolchain :=
  Toolchain.resolve locator c.cudaHome c.reader

/-- The artifact that a locator leads to under the configuration. The archive's part of the
configuration is looked at only if the archive is wanted. -/
def planWith (c : Configuration) (locator : Locator) : Run PlanError Artifact := do
  let toolchain ← c.resolveWith locator
  let sources ← Run.look (SourceSet.discover c)
  let artifact ← Run.look (Artifact.assemble c toolchain sources)
  if c.aot.isEnabled then
    let archive ← Run.look (KernelArchive.ofConfiguration c)
    let (artifact, linked) ← artifact.linkArchive c.aot archive
    if linked then Run.look fun _ => artifact.embedRuntimePath
    else return artifact
  else return artifact

/-- The toolchain of the configuration. -/
def resolve (c : Configuration) : Run PlanError Toolchain := do
  c.resolveWith (← Locator.ofConfiguration c)

/-- The artifact of the configuration. -/
def plan (c : Configuration) : Run PlanError Artifact := do
  c.planWith (← Locator.ofConfiguration c)

end Configuration

end ExtensionPlan
