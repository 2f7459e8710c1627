import ExtensionPlan.Plan

/-!
# ExtensionPlan.Proofs.World.Variables

**Files do not depend on variables.** `World.withVariables` changes all variables, that of the home
directory among them, and leaves everything else as it is. Whatever is looked up in the file tree is
the same after that: most searches are, by what they are made of, and those that go on from what they
found are by the recursion in which they do so (`World.below`, `World.expand`,
`World.executeFirst`). Only the search for a program looks at the home directory, and an empty
variable stands for the account's as no variable does.
-/

namespace ExtensionPlan

/-- What is set around a run: the variables of the table and of the process, and the home
directory. -/
structure Variables where
  table : String → Option String
  process : String → Option String
  home : Option String

namespace World

/-- The surroundings with other variables and another home directory. -/
def withVariables (w : World) (v : Variables) : World :=
  { w with table := v.table, process := v.process, home := v.home }

/-- The surroundings with other variables of the process. -/
def withProcess (w : World) (env : String → Option String) : World :=
  { w with process := env }

theorem withProcess_eq (w : World) (env : String → Option String) :
    w.withProcess env = w.withVariables ⟨w.table, env, w.home⟩ := rfl

variable (w : World) (v : Variables)

/-! ### Looking at files -/

@[simp] theorem isFile_withVariables : (w.withVariables v).isFile = w.isFile := rfl

@[simp] theorem isDirectory_withVariables :
    (w.withVariables v).isDirectory = w.isDirectory := rfl

@[simp] theorem isFound_withVariables : (w.withVariables v).isFound = w.isFound := rfl

@[simp] theorem isPresent_withVariables : (w.withVariables v).isPresent = w.isPresent := rfl

@[simp] theorem readText_withVariables : (w.withVariables v).readText = w.readText := rfl

@[simp] theorem currentDirectory_withVariables :
    (w.withVariables v).currentDirectory = w.currentDirectory := rfl

@[simp] theorem currentDirectory_withProcess (env : String → Option String) :
    (w.withProcess env).currentDirectory = w.currentDirectory := rfl

/-! ### Searching by patterns -/

@[simp] theorem reach_withVariables : (w.withVariables v).reach = w.reach := rfl

@[simp] theorem listing_withVariables : (w.withVariables v).listing = w.listing := rfl

@[simp] theorem below_withVariables (depth : Nat) :
    (w.withVariables v).below depth = w.below depth := by
  induction depth with
  | zero => rfl
  | succ depth ih =>
      funext r
      simp only [below, listing_withVariables, ih]

@[simp] theorem expand_withVariables (directoriesOnly : Bool) :
    ∀ segments, (w.withVariables v).expand directoriesOnly segments =
      w.expand directoriesOnly segments
  | [] => rfl
  | .literal name :: rest => by
      funext r
      simp only [expand, isPresent_withVariables, reach_withVariables,
        expand_withVariables directoriesOnly rest]
  | .wild tokens :: rest => by
      funext r
      simp only [expand, listing_withVariables, reach_withVariables,
        expand_withVariables directoriesOnly rest]
  | [.everywhere] => by
      funext r
      simp only [expand, below_withVariables]
  | .everywhere :: segment :: rest => by
      funext r
      simp only [expand, below_withVariables, expand_withVariables directoriesOnly rest]

@[simp] theorem glob_withVariables : (w.withVariables v).glob = w.glob := by
  funext pattern
  simp only [glob, expand_withVariables, reach_withVariables]

/-! ### Searching libraries, packages and programs -/

@[simp] theorem findLibrary_withVariables :
    (w.withVariables v).findLibrary = w.findLibrary := by
  have hin : (w.withVariables v).findLibraryIn = w.findLibraryIn := by
    funext name directory
    simp only [findLibraryIn, findVersioned, isFile_withVariables, glob_withVariables]
  funext name directories
  simp only [findLibrary, hin]

/-- An empty variable names no home directory. -/
theorem findProgram_withVariables {w : World} {v : Variables}
    (h : v.home.filter (· ≠ "") = w.home.filter (· ≠ "")) :
    (w.withVariables v).findProgram = w.findProgram := by
  have hhome : (w.withVariables v).homeDirectory = w.homeDirectory := by
    simp only [homeDirectory, withVariables, h]
  have hexpand : (w.withVariables v).expandHome = w.expandHome := by
    funext directory
    simp only [expandHome, hhome]
  have hexecutable : (w.withVariables v).isExecutable = w.isExecutable := rfl
  have hpath : (w.withVariables v).searchPath = w.searchPath := rfl
  funext name
  simp only [findProgram, hexpand, hexecutable, hpath]

theorem executeFirst_withVariables (expression : String) (soFar : SystemError)
    (programs : List Path) :
    (w.withVariables v).executeFirst expression soFar programs =
      w.executeFirst expression soFar programs := by
  have hat : (w.withVariables v).executeAt = w.executeAt := rfl
  induction programs generalizing soFar with
  | nil => rfl
  | cons program rest ih => simp only [executeFirst, hat, ih]

@[simp] theorem execute_withVariables : (w.withVariables v).execute = w.execute := by
  have hat : (w.withVariables v).executeAt = w.executeAt := rfl
  have hpath : (w.withVariables v).searchPath = w.searchPath := rfl
  funext program expression
  simp only [execute, executeFirst_withVariables, hat, hpath]

end World

/-! ### Stages of a plan -/

variable (w : World) (v : Variables)

@[simp] theorem PackageSpec.find_withVariables (spec : PackageSpec) (hints : SearchHints) :
    spec.find hints (w.withVariables v) = spec.find hints w := by
  simp only [find, findPackageFile, findInstallDir, existing, readFlags,
    World.isFile_withVariables, World.isDirectory_withVariables, World.findLibrary_withVariables,
    World.readText_withVariables]

namespace Configuration

variable (c : Configuration)

@[simp] theorem sourceDirectory_withVariables :
    c.sourceDirectory (w.withVariables v) = c.sourceDirectory w := rfl

@[simp] theorem bindingsDirectory_withVariables :
    c.bindingsDirectory (w.withVariables v) = c.bindingsDirectory w := rfl

end Configuration

@[simp] theorem SourceSet.discover_withVariables (c : Configuration) :
    discover c (w.withVariables v) = discover c w := by
  simp only [discover, findIn, Configuration.sourceDirectory_withVariables,
    Configuration.bindingsDirectory_withVariables, World.isDirectory_withVariables,
    World.isFile_withVariables, World.glob_withVariables]

@[simp] theorem Artifact.assemble_withVariables (c : Configuration) (t : Toolchain)
    (s : SourceSet) : assemble c t s (w.withVariables v) = assemble c t s w := rfl

@[simp] theorem KernelArchive.ofConfiguration_withVariables (c : Configuration) :
    ofConfiguration c (w.withVariables v) = ofConfiguration c w := rfl

@[simp] theorem KernelArchive.isMissing_withVariables (archive : KernelArchive) :
    archive.isMissing (w.withVariables v) = archive.isMissing w := by
  simp only [isMissing, World.findLibrary_withVariables]

end ExtensionPlan
