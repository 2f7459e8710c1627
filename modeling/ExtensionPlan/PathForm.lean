import ExtensionPlan.Path.Octets
import ExtensionPlan.Plan

/-!
# Forms of paths

What a caller hands over as a path need not be a text. Two of these paths are looked at as texts
later on: the directory of the GPU toolkit, where a pattern is made of it, and those of the kernel
archive, where a build tool is told of them. What becomes of the two is written here once for paths
of any form. A `PathForm` says how paths of a form are compared, joined, shown and looked up:

* `PathForm.text` — paths that are texts; what follows is then what the planner does;
* `PathForm.octets` — paths that may be any octets.

Only successes are told: `PathForm.toolkit?`, `PathForm.toolchain?`, `PathForm.link?` and
`PathForm.plan?` have no value where the planner fails.
-/

namespace ExtensionPlan

/-- How paths of a form are handled. -/
structure PathForm (π : Type) where
  /-- The path that a text spells. -/
  ofPath : Path → π
  /-- The text by which a path is shown. -/
  shown : π → Path
  isAbsolute : π → Bool
  /-- Has the path the extension of a static archive? -/
  hasArchiveExtension : π → Bool
  join : π → π → π
  register : List π → π → List π
  isFile : World → π → Bool
  isDirectory : World → π → Bool

/-- Has the path the extension of a static archive? -/
def Path.hasArchiveExtension (p : Path) : Bool :=
  p.extension? == some ['a'] || p.extension? == some ['l', 'i', 'b']

/-- What is reached by paths that are no texts, each by one of its spellings. -/
structure StrayPaths where
  files : List OctetPath
  directories : List OctetPath

namespace PathForm

/-- Paths as texts. -/
def text : PathForm Path where
  ofPath p := p
  shown p := p
  isAbsolute := Path.isAbsolute
  hasArchiveExtension := Path.hasArchiveExtension
  join := Path.join
  register := Path.register
  isFile := World.isFile
  isDirectory := World.isDirectory

/-- Paths as octets. Those that are texts lead where the texts do. -/
def octets (strays : StrayPaths) : PathForm OctetPath where
  ofPath := .ofPath
  shown := OctetPath.shown
  isAbsolute := OctetPath.isAbsolute
  hasArchiveExtension p := p.spelling.hasArchiveExtension
  join := OctetPath.join
  register := OctetPath.register
  isFile w p := p.path?.elim (strays.files.any (·.same p)) w.isFile
  isDirectory w p := p.path?.elim (strays.directories.any (·.same p)) w.isDirectory

variable {π : Type} (F : PathForm π)

/-! ## The toolkit -/

/-- Those of the places below a directory that are directories. -/
def placesIn (w : World) (home : π) (places : List Path) : List π :=
  (places.map fun place => F.join home (F.ofPath place)).filter (F.isDirectory w)

/-- The directories of the toolkit at `home`. -/
def layout? (home : π) (reader : Reader) (w : World) : Option (Cuda.Layout π) :=
  let includeDirs := F.placesIn w home Cuda.includePlaces
  if F.isDirectory w home && !includeDirs.isEmpty then
    let named := (w.value? reader "CUDA_LIB_DIR").toList.map fun dir => F.ofPath (.ofString dir)
    some ⟨home, includeDirs, (F.placesIn w home Cuda.libPlaces).foldl F.register
      (named.filter (F.isDirectory w))⟩
  else none

/-- The file of a library in a directory. Versioned files are searched in the directory as it is
shown. -/
def findLibraryIn (w : World) (name : List Char) (directory : π) : Option π :=
  ((libraryFileNames name).map fun file => F.join directory (F.ofPath ⟨file⟩)).find? (F.isFile w)
    <|> (w.findVersioned name (F.shown directory)).map F.ofPath

/-- The handle of a library given by its one file. -/
def handle (name : String) (file : π) : LibraryHandle π :=
  ⟨name, if F.hasArchiveExtension file then .static else .shared, [file]⟩

/-- The toolkit at `home`. -/
def toolkit? (home : π) (reader : Reader) (w : World) : Option (CudaToolkit π) := do
  let layout ← F.layout? home reader w
  let runtime ← layout.libDirs.findSome? (F.findLibraryIn w "cudart".toList)
  return ⟨layout.home, layout.includeDirs, layout.libDirs, F.handle "cudart" runtime⟩

/-- The toolchain that the locator leads to, with the toolkit at `home`. The packages are resolved
before it. -/
def toolchain? (locator : Locator) (home : π) (reader : Reader) (w : World) :
    Option (Toolchain (CudaToolkit π)) := do
  let packages ← (Toolchain.resolveWith locator (pure ()) w).result.toOption
  let cuda ← F.toolkit? home reader w
  return { packages with cuda := cuda }

/-! ## The archive -/

/-- The artifact, as it is shown, that links an archive in these directories and is loaded with a
search path from its absolute link directories. -/
def link? (a : Artifact) (archive : String) (dirs : List π) : Option Artifact :=
  let linkDirs := dirs.foldl F.register (a.linkDirs.map F.ofPath)
  let absolute := linkDirs.filter F.isAbsolute
  if absolute.isEmpty then none
  else some { a.link (.ofName archive) with
    linkDirs := linkDirs.map F.shown
    runtimePath := some ⟨[RuntimePath.originToken], absolute.map F.shown⟩ }

/-- The artifact of a configuration, as it is shown, with its archive in these directories. -/
def plan? (c : Configuration) (dirs : List π) (locator : Locator) (w : World) :
    Option Artifact := do
  let a ← ({ c with aot := .disabled }.planWith locator w).result.toOption
  F.link? a c.archive dirs

end PathForm

end ExtensionPlan
