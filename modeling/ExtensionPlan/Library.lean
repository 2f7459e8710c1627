import ExtensionPlan.Glob.Search
import ExtensionPlan.PlanError

/-!
# Libraries

A library is searched by its link name in a list of directories (`World.findLibrary`); the other
way round, a library file has a link name (`linkName?`). What is linked is a `LibraryHandle`, which
may stand for several files.
-/

namespace ExtensionPlan

/-! ## From a name to a file -/

/-- The file names of a library without a version, the preferred first. -/
def libraryFileNames (name : List Char) : List (List Char) :=
  let shared := "lib".toList ++ name
  [shared ++ ".so".toList, shared ++ ".dylib".toList, name ++ ".lib".toList,
    shared ++ ".a".toList, shared ++ "_static.a".toList]

/-- The pattern of the versioned shared objects of a library in a directory. -/
def versionedPattern (name : List Char) (directory : Path) : List Char :=
  Glob.escape directory.chars ++ "/lib".toList ++ name ++ ".so.*".toList

namespace World

/-- The first versioned shared object of a library in a directory, in the order of paths. What
cannot be listed is passed over. -/
def findVersioned (w : World) (name : List Char) (directory : Path) : Option Path :=
  match w.glob (versionedPattern name directory) with
  | .ok found => (Sorted.ofList Path.le (found.filterMap (·.toOption))).head?
  | .error _ => none

/-- The file of a library in a directory. -/
def findLibraryIn (w : World) (name : List Char) (directory : Path) : Option Path :=
  ((libraryFileNames name).map fun file => directory.join ⟨file⟩).find? w.isFile
    <|> w.findVersioned name directory

/-- The file of a library in the first of the directories that has one. -/
def findLibrary (w : World) (name : String) (directories : List Path) :
    Except ProbeError Path :=
  match directories.findSome? (w.findLibraryIn name.toList) with
  | some path => .ok path
  | none => .error (.libraryNotFound name directories)

end World

/-! ## From a file to a name -/

/-- What stands before the first occurrence of `mark`, if there is one. -/
def Text.before? (mark : List Char) : List Char → Option (List Char)
  | [] => if mark.isEmpty then some [] else none
  | c :: rest =>
    if mark.isPrefixOf (c :: rest) then some []
    else (before? mark rest).map (c :: ·)

/-- The text without `ending`, if it ends so. -/
def Text.dropEnding? (ending text : List Char) : Option (List Char) :=
  if ending.isSuffixOf text then some (text.take (text.length - ending.length)) else none

/-- The name of a library file without the ending that makes it one. -/
def libraryStem? (fileName : List Char) : Option (List Char) :=
  Text.before? ".so".toList fileName
    <|> Text.dropEnding? ".a".toList fileName
    <|> Text.dropEnding? ".dylib".toList fileName
    <|> Text.dropEnding? ".lib".toList fileName

/-- The name by which a library file is linked: `libtorch.so.2` is `torch`. -/
def linkName? (file : Path) : Option String := do
  let stem ← libraryStem? (← file.fileName?)
  let name := if "lib".toList.isPrefixOf stem then stem.drop 3 else stem
  if name.isEmpty then none else some (.ofList name)

/-! ## Handles -/

/-- How a library is passed to the linker. -/
inductive LinkKind where
  /-- Shared objects given by path. -/
  | shared
  /-- Static archives given by path. -/
  | static
  /-- By name, to be found in the link directories. -/
  | named
  deriving DecidableEq, Repr, Inhabited

/-- The name of the kind. -/
def LinkKind.name : LinkKind → String
  | .shared => "shared"
  | .static => "static"
  | .named => "named"

/-- One linked dependency. -/
structure LibraryHandle (π : Type := Path) where
  name : String
  kind : LinkKind
  files : List π
  deriving DecidableEq, Repr, Inhabited

namespace LibraryHandle

/-- The handle of a library given by its files. The first file tells which kind they are. -/
def ofFiles (name : String) (files : List Path) : LibraryHandle where
  name := name
  kind :=
    match files.head?.bind Path.extension? with
    | some ['a'] | some ['l', 'i', 'b'] => .static
    | _ => .shared
  files := files

/-- The handle of a library given by its name only. -/
def ofName (name : String) : LibraryHandle := ⟨name, .named, []⟩

end LibraryHandle

end ExtensionPlan
