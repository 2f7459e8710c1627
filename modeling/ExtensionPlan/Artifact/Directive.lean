import ExtensionPlan.Artifact.Basic

/-!
# Directives for a build tool

An artifact as the lines by which a build script tells its build tool what to watch and what to
link. A directory is searched from before the first library that lies in it, and is named once.
-/

namespace ExtensionPlan

/-- Something that a build script tells its build tool. -/
inductive Directive where
  /-- The plan has to be made again if the file changes. -/
  | watch (file : Path)
  /-- Libraries are searched in the directory. -/
  | search (dir : Path)
  /-- A library is linked as the build tool sees fit. -/
  | linkNamed (name : String)
  | linkStatic (name : String)
  | linkShared (name : String)
  | linkerArg (arg : String)
  | warning (text : String)
  deriving DecidableEq, Repr

namespace Directive

/-- The line of a directive. -/
def line : Directive → String
  | .watch file => "cargo:rerun-if-changed=" ++ file.text
  | .search dir => "cargo:rustc-link-search=native=" ++ dir.text
  | .linkNamed name => "cargo:rustc-link-lib=" ++ name
  | .linkStatic name => "cargo:rustc-link-lib=static=" ++ name
  | .linkShared name => "cargo:rustc-link-lib=dylib=" ++ name
  | .linkerArg arg => "cargo:rustc-link-arg=" ++ arg
  | .warning text => "cargo:warning=" ++ text

/-- The directives with one more, unless it is there already. -/
def addOnce (directives : List Directive) (d : Directive) : List Directive :=
  if d ∈ directives then directives else directives ++ [d]

/-- The directive that links a library file. -/
def linkFile? (kind : LinkKind) (file : Path) : Option Directive :=
  (linkName? file).map (if kind = .static then .linkStatic else .linkShared)

/-- The directives with those that link a library file. -/
def addFile (kind : LinkKind) (directives : List Directive) (file : Path) : List Directive :=
  (file.parent?.elim directives fun dir => addOnce directives (.search dir)) ++
    (linkFile? kind file).toList

/-- The directives with those that link a library. -/
def addLibrary (directives : List Directive) (library : LibraryHandle) : List Directive :=
  match library.kind with
  | .named => directives ++ [.linkNamed library.name]
  | kind => library.files.foldl (addFile kind) directives

end Directive

namespace Artifact

/-- What a build script tells its build tool about the artifact. -/
def directives (a : Artifact) : List Directive :=
  let watched := a.units.map fun u => Directive.watch u.path
  let searched := a.linkDirs.map Directive.search
  a.libraries.foldl Directive.addLibrary (watched ++ searched) ++
    (a.runtimePath.elim [] fun r => r.linkerArgs.map Directive.linkerArg)

/-- The lines of the directives. -/
def directiveLines (a : Artifact) : List String := a.directives.map Directive.line

/-- A warning that sums the artifact up. -/
def summary (a : Artifact) : Directive :=
  .warning ("ext_assembly: " ++ a.filename ++ " with " ++ toString a.units.length ++
    " compilation units")

/-- What a build script prints about the artifact: a summary, then the directives. -/
def announcement (a : Artifact) : List String := a.summary.line :: a.directiveLines

end Artifact

end ExtensionPlan
