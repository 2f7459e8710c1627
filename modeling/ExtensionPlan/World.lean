import ExtensionPlan.Tree

/-!
# Surroundings

Everything outside the planner that its answers depend on: the file tree, the working directory,
two collections of environment variables, the search path for programs and the home directory.
Planning changes none of it, so a `World` is a plain value and looking something up in it is a
function.

The working directory may be removed from the tree while it is in use. It remains a directory then,
with nothing in it and without a path, until the process moves elsewhere.

* `World.find` — what a path leads to;
* `World.isFile`, `World.isDirectory`, `World.isPresent` — of which kind that is;
* `World.entriesIn`, `World.readText` — what a directory or a file holds;
* `World.currentDirectory` — the path of the working directory;
* `World.remove` — the surroundings after a removal.
-/

namespace ExtensionPlan

/-- Where the value of a variable comes from. -/
inductive Reader where
  /-- A table handed in by the caller. -/
  | table
  /-- The environment of the process. -/
  | process
  /-- The environment of the process, each look-up being announced to the build tool. -/
  | announcing
  deriving DecidableEq, Repr, Inhabited

/-- The directory from which relative paths are seen. -/
structure WorkingDirectory where
  /-- The innermost directory on the way to it that is in the tree. -/
  location : Location
  /-- How many directories further in it was. They are removed, and it is one of them. -/
  removed : Nat
  deriving DecidableEq, Repr

namespace WorkingDirectory

/-- The directory at a location of the tree. -/
def ofLocation (location : Location) : WorkingDirectory := ⟨location, 0⟩

/-- The working directory after the removal of a location. -/
def without (here : WorkingDirectory) (location : Location) : WorkingDirectory :=
  if location.isSuffixOf here.location then
    ⟨location.tail, here.removed + (here.location.length - location.tail.length)⟩
  else here

end WorkingDirectory

/-- The surroundings of a run. -/
structure World where
  tree : Tree
  here : WorkingDirectory
  /-- The variables of the table. -/
  table : String → Option String
  /-- The variables of the process. -/
  process : String → Option String
  /-- The directories in which programs are searched, as one text. -/
  searchPath : Option String
  /-- The home directory that a variable names. -/
  home : Option String
  /-- The home directory of the user's account, for where no variable names one. -/
  accountHome : Option Path := some "/root"

namespace World

/-- The surroundings with a file tree, seen from a directory of it, and with nothing set. -/
def ofTree (tree : Tree) (here : Location) : World where
  tree := tree
  here := .ofLocation here
  table := fun _ => none
  process := fun _ => none
  searchPath := none
  home := none

/-- The value of a variable. -/
def value? (w : World) : Reader → String → Option String
  | .table => w.table
  | .process => w.process
  | .announcing => w.process

/-! ## Looking at files -/

/-- The longest path that can be looked up, in bytes. -/
def pathLimit : Nat := 4095

/-- What the pieces lead to from a directory that is `removed` removed directories further in than
`around`. There is nothing in a removed directory, but out of it the way is as it was. -/
def walkFrom (tree : Tree) (around : Location) :
    Nat → List (List Char) → Except SystemError Node
  | 0, pieces => (tree.walk Tree.linkLimit around pieces).map (·.2)
  | _ + 1, [] => .ok (.directory [])
  | removed + 1, piece :: rest =>
    match Tree.Move.ofPiece piece with
    | .stay => walkFrom tree around (removed + 1) rest
    | .up => walkFrom tree around removed rest
    | .enter _ | .refused => .error .notFound

/-- What the pieces of a path lead to; the path tells whether they start at the root. -/
def walk (w : World) (p : Path) (pieces : List (List Char)) : Except SystemError Node :=
  if p.isAbsolute then walkFrom w.tree [] 0 pieces
  else walkFrom w.tree w.here.location w.here.removed pieces

/-- What the path leads to, with all below it, links followed. -/
def find (w : World) (p : Path) : Except SystemError Node :=
  if p.chars.contains '\x00' then .error .nulInPath
  else if p.isEmpty then .error .notFound
  else if pathLimit < Text.byteCount p.chars then .error .nameTooLong
  else w.walk p (Tree.piecesOf p)

/-- Does the path lead to a regular file? -/
def isFile (w : World) (p : Path) : Bool :=
  match w.find p with
  | .ok (.file _) => true
  | _ => false

/-- Does the path lead to a directory? -/
def isDirectory (w : World) (p : Path) : Bool :=
  match w.find p with
  | .ok (.directory _) => true
  | _ => false

/-- Does the path lead to anything? -/
def isFound (w : World) (p : Path) : Bool :=
  match w.find p with
  | .ok _ => true
  | .error _ => false

/-- Does the path end at a symbolic link, wherever that leads? -/
def isLink (w : World) (p : Path) : Bool :=
  if p.chars.contains '\x00' || decide (pathLimit < Text.byteCount p.chars) then false
  else
    let pieces := Tree.piecesOf p
    match w.walk p pieces.dropLast, pieces.getLast?.map Tree.Move.ofPiece with
    | .ok around, some (.enter name) =>
      match around.child? name with
      | some (.link _) => true
      | _ => false
    | _, _ => false

/-- Does the path lead to anything, or end at a link that leads nowhere? -/
def isPresent (w : World) (p : Path) : Bool := w.isFound p || w.isLink p

/-- The entries in the directory that the path leads to, with their names. -/
def entriesIn (w : World) (p : Path) : Except SystemError (List (FileName × Entry)) := do
  match ← w.find p with
  | .directory children => .ok (children.map fun (name, node) => (name, node.entry))
  | .file _ | .link _ => .error .notDirectory

/-- The text of the file that the path leads to. -/
def readText (w : World) (p : Path) : Except SystemError String := do
  match ← w.find p with
  | .file file =>
    match Text.Utf8.text? file.content with
    | some text => .ok text
    | none => .error .notText
  | .directory _ => .error .isDirectory
  | .link _ => .error .notFound

/-! ## The working directory -/

/-- The path of the working directory, if it is still in the tree. -/
def currentDirectory (w : World) : Except SystemError Path :=
  match w.here.removed, w.tree.get? w.here.location with
  | 0, some .directory => .ok w.here.location.path
  | _, _ => .error .notFound

/-- The path as seen from the root. The empty path has no such form. -/
def absolute (w : World) (p : Path) : Except SystemError Path :=
  if p.isEmpty then .error .emptyPath
  else if p.isAbsolute then .ok (p.absoluteFrom ⟨['/']⟩)
  else w.currentDirectory.map p.absoluteFrom

/-! ## Changes -/

/-- The surroundings without what is at the path, seen from `base`, and all below it. -/
def remove (w : World) (base : Location) (path : Path) : World :=
  match w.tree.entryLocation? base path with
  | none => w
  | some location =>
    { w with tree := w.tree.erase location, here := w.here.without location }

end World

end ExtensionPlan
