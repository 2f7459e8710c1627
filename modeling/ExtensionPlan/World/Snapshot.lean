import ExtensionPlan.Manifest
import ExtensionPlan.World

/-!
# Snapshots

A snapshot writes surroundings down as a JSON object, so that a plan can be made for a machine
that is described instead of visited. All its paths are seen from the root, and every field may be
left out:

* `here` — the working directory;
* `environment` — an object, the variables of the process;
* `directories` — a list of paths;
* `files`, `links` — objects that map a path to the text of the file or the target of the link;
* `programs` — an object that maps a path to an object, in which an expression that contains the
  name of a field is answered by the text of that field.

`Snapshot.read` reads one; `Snapshot.world` is what it describes.
-/

namespace ExtensionPlan

/-- Why a text is not a snapshot. -/
inductive SnapshotError where
  | notObject
  | badField (name : String)
  deriving DecidableEq, Repr

/-- The wording of a fault in a snapshot. -/
def SnapshotError.message : SnapshotError → String
  | .notObject => "error: the snapshot is not a JSON object"
  | .badField name => "error: the snapshot has no usable field " ++ Text.quoted name

/-- Surroundings that are written down. -/
structure Snapshot where
  here : Path
  environment : Manifest
  directories : List Path
  files : List (Path × String)
  links : List (Path × Path)
  programs : List (Path × List Rule)

namespace Snapshot

/-! ## Reading -/

/-- The text that a document is. -/
def text? : Json → Option String
  | .text value => some value
  | _ => none

/-- The list that a document is, each item being of the given form. -/
def list? {α : Type} (form : Json → Option α) : Json → Option (List α)
  | .list items => items.mapM form
  | _ => none

/-- The fields of the object that a document is, each value being of the given form. -/
def fields? {α : Type} (form : Json → Option α) : Json → Option (List (String × α))
  | .object fields => fields.mapM fun (name, value) => (form value).map (name, ·)
  | _ => none

/-- The rules by which a program answers: each is a text to look for and what is written then. -/
def rules? (document : Json) : Option (List Rule) :=
  (fields? text? document).map fun fields =>
    fields.map fun (needle, reply) => ⟨needle, ⟨some 0, reply.toUTF8.toList, []⟩⟩

/-- The value of a field in the given form, or `missing` where there is no such field. -/
def field {α : Type} (fields : List (String × Json)) (name : String) (form : Json → Option α)
    (missing : α) : Except SnapshotError α :=
  match fields.reverse.lookup name with
  | none => .ok missing
  | some value =>
    match form value with
    | some a => .ok a
    | none => .error (.badField name)

/-- The fields with their names taken for paths. -/
def byPath {α : Type} (fields : List (String × α)) : List (Path × α) :=
  fields.map fun (name, value) => (.ofString name, value)

/-- The snapshot that a text is. -/
def read (text : String) : Except SnapshotError Snapshot :=
  match Json.read text.toList with
  | some (.object fields) => do
    return {
      here := .ofString (← field fields "here" text? "/")
      environment := ⟨← field fields "environment" (fields? text?) []⟩
      directories := (← field fields "directories" (list? text?) []).map .ofString
      files := byPath (← field fields "files" (fields? text?) [])
      links := byPath (← field fields "links" (fields? fun j => (text? j).map .ofString) [])
      programs := byPath (← field fields "programs" (fields? rules?) []) }
  | _ => .error .notObject

/-! ## What is described -/

/-- The files, programs and links, with their paths. -/
def entries (s : Snapshot) : List (Path × Entry) :=
  s.files.map (fun (path, text) => (path, .file ⟨text.toUTF8.toList, false, none⟩)) ++
    s.programs.map (fun (path, rules) => (path, .file ⟨[], true, some (.ofRules rules)⟩)) ++
    s.links.map fun (path, target) => (path, .link target)

/-- The surroundings that the snapshot describes. The working directory is always there. -/
def world (s : Snapshot) : World :=
  let directories (tree : Tree) (path : Path) : Tree :=
    (tree.makeDirectories [] (Tree.piecesOf path)).1
  let tree := s.directories.foldl directories .empty
  let tree := s.entries.foldl (fun tree (path, entry) => Tree.place tree [] path entry) tree
  let (tree, here) := tree.makeDirectories [] (Tree.piecesOf s.here)
  { World.ofTree tree here with
    process := s.environment.get?
    searchPath := s.environment.get? "PATH"
    home := s.environment.get? "HOME" }

end Snapshot

end ExtensionPlan
