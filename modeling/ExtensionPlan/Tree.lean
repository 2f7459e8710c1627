import ExtensionPlan.Path.Basic
import ExtensionPlan.Program
import ExtensionPlan.SystemError

/-!
# File trees

A tree is a directory and all that is below it. What is below a directory are nodes with names: a
file, a symbolic link or a directory again. In no directory of a tree have two nodes one name, and
every change keeps it so.

Locations are what is really there, one name after the other from the root; a path only leads to
one. What is at a location is given by `Tree.get?`, and around it there are directories up to the
root (`Tree.get?_around`).

* `Tree.get?` — what is at a location;
* `Tree.walk` — where the pieces of a path lead from a directory, links followed;
* `Tree.place`, `Tree.erase` — changes to a tree.
-/

namespace ExtensionPlan

/-! ## Names and locations -/

/-- Can the text be the name of an entry? -/
def isPlainName (chars : List Char) : Bool :=
  chars != [] && chars != ['.'] && chars != ['.', '.'] &&
    chars.all fun c => c != '/' && c != '\x00'

/-- The name of an entry in a directory. -/
structure FileName where
  chars : List Char
  plain : isPlainName chars = true
  deriving DecidableEq, Repr

namespace FileName

/-- The name that is spelled by the text, if the text can be one. -/
def ofChars? (chars : List Char) : Option FileName :=
  if h : isPlainName chars = true then some ⟨chars, h⟩ else none

/-- The name as a path. -/
def path (name : FileName) : Path := ⟨name.chars⟩

end FileName

/-- A place in the tree: the names on the way from the root, the innermost first. The root is the
empty list, and the directory around a place is the tail. -/
abbrev Location := List FileName

/-- The path of a location. -/
def Location.path (location : Location) : Path :=
  ⟨'/' :: ['/'].intercalate (location.reverse.map (·.chars))⟩

/-! ## Entries -/

/-- A regular file. It may be executable without being a program that can run. -/
structure File where
  content : List UInt8
  executable : Bool
  program : Option Program

/-- What is at a location. -/
inductive Entry where
  | directory
  | link (target : Path)
  | file (file : File)

/-- What is at a location, with all that is below it. -/
inductive Node where
  | link (target : Path)
  | file (file : File)
  | directory (children : List (FileName × Node))

namespace Node

/-- What is there, whatever is below it. -/
def entry : Node → Entry
  | .link target => .link target
  | .file content => .file content
  | .directory _ => .directory

/-- The node with nothing below it. -/
def ofEntry : Entry → Node
  | .link target => .link target
  | .file content => .file content
  | .directory => .directory []

/-- What has a name in a directory. There is nothing in a file or a link. -/
def child? (node : Node) (name : FileName) : Option Node :=
  match node with
  | .directory children => children.lookup name
  | .link _ | .file _ => none

/-- What is below a node at the end of the names, the outermost first. -/
def at? : Node → List FileName → Option Node
  | node, [] => some node
  | node, name :: names => (node.child? name).bind (at? · names)

theorem at?_append (node : Node) (outer inner : List FileName) :
    node.at? (outer ++ inner) = (node.at? outer).bind (·.at? inner) := by
  induction outer generalizing node with
  | nil => rfl
  | cons name outer ih =>
    rw [List.cons_append, at?, at?, Option.bind_assoc]
    exact congrArg _ (funext ih)

mutual
/-- Has each node of a directory a name of its own, here and below? -/
def isProper : Node → Bool
  | .link _ | .file _ => true
  | .directory children => decide (children.map (·.1)).Nodup && allProper children
/-- Are the nodes proper that the list holds? -/
def allProper : List (FileName × Node) → Bool
  | [] => true
  | (_, node) :: rest => node.isProper && allProper rest
end

theorem allProper_iff {children : List (FileName × Node)} :
    allProper children = true ↔ ∀ child ∈ children, child.2.isProper = true := by
  induction children with
  | nil => simp [allProper]
  | cons child children ih =>
    obtain ⟨name, node⟩ := child
    simp [allProper, ih]

theorem isProper_directory_iff {children : List (FileName × Node)} :
    (Node.directory children).isProper = true ↔
      (children.map (·.1)).Nodup ∧ ∀ child ∈ children, child.2.isProper = true := by
  rw [isProper, Bool.and_eq_true, decide_eq_true_eq, allProper_iff]

theorem isProper_ofEntry (entry : Entry) : (ofEntry entry).isProper = true := by
  cases entry with
  | directory => decide
  | link target => rw [ofEntry, isProper]
  | file content => rw [ofEntry, isProper]

/-- What is below a proper node is proper. -/
theorem isProper_of_at? {names : List FileName} {node below : Node}
    (proper : node.isProper = true) (h : node.at? names = some below) :
    below.isProper = true := by
  induction names generalizing node with
  | nil => exact Option.some.inj h ▸ proper
  | cons name names ih =>
    obtain ⟨child, hchild, hbelow⟩ := Option.bind_eq_some_iff.1 h
    refine ih ?_ hbelow
    cases node with
    | link target => exact absurd hchild (by simp [child?])
    | file file => exact absurd hchild (by simp [child?])
    | directory children =>
      obtain ⟨before, after, rfl, -⟩ := List.lookup_eq_some_iff.1 hchild
      exact (isProper_directory_iff.1 proper).2 (name, child) (by simp)

/-- The children with `change` made to those of the directory at the end of the names. Where there
is no directory nothing changes. -/
def edit (change : List (FileName × Node) → List (FileName × Node)) :
    List FileName → List (FileName × Node) → List (FileName × Node)
  | [], children => change children
  | name :: names, children =>
    children.map fun child =>
      match child.2 with
      | .directory below =>
        (child.1, .directory (if child.1 = name then edit change names below else below))
      | .link _ | .file _ => child

theorem isProper_edit {change : List (FileName × Node) → List (FileName × Node)}
    (keeps : ∀ children, (Node.directory children).isProper = true →
      (Node.directory (change children)).isProper = true)
    (names : List FileName) {children : List (FileName × Node)}
    (proper : (Node.directory children).isProper = true) :
    (Node.directory (edit change names children)).isProper = true := by
  induction names generalizing children with
  | nil => exact keeps children proper
  | cons name names ih =>
    rw [isProper_directory_iff] at proper
    have sameNames : (edit change (name :: names) children).map (·.1) = children.map (·.1) := by
      rw [edit, List.map_map]
      refine List.map_congr_left fun child _ => ?_
      dsimp only [Function.comp_apply]
      split <;> rfl
    rw [isProper_directory_iff, sameNames]
    refine ⟨proper.1, fun child hchild => ?_⟩
    obtain ⟨old, hold, rfl⟩ := List.mem_map.1 hchild
    have hproper := proper.2 old hold
    split
    · next below h =>
      rw [h] at hproper
      split
      · exact ih hproper
      · exact hproper
    · exact hproper
    · exact hproper

/-- The children without the one of this name. -/
def without (name : FileName) (children : List (FileName × Node)) : List (FileName × Node) :=
  children.filter fun child => decide (child.1 ≠ name)

theorem isProper_without (name : FileName) {children : List (FileName × Node)}
    (proper : (Node.directory children).isProper = true) :
    (Node.directory (without name children)).isProper = true := by
  rw [isProper_directory_iff] at proper ⊢
  exact ⟨proper.1.sublist (List.filter_sublist.map _),
    fun child hchild => proper.2 child (List.mem_filter.1 hchild).1⟩

/-- The children with a node of this name, in place of one that had it. -/
def withChild (name : FileName) (node : Node) (children : List (FileName × Node)) :
    List (FileName × Node) :=
  (name, node) :: without name children

theorem isProper_withChild {name : FileName} {node : Node} {children : List (FileName × Node)}
    (hnode : node.isProper = true) (proper : (Node.directory children).isProper = true) :
    (Node.directory (withChild name node children)).isProper = true := by
  have rest := isProper_directory_iff.1 (isProper_without name proper)
  rw [withChild, isProper_directory_iff, List.map_cons, List.nodup_cons]
  refine ⟨⟨fun hmem => ?_, rest.1⟩, fun child hchild => ?_⟩
  · obtain ⟨child, hchild, rfl⟩ := List.mem_map.1 hmem
    simpa using (List.mem_filter.1 hchild).2
  · rcases List.mem_cons.1 hchild with rfl | hchild
    · exact hnode
    · exact rest.2 child hchild

end Node

/-! ## Trees -/

/-- A file tree. -/
structure Tree where
  /-- What is in the root. -/
  children : List (FileName × Node)
  /-- In no directory have two nodes one name. -/
  proper : (Node.directory children).isProper = true

namespace Tree

/-- The tree with nothing but a root. -/
def empty : Tree := ⟨[], rfl⟩

/-- What is at a location, with all below it. -/
def node? (tree : Tree) (location : Location) : Option Node :=
  (Node.directory tree.children).at? location.reverse

/-- What is at a location. The root is a directory in every tree. -/
def get? (tree : Tree) (location : Location) : Option Entry :=
  (tree.node? location).map Node.entry

theorem node?_cons (tree : Tree) (name : FileName) (around : Location) :
    tree.node? (name :: around) = (tree.node? around).bind (·.child? name) := by
  rw [node?, node?, List.reverse_cons, Node.at?_append]
  exact congrArg _ (funext fun node => Option.bind_fun_some _)

/-- What is in a tree is in a directory. -/
theorem get?_around {tree : Tree} {name : FileName} {around : Location} {entry : Entry}
    (h : tree.get? (name :: around) = some entry) :
    tree.get? around = some .directory := by
  obtain ⟨node, hnode, -⟩ := Option.map_eq_some_iff.1 h
  rw [node?_cons] at hnode
  obtain ⟨parent, hparent, hchild⟩ := Option.bind_eq_some_iff.1 hnode
  rw [get?, hparent]
  cases parent with
  | directory children => rfl
  | link target => exact absurd hchild (by simp [Node.child?])
  | file content => exact absurd hchild (by simp [Node.child?])

/-- The names in a directory differ. -/
theorem nodup_of_node? {tree : Tree} {location : Location} {children : List (FileName × Node)}
    (h : tree.node? location = some (.directory children)) : (children.map (·.1)).Nodup :=
  (Node.isProper_directory_iff.1 (Node.isProper_of_at? tree.proper h)).1

/-! ## Following a path -/

/-- The longest name that a directory can hold, in bytes. -/
def nameLimit : Nat := 255

/-- The number of symbolic links that one path may go through. -/
def linkLimit : Nat := 40

/-- What a piece of a path asks for. -/
inductive Move where
  | stay
  | up
  | enter (name : FileName)
  /-- The piece cannot be a name. -/
  | refused
  deriving DecidableEq, Repr

/-- What the piece between two separators asks for. -/
def Move.ofPiece (piece : List Char) : Move :=
  if piece = [] ∨ piece = ['.'] then .stay
  else if piece = ['.', '.'] then .up
  else match FileName.ofChars? piece with
    | some name => .enter name
    | none => .refused

/-- The pieces between the separators of a path. -/
def piecesOf (p : Path) : List (List Char) := Text.pieces (· == '/') p.chars

/-- The location at which a path starts, seen from `here`. -/
def startOf (here : Location) (p : Path) : Location := if p.isAbsolute then [] else here

/-- Follow the pieces from `node`, which is at `here`; at a symbolic link the rest of the way is
left to `throughLink`. Only from a directory is there a way on, and be it by an empty piece. -/
def walkWith (tree : Tree)
    (throughLink : Location → List (List Char) → Except SystemError (Location × Node)) :
    Location → Node → List (List Char) → Except SystemError (Location × Node)
  | here, node, [] => .ok (here, node)
  | _, .link _, _ :: _ | _, .file _, _ :: _ => .error .notDirectory
  | here, .directory children, piece :: rest =>
    match Move.ofPiece piece with
    | .stay => walkWith tree throughLink here (.directory children) rest
    | .up =>
      match tree.node? here.tail with
      | some around => walkWith tree throughLink here.tail around rest
      | none => .error .notFound
    | .refused => .error .nulInPath
    | .enter name =>
      if nameLimit < Text.byteCount name.chars then .error .nameTooLong
      else match children.lookup name with
        | none => .error .notFound
        | some (.link target) =>
          if target.isEmpty then .error .notFound
          else throughLink (startOf here target) (piecesOf target ++ rest)
        | some child => walkWith tree throughLink (name :: here) child rest

/-- Where the pieces lead from a location if at most `links` symbolic links are on the way, and
what is there. -/
def walk (tree : Tree) (links : Nat) (here : Location) (pieces : List (List Char)) :
    Except SystemError (Location × Node) :=
  match tree.node? here with
  | none => .error .notFound
  | some node =>
    match links with
    | 0 => tree.walkWith (fun _ _ => .error .tooManyLinks) here node pieces
    | links + 1 => tree.walkWith (walk tree links) here node pieces

/-! ## Changes -/

/-- The tree without the location and all below it. The root stays. -/
def erase (tree : Tree) (location : Location) : Tree :=
  match location with
  | [] => tree
  | name :: around =>
    { children := Node.edit (Node.without name) around.reverse tree.children
      proper := Node.isProper_edit (fun _ => Node.isProper_without name) _ tree.proper }

/-- The tree with `entry` under a name in a directory, in place of what was there. Where there is
no directory nothing changes. -/
def set (tree : Tree) (around : Location) (name : FileName) (entry : Entry) : Tree where
  children := Node.edit (Node.withChild name (.ofEntry entry)) around.reverse tree.children
  proper := Node.isProper_edit (fun _ => Node.isProper_withChild (Node.isProper_ofEntry entry)) _
    tree.proper

/-- Go one piece on from `here`, making a directory if there is nothing. -/
def enterMaking (tree : Tree) (here : Location) (piece : List Char) : Tree × Location :=
  match tree.walk linkLimit here [piece], Move.ofPiece piece with
  | .ok (there, _), _ => (tree, there)
  | .error _, .enter name => (tree.set here name .directory, name :: here)
  | .error _, _ => (tree, here)

/-- The tree with the directories that the pieces lead through, and where they lead. -/
def makeDirectories (tree : Tree) (here : Location) (pieces : List (List Char)) :
    Tree × Location :=
  pieces.foldl (fun (tree, here) piece => tree.enterMaking here piece) (tree, here)

/-- The tree with `entry` at the path, seen from `here`, and the directories above it. -/
def place (tree : Tree) (here : Location) (path : Path) (entry : Entry) : Tree :=
  let pieces := piecesOf path
  let (tree, around) := tree.makeDirectories here pieces.dropLast
  match pieces.getLast?.map Move.ofPiece with
  | some (.enter name) => tree.set around name entry
  | _ => tree

/-- The location of the entry that the path names, seen from `here`. If that is a link, it is the
link itself and not where it leads. -/
def entryLocation? (tree : Tree) (here : Location) (path : Path) : Option Location :=
  match (piecesOf path).reverse.dropWhile Path.isIdle with
  | [] => none
  | last :: above =>
    match tree.walk linkLimit here above.reverse, Move.ofPiece last with
    | .ok (around, _), .enter name => some (name :: around)
    | _, _ => none

end Tree

end ExtensionPlan
