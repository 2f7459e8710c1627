import ExtensionPlan.Sorted
import ExtensionPlan.Text.Blank

/-!
# File paths

A path is kept as it is spelled, since its spelling is what the build description shows. What it
means is given by its components, and two spellings of the same components are the *same* path
(`Path.same`): repeated separators, `.` inside and a separator at the end make no difference.
Nothing here consults a file tree; in particular `..` is a component like any other. The spelling
is a list of characters, on which everything here is a plain recursion; a `String` is taken for
the path that it spells. Paths that no text spells are not among these.

* `Path.components` — the meaning of a spelling;
* `Path.join`, `Path.parent?`, `Path.parents` — going down and up;
* `Path.fileName?`, `Path.extension?` — the last component and its ending;
* `Path.absoluteFrom` — the path seen from a working directory.
-/

namespace ExtensionPlan

/-- A file path as it is spelled. -/
structure Path where
  chars : List Char
  deriving DecidableEq, Repr, Inhabited

namespace Path

/-- The path that is spelled by a text. -/
def ofString (text : String) : Path := ⟨text.toList⟩

instance : Coe String Path := ⟨ofString⟩

/-- The text that spells a path. -/
def text (p : Path) : String := .ofList p.chars

@[simp] theorem text_ofString (text : String) : (ofString text).text = text := by
  simp [ofString, Path.text]

@[simp] theorem ofString_text (p : Path) : ofString p.text = p := by simp [ofString, text]

/-- Paths with one spelling are equal. -/
theorem text_injective {p q : Path} (h : p.text = q.text) : p = q := by
  rw [← ofString_text p, h, ofString_text]

/-- Is the spelling empty? -/
def isEmpty (p : Path) : Bool := p.chars.isEmpty

end Path

/-- One step of a path. -/
inductive Component where
  /-- The start of a path that begins at the root. -/
  | root
  /-- The `.` that begins a path. -/
  | current
  /-- The step `..`. -/
  | parent
  | name (chars : List Char)
  deriving DecidableEq, Repr

namespace Component

/-- The component as a path of its own. -/
def path : Component → Path
  | .root => ⟨['/']⟩
  | .current => ⟨['.']⟩
  | .parent => ⟨['.', '.']⟩
  | .name chars => ⟨chars⟩

/-- Components are ordered by kind, and names by their characters. -/
def key : Component → List Nat
  | .root => [0]
  | .current => [1]
  | .parent => [2]
  | .name chars => 3 :: chars.map Char.toNat

/-- The component that a piece between separators stands for, if any. -/
def ofPiece? (piece : List Char) : Option Component :=
  if piece = [] ∨ piece = ['.'] then none
  else if piece = ['.', '.'] then some .parent
  else some (.name piece)

end Component

/-- Does a piece between separators stand for no component? -/
def Path.isIdle (piece : List Char) : Bool := piece.isEmpty || piece == ['.']

namespace Path

/-! ## Components -/

/-- A path that begins at the root does not depend on a working directory. -/
def isAbsolute (p : Path) : Bool := p.chars.head? == some '/'

/-- What a path starts with: the root, a `.` of its own, or neither. -/
def lead (p : Path) : List Char :=
  match p.chars with
  | '/' :: _ => ['/']
  | ['.'] => ['.']
  | '.' :: '/' :: _ => ['.']
  | _ => []

/-- The pieces between the separators after the lead. -/
def body (p : Path) : List (List Char) :=
  Text.pieces (· == '/') (p.chars.drop p.lead.length)

/-- The component that the lead stands for. -/
def leadComponents (p : Path) : List Component :=
  if p.lead = ['/'] then [.root] else if p.lead = ['.'] then [.current] else []

/-- The meaning of a path. -/
def components (p : Path) : List Component :=
  p.leadComponents ++ p.body.filterMap Component.ofPiece?

/-- Do the two spellings mean the same path? -/
def same (p q : Path) : Bool := p.components == q.components

/-- Paths are ordered by their components. -/
def le (p q : Path) : Bool :=
  Sorted.dictionaryLe (Sorted.dictionaryLe Nat.ble) (p.components.map Component.key)
    (q.components.map Component.key)

theorem same_iff {p q : Path} : p.same q = true ↔ p.components = q.components := by
  simp [same]

theorem same_refl (p : Path) : p.same p = true := by simp [same]

/-! ## Going down and up -/

/-- The path of `q` seen from `p`: `q` itself if it begins at the root. -/
def join (p q : Path) : Path :=
  if q.isAbsolute then q
  else if p.isEmpty || p.chars.getLast? == some '/' then ⟨p.chars ++ q.chars⟩
  else ⟨p.chars ++ '/' :: q.chars⟩

/-- The path spelled by a lead and pieces in reverse order, less idle pieces at the end. -/
def ofPieces (lead : List Char) (reversed : List (List Char)) : Path :=
  ⟨lead ++ ['/'].intercalate (reversed.dropWhile isIdle).reverse⟩

/-- The paths above the one that is spelled by a lead and pieces in reverse order, nearest
first. -/
def parentsFrom (lead : List Char) : List (List Char) → List Path
  | [] => if lead = ['.'] then [⟨[]⟩] else []
  | piece :: rest =>
    if isIdle piece then parentsFrom lead rest
    else ofPieces lead rest :: parentsFrom lead rest

/-- The paths above `p`, nearest first. They are found in the spelling alone: above `a/..`
stands `a`. -/
def parents (p : Path) : List Path := parentsFrom p.lead p.body.reverse

/-- The path without its last component. The root and the empty path have none. -/
def parent? (p : Path) : Option Path := p.parents.head?

/-! ## Names -/

/-- The last component, if it is a name. -/
def fileName? (p : Path) : Option (List Char) :=
  match p.components.getLast? with
  | some (.name chars) => some chars
  | _ => none

/-- What follows the last dot of the file name, unless that dot is its first character. -/
def extension? (p : Path) : Option (List Char) :=
  p.fileName?.bind fun name =>
    match (Text.pieces (· == '.') name).reverse with
    | last :: before :: others => if before.isEmpty && others.isEmpty then none else some last
    | _ => none

/-! ## Seen from a working directory -/

/-- The path that takes the components one after the other from `start`. -/
def follow (start : Path) (steps : List Component) : Path :=
  steps.foldl (fun p step => p.join step.path) start

/-- The path as seen from the root, `cwd` being the working directory. Only the spelling is
looked at. Two separators at the start stay two, and a separator at the end stays. -/
def absoluteFrom (p cwd : Path) : Path :=
  let start : Path :=
    if p.isAbsolute then
      if p.chars.take 2 = ['/', '/'] ∧ p.chars.take 3 ≠ ['/', '/', '/'] then ⟨['/', '/']⟩
      else ⟨['/']⟩
    else cwd
  let path := follow start (p.body.filterMap Component.ofPiece?)
  if p.chars.getLast? = some '/' then path.join ⟨[]⟩ else path

/-! ## Lists of paths -/

/-- Is a path of this meaning in the list? -/
def isIn (p : Path) (ps : List Path) : Bool :=
  let meaning := p.components
  ps.any fun q => q.components == meaning

theorem isIn_iff {p : Path} {ps : List Path} : p.isIn ps = true ↔ ∃ q ∈ ps, q.same p = true :=
  List.any_eq_true

/-- The list with `p` at the end, unless a path of its meaning is there already. -/
def register (ps : List Path) (p : Path) : List Path :=
  if p.isIn ps then ps else ps ++ [p]

/-- The list with the paths that have an earlier one of the same meaning left out. -/
def dedup (ps : List Path) : List Path := ps.foldl register []

/-- The paths of a search list, which separates them by colons. -/
def ofSearchList (text : String) : List Path :=
  (Text.pieces (· == ':') text.toList).map .mk

end Path

end ExtensionPlan
