import ExtensionPlan.Proofs.Configuration
import ExtensionPlan.Proofs.Tree.Steps

/-!
# ExtensionPlan.Proofs.World.Location

**Which location a path leads to.** What is found at the end of a path does not tell where it is:
two directories may hold the same. `World.location?` is the location itself, and what is found is
what is there (`World.find_eq_ok_iff_location?`). It does not ask how long the path is, as that is
nothing about the place.

A path that was made absolute leads where the path leads that it was made from. It does so before
any further piece, since the way to the working directory goes through no link
(`World.walk_of_absolute`).
-/

namespace ExtensionPlan

namespace World

variable {w : World} {p q : Path} {location : Location} {node : Node}

/-! ### Locations of paths -/

/-- The location to which the pieces lead from a directory that is `removed` removed directories
further in than `around`. What is removed is nowhere. -/
def locationFrom (tree : Tree) (around : Location) : Nat → List (List Char) → Option Location
  | 0, pieces => (tree.walk Tree.linkLimit around pieces).toOption.map (·.1)
  | _ + 1, [] => none
  | removed + 1, piece :: rest =>
    match Tree.Move.ofPiece piece with
    | .stay => locationFrom tree around (removed + 1) rest
    | .up => locationFrom tree around removed rest
    | .enter _ | .refused => none

/-- The location to which a path leads, links followed. -/
def location? (w : World) (p : Path) : Option Location :=
  if p.isEmpty then none
  else if p.isAbsolute then locationFrom w.tree [] 0 (Tree.piecesOf p)
  else locationFrom w.tree w.here.location w.here.removed (Tree.piecesOf p)

theorem locationFrom_zero_eq_some_iff {tree : Tree} {around : Location}
    {pieces : List (List Char)} : locationFrom tree around 0 pieces = some location ↔
      ∃ node, tree.walk Tree.linkLimit around pieces = .ok (location, node) := by
  simp only [locationFrom, Option.map_eq_some_iff, toOption_eq_some_iff, Prod.exists]
  constructor
  · intro h
    obtain ⟨there, node, hwalk, rfl⟩ := h
    exact ⟨node, hwalk⟩
  · intro h
    obtain ⟨node, hwalk⟩ := h
    exact ⟨location, node, hwalk, rfl⟩

/-- There is something at the location, and it is what the pieces lead to. -/
theorem walkFrom_of_locationFrom {tree : Tree} {around : Location} {removed : Nat}
    {pieces : List (List Char)} (h : locationFrom tree around removed pieces = some location) :
    ∃ node, tree.node? location = some node ∧ walkFrom tree around removed pieces = .ok node := by
  induction pieces generalizing removed with
  | nil =>
      cases removed with
      | zero =>
          obtain ⟨node, hwalk⟩ := locationFrom_zero_eq_some_iff.1 h
          exact ⟨node, (Tree.exists_walk_append hwalk).1, by rw [walkFrom, hwalk]; rfl⟩
      | succ removed => cases h
  | cons piece rest ih =>
      cases removed with
      | zero =>
          obtain ⟨node, hwalk⟩ := locationFrom_zero_eq_some_iff.1 h
          exact ⟨node, (Tree.exists_walk_append hwalk).1, by rw [walkFrom, hwalk]; rfl⟩
      | succ removed =>
          rw [locationFrom] at h
          rw [walkFrom]
          cases hmove : Tree.Move.ofPiece piece with
          | stay =>
              rw [hmove] at h
              exact ih h
          | up =>
              rw [hmove] at h
              exact ih h
          | refused => simp [hmove] at h
          | enter name => simp [hmove] at h

/-- A path is seen from the root, or from a working directory that is not removed. -/
def IsLocated (w : World) (p : Path) : Prop := p.isAbsolute = true ∨ w.here.removed = 0

theorem location?_eq_some_iff (h : w.IsLocated p) : w.location? p = some location ↔
    p.chars ≠ [] ∧ ∃ node,
      w.tree.walk Tree.linkLimit (Tree.startOf w.here.location p) (Tree.piecesOf p) =
        .ok (location, node) := by
  unfold location?
  by_cases hempty : p.chars = []
  · simp [Path.isEmpty, hempty]
  · have hfilled : p.isEmpty = false := by simpa [Path.isEmpty] using hempty
    rw [hfilled, if_neg Bool.false_ne_true]
    by_cases habsolute : p.isAbsolute = true
    · rw [if_pos habsolute, locationFrom_zero_eq_some_iff, Tree.startOf, if_pos habsolute]
      simp [hempty]
    · rw [if_neg habsolute, h.resolve_left habsolute, locationFrom_zero_eq_some_iff,
        Tree.startOf, if_neg habsolute]
      simp [hempty]

/-- **What is found is what is at the location**, if the path can be looked up. -/
theorem find_of_location? (h : w.location? p = some location) (hspellable : IsSpellable p) :
    ∃ node, w.tree.node? location = some node ∧ w.find p = .ok node := by
  unfold location? at h
  split at h
  · cases h
  · split at h
    · next habsolute =>
      obtain ⟨node, hnode, hwalk⟩ := walkFrom_of_locationFrom h
      refine ⟨node, hnode, find_eq_ok_iff.2 ⟨hspellable, ?_⟩⟩
      rw [walk, if_pos habsolute, hwalk]
    · next hrelative =>
      obtain ⟨node, hnode, hwalk⟩ := walkFrom_of_locationFrom h
      refine ⟨node, hnode, find_eq_ok_iff.2 ⟨hspellable, ?_⟩⟩
      rw [walk, if_neg hrelative, hwalk]

theorem walk_of_isLocated (h : w.IsLocated p) (pieces : List (List Char)) :
    w.walk p pieces =
      (w.tree.walk Tree.linkLimit (Tree.startOf w.here.location p) pieces).map (·.2) := by
  unfold walk Tree.startOf
  by_cases habsolute : p.isAbsolute = true
  · rw [if_pos habsolute, if_pos habsolute, walkFrom]
  · rw [if_neg habsolute, if_neg habsolute, h.resolve_left habsolute, walkFrom]

theorem find_eq_ok_iff_location? (h : w.IsLocated p) : w.find p = .ok node ↔
    IsSpellable p ∧ ∃ location, w.location? p = some location ∧
      w.tree.node? location = some node := by
  constructor
  · intro hfind
    obtain ⟨hspellable, hwalk⟩ := find_eq_ok_iff.1 hfind
    rw [walk_of_isLocated h] at hwalk
    obtain ⟨⟨location, found⟩, hreached, rfl⟩ := map_eq_ok_iff.1 hwalk
    exact ⟨hspellable, location,
      (location?_eq_some_iff h).2 ⟨hspellable.filled, found, hreached⟩,
      (Tree.exists_walk_append hreached).1⟩
  · intro hlocation
    obtain ⟨hspellable, location, hlocation, hnode⟩ := hlocation
    obtain ⟨found, hfound, hfind⟩ := find_of_location? hlocation hspellable
    rw [hnode] at hfound
    cases hfound
    exact hfind

/-- An entry of a directory is what is at the location of its name. -/
theorem hasEntry_iff_location? (h : w.IsLocated p) {name : FileName} : w.HasEntry p name ↔
    w.isDirectory p = true ∧ ∃ location, w.location? p = some location ∧
      (w.tree.node? (name :: location)).isSome = true := by
  have hnames : ∀ children : List (FileName × Node),
      name ∈ children.map (·.1) ↔ (children.lookup name).isSome = true := by
    intro children
    rw [← not_iff_not, Bool.not_eq_true, Option.isSome_eq_false_iff, Option.isNone_iff_eq_none,
      List.lookup_eq_none_iff]
    grind
  rw [hasEntry_iff]
  constructor
  · intro hentry
    obtain ⟨children, hfind, hname⟩ := hentry
    obtain ⟨-, location, hlocation, hnode⟩ := (find_eq_ok_iff_location? h).1 hfind
    refine ⟨isDirectory_iff.2 ⟨children, hfind⟩, location, hlocation, ?_⟩
    rw [Tree.node?_cons, hnode, Option.bind_some]
    exact (hnames children).1 hname
  · intro hentry
    obtain ⟨hdirectory, location, hlocation, hsome⟩ := hentry
    obtain ⟨children, hfind⟩ := isDirectory_iff.1 hdirectory
    obtain ⟨-, there, hthere, hnode⟩ := (find_eq_ok_iff_location? h).1 hfind
    obtain rfl := Option.some.inj (hlocation.symm.trans hthere)
    rw [Tree.node?_cons, hnode, Option.bind_some] at hsome
    exact ⟨children, hfind, (hnames children).2 hsome⟩

/-! ### Seen from the root -/

/-- The steps to a location from the root. -/
def stepsTo (location : Location) : List Component :=
  location.reverse.map fun name => .name name.chars

theorem spelled_stepsTo (location : Location) :
    Tree.spelled (stepsTo location) = location.reverse.map (·.chars) := by
  rw [Tree.spelled, stepsTo, List.map_map]
  rfl

theorem steps_path (location : Location) : location.path.steps = stepsTo location := by
  have hnames : (location.reverse.map (·.chars)).filterMap Component.ofPiece? =
      stepsTo location := by
    rw [List.filterMap_map, stepsTo, ← List.filterMap_eq_map]
    exact List.filterMap_congr fun name _ => name.isName.ofPiece?
  rw [← hnames, Path.steps]
  cases hlocation : location.reverse.map (·.chars) with
  | nil =>
      rw [Location.path, hlocation]
      rfl
  | cons first others =>
      have hpieces := Text.pieces_intercalate (List.cons_ne_nil first others) fun piece hpiece => by
        rw [← hlocation] at hpiece
        obtain ⟨name, -, rfl⟩ := List.mem_map.1 hpiece
        exact name.isName.whole
      rw [Location.path, hlocation]
      show ([] :: Text.pieces (· == '/') (['/'].intercalate (first :: others))).filterMap _ = _
      rw [hpieces]
      rfl

theorem currentDirectory_eq_ok_iff {cwd : Path} : w.currentDirectory = .ok cwd ↔
    w.here.removed = 0 ∧ w.tree.get? w.here.location = some .directory ∧
      cwd = w.here.location.path := by
  unfold currentDirectory
  cases w.here.removed with
  | succ removed => simp
  | zero =>
      cases w.tree.get? w.here.location with
      | none => simp
      | some entry => cases entry <;> simp [eq_comm]

/-- What it takes to make a path absolute, and what becomes of it. -/
theorem absolute_eq_ok_iff : w.absolute p = .ok q ↔ p.chars ≠ [] ∧
    ∃ cwd, q = p.absoluteFrom cwd ∧
      if p.isAbsolute then cwd = ⟨['/']⟩ else w.currentDirectory = .ok cwd := by
  unfold absolute
  by_cases hempty : p.chars = []
  · simp [Path.isEmpty, hempty]
  · have hfilled : p.isEmpty = false := by simpa [Path.isEmpty] using hempty
    rw [hfilled, if_neg Bool.false_ne_true]
    by_cases habsolute : p.isAbsolute = true
    · simp [habsolute, hempty, eq_comm]
    · simp only [habsolute, if_neg Bool.false_ne_true, map_eq_ok_iff]
      simp [hempty, and_comm, eq_comm]

theorem steps_of_absolute (h : w.absolute p = .ok q) :
    q.steps = (if p.isAbsolute then [] else stepsTo w.here.location) ++ p.steps := by
  obtain ⟨-, cwd, rfl, hcwd⟩ := absolute_eq_ok_iff.1 h
  rw [Path.steps_absoluteFrom]
  split
  · rfl
  · next hrelative =>
    rw [if_neg hrelative] at hcwd
    rw [(currentDirectory_eq_ok_iff.1 hcwd).2.2, steps_path]

/-- **A path that was made absolute leads the same way**, whatever comes after it. -/
theorem walk_of_absolute (h : w.absolute p = .ok q)
    (hshort : p.isAbsolute = false → ∀ name ∈ w.here.location,
      Text.byteCount name.chars ≤ Tree.nameLimit) (links : Nat) (back : List (List Char)) :
    w.tree.walk links [] (Tree.spelled q.steps ++ back) =
      w.tree.walk links (Tree.startOf w.here.location p) (Tree.spelled p.steps ++ back) := by
  obtain ⟨-, cwd, -, hcwd⟩ := absolute_eq_ok_iff.1 h
  rw [steps_of_absolute h, Tree.startOf]
  split
  · rfl
  · next hrelative =>
    rw [if_neg hrelative] at hcwd
    rw [Tree.spelled_append, spelled_stepsTo, List.append_assoc]
    exact Tree.walk_location (currentDirectory_eq_ok_iff.1 hcwd).2.1
      (hshort (Bool.not_eq_true _ ▸ hrelative)) _

theorem isLocated_of_absolute (h : w.absolute p = .ok q) : w.IsLocated p := by
  obtain ⟨-, cwd, -, hcwd⟩ := absolute_eq_ok_iff.1 h
  by_cases habsolute : p.isAbsolute = true
  · exact Or.inl habsolute
  · rw [if_neg habsolute] at hcwd
    exact Or.inr (currentDirectory_eq_ok_iff.1 hcwd).1

/-- A path that leads somewhere can be made absolute, unless the working directory is removed. -/
theorem exists_absolute (hlocated : w.IsLocated p) (h : w.location? p = some location) :
    ∃ q, w.absolute p = .ok q := by
  obtain ⟨hfilled, node, hwalk⟩ := (location?_eq_some_iff hlocated).1 h
  by_cases habsolute : p.isAbsolute = true
  · exact ⟨_, absolute_eq_ok_iff.2 ⟨hfilled, _, rfl, by rw [if_pos habsolute]⟩⟩
  · rw [Tree.startOf, if_neg habsolute] at hwalk
    obtain ⟨first, others, hpieces⟩ :=
      List.exists_cons_of_ne_nil (Text.pieces_ne_nil (· == '/') p.chars)
    rw [Tree.piecesOf, hpieces] at hwalk
    obtain ⟨children, hnode⟩ := Tree.exists_directory_of_walk_cons hwalk
    have hhere : w.tree.get? w.here.location = some .directory := by
      rw [Tree.get?, hnode]
      rfl
    have hcwd := currentDirectory_eq_ok_iff.2 ⟨hlocated.resolve_left habsolute, hhere, rfl⟩
    exact ⟨_, absolute_eq_ok_iff.2 ⟨hfilled, _, rfl, by rw [if_neg habsolute, hcwd]⟩⟩

/-- The steps of a path that is seen from the root lead to the directory that the path leads to. -/
theorem location?_of_spelled {children : List (FileName × Node)} (h : p.isAbsolute = true)
    (hwalk : w.tree.walk Tree.linkLimit [] (Tree.spelled p.steps) =
      .ok (location, .directory children)) : w.location? p = some location := by
  refine (location?_eq_some_iff (Or.inl h)).2 ⟨Path.filled_of_isAbsolute h, .directory children, ?_⟩
  rw [Tree.startOf, if_pos h]
  exact Tree.walk_piecesOf_directory_iff.2 hwalk

/-- The steps of a path that was made absolute lead to the directory that the path led to. -/
theorem exists_walk_of_absolute (h : w.absolute p = .ok q)
    (hshort : p.isAbsolute = false → ∀ name ∈ w.here.location,
      Text.byteCount name.chars ≤ Tree.nameLimit)
    (hlocation : w.location? p = some location) (hdirectory : w.tree.get? location = some .directory) :
    ∃ children, w.tree.walk Tree.linkLimit [] (Tree.spelled q.steps) =
      .ok (location, .directory children) := by
  obtain ⟨-, node, hwalk⟩ := (location?_eq_some_iff (isLocated_of_absolute h)).1 hlocation
  have hnode := (Tree.exists_walk_append hwalk).1
  rw [Tree.get?, hnode, Option.map_some, Option.some.injEq] at hdirectory
  cases node with
  | link target => cases hdirectory
  | file file => cases hdirectory
  | directory children =>
      have hsame := walk_of_absolute h hshort Tree.linkLimit []
      rw [List.append_nil, List.append_nil, Tree.walk_piecesOf_directory_iff.1 hwalk] at hsame
      exact ⟨children, hsame⟩

end World

end ExtensionPlan
