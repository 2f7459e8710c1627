import ExtensionPlan.Proofs.Path.Steps
import ExtensionPlan.Proofs.World.Walk

/-!
# ExtensionPlan.Proofs.Tree.Steps

**Where the steps of a path lead.** A walk goes through the pieces of a path, and the idle ones
among them only ask for a directory. So before any further piece, and where a directory is come to,
nothing but the steps of the path matters (`Tree.walk_steps`, `Tree.walk_piecesOf_directory_iff`).

The steps of the path of a location lead there, whatever the walk does afterwards
(`Tree.walk_location`): all the nodes on the way are directories, so no link is gone through.
-/

namespace ExtensionPlan

namespace Tree

variable {tree : Tree} {links : Nat} {here there : Location} {node : Node}
  {children : List (FileName × Node)} {front back : List (List Char)}

/-! ### Idle pieces -/

/-- An idle piece makes no difference before another one: either there is a directory, or neither
of them leads anywhere. -/
theorem walk_idle {piece : List Char} (hidle : Path.isIdle piece = true)
    (front : List (List Char)) (other : List Char) (back : List (List Char)) :
    tree.walk links here (front ++ piece :: other :: back) =
      tree.walk links here (front ++ other :: back) := by
  cases hfront : tree.walk links here front with
  | error e => rw [walk_append_error hfront, walk_append_error hfront]
  | ok reached =>
      obtain ⟨there, node⟩ := reached
      obtain ⟨hnode, left, hback⟩ := exists_walk_append hfront
      rw [hback, hback]
      by_cases hdirectory : ∃ children, node = .directory children
      · obtain ⟨children, rfl⟩ := hdirectory
        exact walk_of_stay hnode (Move.ofPiece_of_isIdle hidle)
      · rw [not_exists] at hdirectory
        rw [walk_of_not_directory hnode hdirectory, walk_of_not_directory hnode hdirectory]

/-- Before any further piece the idle ones make no difference. -/
theorem walk_filter_isIdle (front pieces : List (List Char)) (hback : back ≠ []) :
    tree.walk links here (front ++ (pieces ++ back)) =
      tree.walk links here (front ++ (pieces.filter (!Path.isIdle ·) ++ back)) := by
  induction pieces generalizing front with
  | nil => rfl
  | cons piece pieces ih =>
      rw [List.filter_cons]
      by_cases hidle : Path.isIdle piece = true
      · obtain ⟨next, others, hnext⟩ :=
          List.exists_cons_of_ne_nil (List.append_ne_nil_of_right_ne_nil pieces hback)
        rw [hidle, Bool.not_true, if_neg Bool.false_ne_true, ← ih, List.cons_append, hnext]
        exact walk_idle hidle front next others
      · rw [Bool.not_eq_true] at hidle
        rw [hidle, Bool.not_false, if_pos rfl]
        simpa using ih (front ++ [piece])

/-- An idle piece at the end asks for a directory. -/
theorem walk_append_idle_eq_ok_iff {pieces : List (List Char)} :
    tree.walk links here (pieces ++ [[]]) = .ok (there, node) ↔
      tree.walk links here pieces = .ok (there, node) ∧ ∃ children, node = .directory children := by
  cases hpieces : tree.walk links here pieces with
  | error e => simp [walk_append_error hpieces]
  | ok reached =>
      obtain ⟨found, below⟩ := reached
      obtain ⟨hnode, left, hback⟩ := exists_walk_append hpieces
      rw [hback]
      by_cases hdirectory : ∃ children, below = .directory children
      · obtain ⟨children, rfl⟩ := hdirectory
        rw [walk_of_stay hnode (Move.ofPiece_of_isIdle rfl), walk_nil hnode]
        constructor
        · intro h
          cases h
          exact ⟨rfl, children, rfl⟩
        · exact fun h => h.1
      · rw [not_exists] at hdirectory
        rw [walk_of_not_directory hnode hdirectory]
        constructor
        · intro h
          cases h
        · intro h
          obtain ⟨heq, children, rfl⟩ := h
          cases heq
          exact absurd rfl (hdirectory children)

/-! ### Steps -/

/-- The pieces that spell steps. -/
def spelled (steps : List Component) : List (List Char) := steps.map (·.path.chars)

/-- Pieces spell their steps, but for the idle ones. -/
theorem spelled_filterMap (pieces : List (List Char)) :
    spelled (pieces.filterMap Component.ofPiece?) = pieces.filter (!Path.isIdle ·) := by
  induction pieces with
  | nil => rfl
  | cons piece pieces ih =>
      cases hpiece : Component.ofPiece? piece with
      | none =>
          have hidle := Component.ofPiece?_eq_none_iff.1 hpiece
          rw [List.filterMap_cons_none hpiece, ih, List.filter_cons, hidle]
          rfl
      | some step =>
          have hbusy : Path.isIdle piece = false := by
            rw [← Bool.not_eq_true, ← Component.ofPiece?_eq_none_iff, hpiece]
            exact Option.some_ne_none step
          rw [List.filterMap_cons_some hpiece, List.filter_cons, hbusy, ← ih]
          show step.path.chars :: _ = piece :: _
          rw [(Component.isStep_of_ofPiece? hpiece).2]
          rfl

@[simp] theorem spelled_append (steps others : List Component) :
    spelled (steps ++ others) = spelled steps ++ spelled others := List.map_append

/-- **Only the steps matter** before any further piece. -/
theorem walk_steps (p : Path) (hback : back ≠ []) :
    tree.walk links here (piecesOf p ++ back) =
      tree.walk links here (spelled p.steps ++ back) := by
  rw [Path.steps, spelled_filterMap]
  exact walk_filter_isIdle [] (piecesOf p) hback

/-- Only the steps matter to which directory a path leads. -/
theorem walk_piecesOf_directory_iff {p : Path} :
    tree.walk links here (piecesOf p) = .ok (there, .directory children) ↔
      tree.walk links here (spelled p.steps) = .ok (there, .directory children) := by
  have hsame : tree.walk links here (piecesOf p ++ [[]]) =
      tree.walk links here (spelled p.steps ++ [[]]) := walk_steps p (List.cons_ne_nil [] [])
  have hclosed : ∀ pieces, tree.walk links here (pieces ++ [[]]) = .ok (there, .directory children) ↔
      tree.walk links here pieces = .ok (there, .directory children) := by
    intro pieces
    rw [walk_append_idle_eq_ok_iff]
    simp
  rw [← hclosed, hsame, hclosed]

/-- Going along a path that was put behind another one is taking the steps of that one first. -/
theorem walk_join {q : Path} (hq : q.isAbsolute = false) (p : Path) (back : List (List Char)) :
    tree.walk links here (piecesOf (p.join q) ++ back) =
      tree.walk links here (spelled p.steps ++ (piecesOf q ++ back)) := by
  have hback : piecesOf q ++ back ≠ [] :=
    List.append_ne_nil_of_left_ne_nil (Text.pieces_ne_nil _ _) back
  rcases Path.join_eq (p := p) hq with ⟨hp, hjoin⟩ | ⟨front, hfront, hjoin⟩ | ⟨-, hjoin⟩
  · have hnone : p.steps = [] := by
      rw [Path.steps, hp]
      rfl
    rw [hjoin, hnone]
    rfl
  · have hsteps : p.steps = (Path.mk front).steps := by
      rw [Path.steps, hfront, Text.pieces_append_cons (by rfl), List.filterMap_append]
      exact List.append_nil _
    rw [hjoin, hsteps, ← walk_steps ⟨front⟩ hback, ← List.append_assoc, piecesOf,
      Text.pieces_append_cons (by rfl)]
    rfl
  · rw [hjoin, ← walk_steps p hback, ← List.append_assoc, piecesOf,
      Text.pieces_append_cons (by rfl)]
    rfl

/-! ### One step -/

theorem walk_nil_eq_ok_iff :
    tree.walk links here [] = .ok (there, node) ↔ there = here ∧ tree.node? here = some node := by
  cases hnode : tree.node? here with
  | none => simp [walk_of_node?_none hnode]
  | some found => simp [walk_nil hnode, eq_comm]

/-- There is a way on only from a directory. -/
theorem exists_directory_of_walk_cons {piece : List Char} {result : Location × Node}
    (h : tree.walk links here (piece :: back) = .ok result) :
    ∃ children, tree.node? here = some (.directory children) := by
  cases hnode : tree.node? here with
  | none =>
      rw [walk_of_node?_none hnode] at h
      cases h
  | some node =>
      by_contra hnone
      rw [walk_of_not_directory hnode fun children heq => hnone ⟨children, by rw [heq]⟩] at h
      cases h

/-- From a directory the step up leads to the directory around, and the root is around itself. -/
theorem walk_up (hnode : tree.node? here = some (.directory children)) :
    tree.walk links here (['.', '.'] :: back) = tree.walk links here.tail back := by
  have hmove : Move.ofPiece ['.', '.'] = .up := by decide
  simp [walk_cons, turn, hnode, hmove, bind, Except.bind]

/-- A name leads into the directory to what has it, links apart. -/
theorem walk_enter {name : FileName} {child : Node}
    (hnode : tree.node? here = some (.directory children)) (hchild : children.lookup name = some child)
    (hshort : Text.byteCount name.chars ≤ nameLimit) (hlink : ∀ target, child ≠ .link target) :
    tree.walk links here (name.chars :: back) = tree.walk links (name :: here) back := by
  have hlong : ¬ nameLimit < Text.byteCount name.chars := Nat.not_lt.2 hshort
  have hmove := Move.ofPiece_chars name
  cases child with
  | link target => exact absurd rfl (hlink target)
  | file file => simp [walk_cons, turn, hnode, hmove, hlong, hchild, bind, Except.bind]
  | directory below => simp [walk_cons, turn, hnode, hmove, hlong, hchild, bind, Except.bind]

/-- **The way to a location.** From the root the names on the way lead there. -/
theorem walk_location {location : Location} (h : tree.get? location = some .directory)
    (hshort : ∀ name ∈ location, Text.byteCount name.chars ≤ nameLimit)
    (back : List (List Char)) :
    tree.walk links [] (location.reverse.map (·.chars) ++ back) =
      tree.walk links location back := by
  induction location generalizing back with
  | nil => rfl
  | cons name around ih =>
      have haround := ih (get?_around h)
        (fun other hother => hshort other (List.mem_cons_of_mem name hother)) (name.chars :: back)
      rw [List.reverse_cons, List.map_append, List.append_assoc]
      refine haround.trans ?_
      obtain ⟨node, hnode, hentry⟩ := Option.map_eq_some_iff.1 h
      rw [node?_cons] at hnode
      obtain ⟨parent, hparent, hchild⟩ := Option.bind_eq_some_iff.1 hnode
      cases parent with
      | link target => exact absurd hchild (by simp [Node.child?])
      | file file => exact absurd hchild (by simp [Node.child?])
      | directory children =>
          refine walk_enter hparent hchild (hshort name List.mem_cons_self) ?_
          intro target htarget
          rw [htarget] at hentry
          cases hentry

/-! ### Trees without links -/

end Tree

namespace Node

mutual
/-- Is there no symbolic link here and below, and no name that is too long? -/
def isPlain : Node → Bool
  | .link _ => false
  | .file _ => true
  | .directory children => allPlain children
/-- Are the nodes plain that the list holds, and their names not too long? -/
def allPlain : List (FileName × Node) → Bool
  | [] => true
  | (name, node) :: rest =>
    decide (Text.byteCount name.chars ≤ Tree.nameLimit) && node.isPlain && allPlain rest
end

theorem isPlain_directory_iff {children : List (FileName × Node)} :
    (Node.directory children).isPlain = true ↔ ∀ child ∈ children,
      Text.byteCount child.1.chars ≤ Tree.nameLimit ∧ child.2.isPlain = true := by
  rw [isPlain]
  induction children with
  | nil => simp [allPlain]
  | cons child children ih =>
      obtain ⟨name, node⟩ := child
      simp [allPlain, ih, and_assoc]

/-- What has a name in a plain directory is plain. -/
theorem isPlain_of_lookup {children : List (FileName × Node)} {name : FileName} {child : Node}
    (plain : (Node.directory children).isPlain = true) (h : children.lookup name = some child) :
    Text.byteCount name.chars ≤ Tree.nameLimit ∧ child.isPlain = true :=
  isPlain_directory_iff.1 plain (name, child) (mem_of_lookup h)

theorem isPlain_of_at? {names : List FileName} {node below : Node}
    (plain : node.isPlain = true) (h : node.at? names = some below) :
    (∀ name ∈ names, Text.byteCount name.chars ≤ Tree.nameLimit) ∧ below.isPlain = true := by
  induction names generalizing node with
  | nil =>
      cases h
      exact ⟨fun name hname => absurd hname List.not_mem_nil, plain⟩
  | cons name names ih =>
      obtain ⟨child, hchild, hbelow⟩ := Option.bind_eq_some_iff.1 h
      cases node with
      | link target => exact absurd hchild (by simp [child?])
      | file file => exact absurd hchild (by simp [child?])
      | directory children =>
          obtain ⟨hshort, hplain⟩ := isPlain_of_lookup plain hchild
          obtain ⟨hnames, hnode⟩ := ih hplain hbelow
          refine ⟨fun other hother => ?_, hnode⟩
          rcases List.mem_cons.1 hother with rfl | hother
          · exact hshort
          · exact hnames other hother

end Node

namespace Tree

/-- A tree without symbolic links in which no name is longer than a directory can hold. -/
def IsPlain (tree : Tree) : Prop := (Node.directory tree.children).isPlain = true

instance (tree : Tree) : Decidable tree.IsPlain := inferInstanceAs (Decidable (_ = true))

namespace IsPlain

variable {tree : Tree} {links : Nat} {here there : Location} {node : Node}
  {back : List (List Char)} {result : Location × Node}

theorem of_node? (h : tree.IsPlain) (hnode : tree.node? here = some node) :
    (∀ name ∈ here, Text.byteCount name.chars ≤ nameLimit) ∧ node.isPlain = true := by
  obtain ⟨hnames, hplain⟩ := Node.isPlain_of_at? h hnode
  exact ⟨fun name hname => hnames name (List.mem_reverse.2 hname), hplain⟩

/-- **A name leads into the location of that name**, from wherever it is followed. -/
theorem walk_name (h : tree.IsPlain) (name : FileName) :
    tree.walk links here (name.chars :: back) = .ok result ↔
      tree.walk links (name :: here) back = .ok result := by
  cases hnode : tree.node? here with
  | none =>
      have hinside : tree.node? (name :: here) = none := by rw [node?_cons, hnode, Option.bind_none]
      rw [walk_of_node?_none hnode, walk_of_node?_none hinside]
  | some node =>
      have hinside : tree.node? (name :: here) = node.child? name := by
        rw [node?_cons, hnode, Option.bind_some]
      cases node with
      | link target =>
          rw [walk_of_node?_none hinside, walk_of_not_directory hnode (by simp)]
          simp
      | file file =>
          rw [walk_of_node?_none hinside, walk_of_not_directory hnode (by simp)]
          simp
      | directory children =>
          cases hchild : children.lookup name with
          | none =>
              rw [walk_of_node?_none (hinside.trans hchild)]
              simp only [walk_cons, turn, hnode, Move.ofPiece_chars, hchild]
              split <;> simp [bind, Except.bind]
          | some child =>
              obtain ⟨hshort, hplain⟩ := Node.isPlain_of_lookup (h.of_node? hnode).2 hchild
              have hlink : ∀ target, child ≠ .link target := by
                intro target htarget
                rw [htarget, Node.isPlain] at hplain
                cases hplain
              rw [walk_enter hnode hchild hshort hlink]

/-- Names lead into each other. -/
theorem walk_names (h : tree.IsPlain) (names : List FileName) :
    tree.walk links here (names.map (·.chars) ++ back) = .ok result ↔
      tree.walk links (names.reverse ++ here) back = .ok result := by
  induction names generalizing here with
  | nil => exact Iff.rfl
  | cons name names ih =>
      rw [List.map_cons, List.cons_append, h.walk_name, ih, List.reverse_cons, List.append_assoc,
        List.singleton_append]

/-- The last step tells how the location before it lies to the one that is reached. -/
theorem walk_step {piece : List Char} {step : Component} (h : tree.IsPlain)
    (whole : '/' ∉ piece) (hstep : Component.ofPiece? piece = some step)
    (hwalk : tree.walk links here [piece] = .ok (there, node)) :
    if step = .parent then there = here.tail else ∃ name, there = name :: here := by
  obtain ⟨children, hnode⟩ := exists_directory_of_walk_cons hwalk
  have hpath := (Component.isStep_of_ofPiece? hstep).2
  by_cases hparent : step = .parent
  · rw [hparent] at hpath
    obtain rfl : ['.', '.'] = piece := congrArg Path.chars hpath
    rw [if_pos hparent]
    rw [walk_up hnode] at hwalk
    exact (walk_nil_eq_ok_iff.1 hwalk).1
  · rw [if_neg hparent]
    have hname := Move.ofPiece_of_isName (IsName.of_ofPiece? hstep hparent whole)
    cases hmove : Move.ofPiece piece with
    | enter name =>
        obtain rfl := Move.chars_of_ofPiece hmove
        exact ⟨name, (walk_nil_eq_ok_iff.1 ((h.walk_name name).1 hwalk)).1⟩
    | refused => simp [walk_cons, turn, hnode, hmove, bind, Except.bind] at hwalk
    | stay => exact absurd hmove hname.1
    | up => exact absurd hmove hname.2

end IsPlain

end Tree

end ExtensionPlan
