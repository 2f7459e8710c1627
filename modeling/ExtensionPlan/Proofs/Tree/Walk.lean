import ExtensionPlan.Proofs.Run
import ExtensionPlan.Tree

/-!
# ExtensionPlan.Proofs.Tree.Walk

**Walking a tree piece by piece.** `Tree.walk` hands the rest of the way on when it comes to a
symbolic link, so it does not recur on the pieces of a path alone. `Tree.turn` says what a single
piece does; a walk is one turn after the other (`walk_cons`), and an induction over turns ends
because each of them takes a piece away or a link (`walk_induction`).

A way in two parts is gone one part after the other: where the first one fails the whole way does
(`walk_append_error`), and where it leads somewhere the second one goes on from there
(`exists_walk_append`). How many links are left by then is not told, and no proof needs it.
-/

namespace ExtensionPlan.Tree

variable {tree : Tree} {links : Nat} {here : Location}

/-! ### One piece -/

/-- What comes of one piece of a path: how many symbolic links may follow, the location to go on
from, and the pieces to go before the rest of the path. -/
structure Turn where
  links : Nat
  location : Location
  pieces : List (List Char)

/-- Take one piece of a path. Only a symbolic link puts pieces before the rest. -/
def turn (tree : Tree) (links : Nat) (here : Location) (piece : List Char) :
    Except SystemError Turn :=
  match tree.node? here with
  | none => .error .notFound
  | some (.link _) | some (.file _) => .error .notDirectory
  | some (.directory children) =>
    match Move.ofPiece piece with
    | .stay => .ok ⟨links, here, []⟩
    | .up => .ok ⟨links, here.tail, []⟩
    | .refused => .error .nulInPath
    | .enter name =>
      if nameLimit < Text.byteCount name.chars then .error .nameTooLong
      else match children.lookup name with
        | none => .error .notFound
        | some (.link target) =>
          if target.isEmpty then .error .notFound
          else match links with
            | 0 => .error .tooManyLinks
            | left + 1 => .ok ⟨left, startOf here target, piecesOf target⟩
        | some _ => .ok ⟨links, name :: here, []⟩

/-- What a walk leaves to others when it comes to a link. -/
def throughLink (tree : Tree) :
    Nat → Location → List (List Char) → Except SystemError (Location × Node)
  | 0, _, _ => .error .tooManyLinks
  | left + 1, here, pieces => tree.walk left here pieces

theorem walk_of_node?_none (h : tree.node? here = none) (links : Nat)
    (pieces : List (List Char)) : tree.walk links here pieces = .error .notFound := by
  cases links <;> simp [walk, h]

theorem walk_of_node? {node : Node} (h : tree.node? here = some node) (links : Nat)
    (pieces : List (List Char)) :
    tree.walk links here pieces = tree.walkWith (tree.throughLink links) here node pieces := by
  cases links <;> simp only [walk, h] <;> rfl

theorem walk_nil {node : Node} (h : tree.node? here = some node) (links : Nat) :
    tree.walk links here [] = .ok (here, node) := by
  rw [walk_of_node? h, walkWith]

/-- A walk is one turn after the other. -/
theorem walk_cons (tree : Tree) (links : Nat) (here : Location) (piece : List Char)
    (rest : List (List Char)) :
    tree.walk links here (piece :: rest) =
      tree.turn links here piece >>= fun t =>
        tree.walk t.links t.location (t.pieces ++ rest) := by
  cases hnode : tree.node? here with
  | none => simp [walk_of_node?_none hnode, turn, hnode, bind, Except.bind]
  | some node =>
      rw [walk_of_node? hnode]
      cases node with
      | link target => simp [walkWith, turn, hnode, bind, Except.bind]
      | file file => simp [walkWith, turn, hnode, bind, Except.bind]
      | directory children =>
          rw [walkWith]
          cases hmove : Move.ofPiece piece with
          | stay => simp [turn, hnode, hmove, walk_of_node? hnode, bind, Except.bind]
          | refused => simp [turn, hnode, hmove, bind, Except.bind]
          | up =>
              simp only [turn, hnode, hmove, bind, Except.bind, List.nil_append]
              cases haround : tree.node? here.tail with
              | none => rw [walk_of_node?_none haround]
              | some around => rw [walk_of_node? haround]
          | enter name =>
              by_cases hlong : nameLimit < Text.byteCount name.chars
              · simp [turn, hnode, hmove, hlong, bind, Except.bind]
              -- what is entered is at the location of its name
              have hinside : tree.node? (name :: here) = children.lookup name := by
                rw [node?_cons, hnode]
                rfl
              simp only [turn, hnode, hmove, hlong, if_false]
              cases hchild : children.lookup name with
              | none => simp [bind, Except.bind]
              | some child =>
                  rw [hchild] at hinside
                  cases child with
                  | link target =>
                      by_cases hempty : target.isEmpty = true
                      · simp [hempty, bind, Except.bind]
                      · cases links <;> simp [hempty, throughLink, bind, Except.bind]
                  | file file => simp [walk_of_node? hinside, bind, Except.bind]
                  | directory below => simp [walk_of_node? hinside, bind, Except.bind]

/-- A turn takes away its piece, or a link. -/
theorem turn_eq_ok {piece : List Char} {t : Turn} (h : tree.turn links here piece = .ok t) :
    (t.links = links ∧ t.pieces = []) ∨ t.links < links := by
  unfold turn at h
  split at h
  · cases h
  · cases h
  · cases h
  · split at h
    · cases h
      exact Or.inl ⟨rfl, rfl⟩
    · cases h
      exact Or.inl ⟨rfl, rfl⟩
    · cases h
    · split at h
      · cases h
      · split at h
        · cases h
        · split at h
          · cases h
          · split at h
            · cases h
            · cases h
              exact Or.inr (Nat.lt_succ_self _)
        · cases h
          exact Or.inl ⟨rfl, rfl⟩

/-- **Induction over turns.** What holds where nothing is left to go, and before a piece if it
holds after the turn, holds of every walk. -/
theorem walk_induction (tree : Tree) {motive : Nat → Location → List (List Char) → Prop}
    (nil : ∀ links here, motive links here [])
    (cons : ∀ links here piece rest,
      (∀ t, tree.turn links here piece = .ok t → motive t.links t.location (t.pieces ++ rest)) →
      motive links here (piece :: rest)) :
    ∀ links here pieces, motive links here pieces := by
  intro links
  induction links using Nat.strongRecOn with
  | _ links ihLinks =>
      intro here pieces
      induction pieces generalizing here with
      | nil => exact nil links here
      | cons piece rest ihPieces =>
          refine cons links here piece rest fun t ht => ?_
          rcases turn_eq_ok ht with ⟨hlinks, hpieces⟩ | hlinks
          · rw [hlinks, hpieces]
            exact ihPieces t.location
          · exact ihLinks t.links hlinks t.location _

/-! ### A way in two parts -/

/-- Where a way leads there is something, and any longer way goes on from there. -/
theorem exists_walk_append {front : List (List Char)} {there : Location} {node : Node}
    (h : tree.walk links here front = .ok (there, node)) :
    tree.node? there = some node ∧
      ∃ left, ∀ back, tree.walk links here (front ++ back) = tree.walk left there back := by
  induction links, here, front using walk_induction tree with
  | nil links here =>
      cases hnode : tree.node? here with
      | none => simp [walk_of_node?_none hnode] at h
      | some found =>
          simp only [walk_nil hnode, Except.ok.injEq, Prod.mk.injEq] at h
          obtain ⟨rfl, rfl⟩ := h
          exact ⟨hnode, links, fun back => rfl⟩
  | cons links here piece rest ih =>
      rw [walk_cons, bind_eq_ok_iff] at h
      obtain ⟨t, ht, h⟩ := h
      obtain ⟨hnode, left, hback⟩ := ih t ht h
      refine ⟨hnode, left, fun back => ?_⟩
      rw [List.cons_append, walk_cons, ht, ← hback, List.append_assoc]
      rfl

/-- A way fails where its beginning does. -/
theorem walk_append_error {front : List (List Char)} {e : SystemError}
    (h : tree.walk links here front = .error e) (back : List (List Char)) :
    tree.walk links here (front ++ back) = .error e := by
  induction links, here, front using walk_induction tree with
  | nil links here =>
      cases hnode : tree.node? here with
      | some found => simp [walk_nil hnode] at h
      | none =>
          rw [walk_of_node?_none hnode] at h ⊢
          exact h
  | cons links here piece rest ih =>
      rw [walk_cons, bind_eq_error_iff] at h
      rw [List.cons_append, walk_cons]
      rcases h with h | ⟨t, ht, h⟩
      · rw [h]
        rfl
      · rw [ht, ← ih t ht h, List.append_assoc]
        rfl

/-! ### Going on -/

section Onward

variable {children : List (FileName × Node)} {piece : List Char} {rest : List (List Char)}

theorem walk_of_not_directory {node : Node} (hnode : tree.node? here = some node)
    (h : ∀ children, node ≠ .directory children) :
    tree.walk links here (piece :: rest) = .error .notDirectory := by
  cases node with
  | directory children => exact absurd rfl (h children)
  | link target => simp [walk_cons, turn, hnode, bind, Except.bind]
  | file file => simp [walk_cons, turn, hnode, bind, Except.bind]

theorem walk_of_stay (hnode : tree.node? here = some (.directory children))
    (hmove : Move.ofPiece piece = .stay) :
    tree.walk links here (piece :: rest) = tree.walk links here rest := by
  simp [walk_cons, turn, hnode, hmove, bind, Except.bind]

/-- A name is entered, and there is what has the name, unless that is a link. -/
theorem walk_of_enter {name : FileName} {child : Node}
    (hnode : tree.node? here = some (.directory children))
    (hmove : Move.ofPiece piece = .enter name) (hchild : children.lookup name = some child)
    (hshort : Text.byteCount name.chars ≤ nameLimit) (hlink : ∀ target, child ≠ .link target) :
    tree.walk links here [piece] = .ok (name :: here, child) := by
  have hinside : tree.node? (name :: here) = some child := by
    rw [node?_cons, hnode]
    exact hchild
  have hlong : ¬ nameLimit < Text.byteCount name.chars := Nat.not_lt.2 hshort
  cases child with
  | link target => exact absurd rfl (hlink target)
  | file file =>
      simp [walk_cons, walk_nil hinside, turn, hnode, hmove, hlong, hchild, bind, Except.bind]
  | directory below =>
      simp [walk_cons, walk_nil hinside, turn, hnode, hmove, hlong, hchild, bind, Except.bind]

/-- A way through a piece that is no step of its own leads through the entry of that name. -/
theorem exists_of_walk_cons {there : Location} {below : Node}
    (hnode : tree.node? here = some (.directory children))
    (hstay : Move.ofPiece piece ≠ .stay) (hup : Move.ofPiece piece ≠ .up)
    (h : tree.walk links here (piece :: rest) = .ok (there, below)) :
    ∃ name child, Move.ofPiece piece = .enter name ∧ children.lookup name = some child ∧
      Text.byteCount name.chars ≤ nameLimit := by
  rw [walk_cons, bind_eq_ok_iff] at h
  obtain ⟨t, ht, -⟩ := h
  cases hmove : Move.ofPiece piece with
  | stay => exact absurd hmove hstay
  | up => exact absurd hmove hup
  | refused => simp [turn, hnode, hmove] at ht
  | enter name =>
      by_cases hlong : nameLimit < Text.byteCount name.chars
      · simp [turn, hnode, hmove, hlong] at ht
      cases hchild : children.lookup name with
      | none => simp [turn, hnode, hmove, hlong, hchild] at ht
      | some child => exact ⟨name, child, rfl, hchild, Nat.not_lt.1 hlong⟩

end Onward

end ExtensionPlan.Tree
