import ExtensionPlan.Proofs.Tree.Walk

/-!
# ExtensionPlan.Proofs.Tree.Enumeration

**The order of the nodes in a directory.** A tree keeps the nodes of a directory in a row, as a
system gives them out one after the other when it is asked for them. Two trees that have the same at
every location (`Tree.HoldsSame`) may differ in these rows and in nothing else. A piece of a path
has the same turn in both (`Tree.HoldsSame.turn_eq`), so every walk comes to the same
(`Tree.HoldsSame.walk_eq`).
-/

namespace ExtensionPlan

/-! ### Equal images -/

theorem map_eq_map_cases {α β : Type} {f : α → β} {a b : Option α}
    (h : a.map f = b.map f) :
    (a = none ∧ b = none) ∨ ∃ x y, a = some x ∧ b = some y ∧ f x = f y := by
  cases a with
  | none =>
      cases b with
      | none => exact Or.inl ⟨rfl, rfl⟩
      | some y => cases h
  | some x =>
      cases b with
      | none => cases h
      | some y => exact Or.inr ⟨x, y, rfl, rfl, Option.some.inj h⟩

/-! ### What is below a node -/

namespace Node

/-- What is found from a node on by names, the outermost first. It does not tell in which order
directories are kept. -/
def contents (node : Node) (names : List FileName) : Option Entry := (node.at? names).map entry

theorem contents_nil (node : Node) : node.contents [] = some node.entry := rfl

theorem contents_singleton (node : Node) (name : FileName) :
    node.contents [name] = (node.child? name).map entry := by
  rw [contents, at?]
  cases node.child? name <;> rfl

/-- What is found by no name is what is there. -/
theorem entry_eq_of_contents {node other : Node} (h : node.contents = other.contents) :
    node.entry = other.entry := by
  have hnil := congrFun h []
  rwa [contents_nil, contents_nil, Option.some.injEq] at hnil

end Node

namespace Tree

variable {tree other : Tree} {here : Location} {links : Nat}

/-- Below a location is what is at the locations that go on from it. -/
theorem contents_of_node? {node : Node} (h : tree.node? here = some node) :
    node.contents = fun names => tree.get? (names.reverse ++ here) := by
  funext names
  rw [node?] at h
  rw [get?, node?, List.reverse_append, List.reverse_reverse, Node.at?_append, h]
  rfl

/-- Every directory holds the same in both trees, in whatever order. -/
def HoldsSame (tree other : Tree) : Prop := ∀ location, tree.get? location = other.get? location

namespace HoldsSame

variable (h : HoldsSame tree other)

include h

/-- A turn asks for one node and for one with a name in it. -/
theorem turn_eq (links : Nat) (here : Location) (piece : List Char) :
    tree.turn links here piece = other.turn links here piece := by
  have hchild := fun name => h (name :: here)
  unfold turn
  rcases map_eq_map_cases (h here) with ⟨hthis, hthat⟩ | ⟨node, node', hthis, hthat, hentry⟩
  · rw [hthis, hthat]
  · simp only [get?, node?_cons, hthis, hthat, Option.bind_some] at hchild ⊢
    cases node with
    | link target => cases node' <;> cases hentry; rfl
    | file file => cases node' <;> cases hentry; rfl
    | directory children =>
        cases node' with
        | link target => cases hentry
        | file file => cases hentry
        | directory children' =>
            cases hmove : Move.ofPiece piece with
            | stay => rfl
            | up => rfl
            | refused => rfl
            | enter name =>
                -- only what kind of node has the name matters
                have hnamed : (children.lookup name).map Node.entry =
                    (children'.lookup name).map Node.entry := hchild name
                dsimp only
                rcases map_eq_map_cases hnamed with
                  ⟨hone, htwo⟩ | ⟨child, child', hone, htwo, hkind⟩
                · rw [hone, htwo]
                · rw [hone, htwo]
                  cases child <;> cases child' <;> cases hkind <;> rfl

/-- **A walk comes to the same.** -/
theorem walk_eq (links : Nat) (here : Location) (pieces : List (List Char)) :
    (tree.walk links here pieces).map (fun found => found.2.contents) =
      (other.walk links here pieces).map fun found => found.2.contents := by
  induction links, here, pieces using walk_induction tree with
  | nil links here =>
      rcases map_eq_map_cases (h here) with ⟨hthis, hthat⟩ | ⟨node, node', hthis, hthat, -⟩
      · rw [walk_of_node?_none hthis, walk_of_node?_none hthat]
      · rw [walk_nil hthis, walk_nil hthat, Except.map, Except.map, contents_of_node? hthis,
          contents_of_node? hthat]
        exact congrArg Except.ok (funext fun names => h _)
  | cons links here piece rest ih =>
      rw [walk_cons, walk_cons, ← h.turn_eq]
      cases hturn : tree.turn links here piece with
      | error e => rfl
      | ok t => exact ih t hturn

end HoldsSame

end Tree

end ExtensionPlan
