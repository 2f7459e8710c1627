import ExtensionPlan.Glob.Search
import ExtensionPlan.Proofs.Path.Order
import ExtensionPlan.Proofs.Tree.Enumeration
import ExtensionPlan.Proofs.World.Walk
import Mathlib.Data.List.Nodup

/-!
# ExtensionPlan.Proofs.Glob.Enumeration

**The order in which a system lists directories.** A search puts the entries of a directory in the
order of their names, so the order in which they were listed is forgotten
(`World.SameFiles.listing_eq`). Everything else is looked up by its path, and what that leads to
does not depend on the order either (`World.SameFiles.find_eq`). So in surroundings with the same
files a search finds the same, one after the other (`World.SameFiles.glob_eq`).
-/

namespace ExtensionPlan

/-- If two results are equal once they are mapped then both failed alike, or both did not. -/
theorem except_map_eq_map_cases {ε α β : Type} {f : α → β} {a b : Except ε α}
    (h : a.map f = b.map f) :
    (∃ e, a = .error e ∧ b = .error e) ∨ ∃ x y, a = .ok x ∧ b = .ok y ∧ f x = f y := by
  cases a with
  | error e => exact Or.inl ⟨e, rfl, map_eq_error_iff.1 h.symm⟩
  | ok x =>
      obtain ⟨y, hy, hsame⟩ := map_eq_ok_iff.1 h.symm
      exact Or.inr ⟨x, y, rfl, hy, hsame.symm⟩

/-! ### What a directory lists -/

/-- If no two nodes have one name then a name finds the node that has it. -/
theorem Node.mem_iff_lookup {children : List (FileName × Node)}
    (hnodup : (children.map (·.1)).Nodup) {name : FileName} {child : Node} :
    (name, child) ∈ children ↔ children.lookup name = some child := by
  refine ⟨fun hmem => ?_, Node.mem_of_lookup⟩
  obtain ⟨before, after, rfl⟩ := List.append_of_mem hmem
  refine List.lookup_eq_some_iff.2 ⟨before, after, rfl, fun other hother => ?_⟩
  rw [List.map_append, List.map_cons, List.nodup_append] at hnodup
  have hne := hnodup.2.2 other.1 (List.mem_map_of_mem hother) name List.mem_cons_self
  simpa using Ne.symm hne

/-- What a directory lists is what is found by one name. -/
theorem Node.mem_entries_iff {children : List (FileName × Node)}
    (hnodup : (children.map (·.1)).Nodup) {name : FileName} {entry : Entry} :
    (name, entry) ∈ (children.map fun child => (child.1, child.2.entry)) ↔
      (Node.directory children).contents [name] = some entry := by
  rw [Node.contents_singleton, Option.map_eq_some_iff, List.mem_map]
  constructor
  · rintro ⟨⟨name, child⟩, hmem, heq⟩
    cases heq
    exact ⟨child, (Node.mem_iff_lookup hnodup).1 hmem, rfl⟩
  · rintro ⟨child, hchild, rfl⟩
    exact ⟨(name, child), Node.mem_of_lookup hchild, rfl⟩

theorem Node.map_fst_entries (children : List (FileName × Node)) :
    (children.map fun child => (child.1, child.2.entry)).map (·.1) = children.map (·.1) := by
  rw [List.map_map]
  rfl

/-- Directories with the same below them list the same, in some order. -/
theorem Node.perm_entries {children children' : List (FileName × Node)}
    (hnodup : (children.map (·.1)).Nodup) (hnodup' : (children'.map (·.1)).Nodup)
    (h : (Node.directory children).contents = (Node.directory children').contents) :
    (children.map fun child => (child.1, child.2.entry)).Perm
      (children'.map fun child => (child.1, child.2.entry)) := by
  refine (List.perm_ext_iff_of_nodup ?_ ?_).2 fun entry => ?_
  · exact List.Nodup.of_map (·.1) (Node.map_fst_entries children ▸ hnodup)
  · exact List.Nodup.of_map (·.1) (Node.map_fst_entries children' ▸ hnodup')
  · rw [Node.mem_entries_iff hnodup, Node.mem_entries_iff hnodup', h]

/-! ### Lists in order -/

/-- Two lists of the same elements are equal once they are in order, if of two different elements
one is above the other. -/
theorem Sorted.ofList_eq_of_perm {α : Type} {le : α → α → Bool} {xs ys : List α}
    (trans : ∀ a b c, le a b → le b c → le a c) (total : ∀ a b, le a b || le b a)
    (antisymm : ∀ a ∈ xs, ∀ b ∈ xs, le a b → le b a → a = b) (h : xs.Perm ys) :
    Sorted.ofList le xs = Sorted.ofList le ys := by
  have hperm : (Sorted.ofList le xs).Perm (Sorted.ofList le ys) :=
    (Sorted.ofList_perm xs).trans (h.trans (Sorted.ofList_perm ys).symm)
  refine hperm.eq_of_pairwise (fun a b ha hb => ?_) (Sorted.pairwise_ofList trans total xs)
    (Sorted.pairwise_ofList trans total ys)
  exact antisymm a (Sorted.mem_ofList.1 ha) b (h.mem_iff.2 (Sorted.mem_ofList.1 hb))

namespace World

open Glob

variable {w w' : World}

/-! ### Names in order -/

theorem nameLe_trans (a b c : FileName) (hab : nameLe a b) (hbc : nameLe b c) : nameLe a c :=
  Path.keyLe_trans _ _ _ hab hbc

theorem nameLe_total (a b : FileName) : nameLe a b || nameLe b a :=
  Sorted.dictionaryLe_total Path.natLe_total _ _

theorem nameLe_antisymm {a b : FileName} (hab : nameLe a b) (hba : nameLe b a) : a = b :=
  FileName.chars_injective (Text.map_toNat_injective (Path.keyLe_antisymm _ _ hab hba))

/-! ### The same files -/

/-- There is the same at every location, and relative paths are seen from the same directory. -/
structure SameFiles (w w' : World) : Prop where
  tree : w.tree.HoldsSame w'.tree
  here : w.here = w'.here

namespace SameFiles

variable (h : w.SameFiles w')

include h

theorem walkFrom_eq (around : Location) (removed : Nat) (pieces : List (List Char)) :
    (walkFrom w.tree around removed pieces).map Node.contents =
      (walkFrom w'.tree around removed pieces).map Node.contents := by
  have hzero : ∀ pieces, (walkFrom w.tree around 0 pieces).map Node.contents =
      (walkFrom w'.tree around 0 pieces).map Node.contents := by
    intro pieces
    have hmap : ∀ found : Except SystemError (Location × Node),
        (found.map (·.2)).map Node.contents = found.map fun found => found.2.contents := by
      intro found
      cases found <;> rfl
    rw [walkFrom, walkFrom, hmap, hmap, h.tree.walk_eq]
  induction pieces generalizing removed with
  | nil =>
      cases removed with
      | zero => exact hzero []
      | succ removed => rfl
  | cons piece rest ih =>
      cases removed with
      | zero => exact hzero (piece :: rest)
      | succ removed =>
          rw [walkFrom, walkFrom]
          cases Tree.Move.ofPiece piece with
          | stay => exact ih (removed + 1)
          | up => exact ih removed
          | enter name => rfl
          | refused => rfl

theorem walk_eq (p : Path) (pieces : List (List Char)) :
    (w.walk p pieces).map Node.contents = (w'.walk p pieces).map Node.contents := by
  rw [walk, walk, ← h.here]
  split
  · exact h.walkFrom_eq _ _ pieces
  · exact h.walkFrom_eq _ _ pieces

/-- **A path leads to the same.** -/
theorem find_eq (p : Path) :
    (w.find p).map Node.contents = (w'.find p).map Node.contents := by
  unfold find
  split
  · rfl
  · split
    · rfl
    · split
      · rfl
      · exact h.walk_eq p _

/-- Either it leads nowhere, or to nodes with the same below them. -/
theorem find_cases (p : Path) :
    (∃ e, w.find p = .error e ∧ w'.find p = .error e) ∨
      ∃ node node', w.find p = .ok node ∧ w'.find p = .ok node' ∧
        node.contents = node'.contents :=
  except_map_eq_map_cases (h.find_eq p)

theorem isFile_eq (p : Path) : w.isFile p = w'.isFile p := by
  rw [isFile, isFile]
  rcases h.find_cases p with ⟨e, hthis, hthat⟩ | ⟨node, node', hthis, hthat, hsame⟩
  · rw [hthis, hthat]
  · rw [hthis, hthat]
    have hkind := Node.entry_eq_of_contents hsame
    cases node <;> cases node' <;> first | rfl | cases hkind

theorem isDirectory_eq (p : Path) : w.isDirectory p = w'.isDirectory p := by
  rw [isDirectory, isDirectory]
  rcases h.find_cases p with ⟨e, hthis, hthat⟩ | ⟨node, node', hthis, hthat, hsame⟩
  · rw [hthis, hthat]
  · rw [hthis, hthat]
    have hkind := Node.entry_eq_of_contents hsame
    cases node <;> cases node' <;> first | rfl | cases hkind

theorem isFound_eq (p : Path) : w.isFound p = w'.isFound p := by
  rw [isFound, isFound]
  rcases h.find_cases p with ⟨e, hthis, hthat⟩ | ⟨node, node', hthis, hthat, -⟩
  · rw [hthis, hthat]
  · rw [hthis, hthat]

theorem isLink_eq (p : Path) : w.isLink p = w'.isLink p := by
  unfold isLink
  split
  · rfl
  · dsimp only
    rcases except_map_eq_map_cases (h.walk_eq p (Tree.piecesOf p).dropLast) with
      ⟨e, hthis, hthat⟩ | ⟨around, around', hthis, hthat, hsame⟩
    · rw [hthis, hthat]
    · rw [hthis, hthat]
      cases (Tree.piecesOf p).getLast?.map Tree.Move.ofPiece with
      | none => rfl
      | some move =>
          cases move with
          | stay => rfl
          | up => rfl
          | refused => rfl
          | enter name =>
              have hnamed := congrFun hsame [name]
              rw [Node.contents_singleton, Node.contents_singleton] at hnamed
              dsimp only
              rcases map_eq_map_cases hnamed with
                ⟨hone, htwo⟩ | ⟨child, child', hone, htwo, hkind⟩
              · rw [hone, htwo]
              · rw [hone, htwo]
                cases child <;> cases child' <;> first | rfl | cases hkind

theorem isPresent_eq (p : Path) : w.isPresent p = w'.isPresent p := by
  rw [isPresent, isPresent, h.isFound_eq, h.isLink_eq]

/-! ### Listings -/

theorem reach_eq (p : Path) : w.reach p = w'.reach p := by
  rw [reach, reach, h.isDirectory_eq]

theorem reachEntry_eq (p : Path) (entry : Entry) :
    w.reachEntry p entry = w'.reachEntry p entry := by
  cases entry with
  | directory => rfl
  | file file => rfl
  | link target => exact h.reach_eq p

/-- The entries of a directory come in another order, if they come. -/
theorem entriesIn_cases (p : Path) :
    (∃ e, w.entriesIn p = .error e ∧ w'.entriesIn p = .error e) ∨
      ∃ entries entries', w.entriesIn p = .ok entries ∧ w'.entriesIn p = .ok entries' ∧
        (entries.map (·.1)).Nodup ∧ entries.Perm entries' := by
  unfold entriesIn
  rcases h.find_cases p with ⟨e, hthis, hthat⟩ | ⟨node, node', hthis, hthat, hsame⟩
  · rw [hthis, hthat]
    exact Or.inl ⟨e, rfl, rfl⟩
  · have hkind := Node.entry_eq_of_contents hsame
    cases node with
    | link target =>
        cases node' <;> cases hkind
        rw [hthis, hthat]
        exact Or.inl ⟨.notDirectory, rfl, rfl⟩
    | file file =>
        cases node' <;> cases hkind
        rw [hthis, hthat]
        exact Or.inl ⟨.notDirectory, rfl, rfl⟩
    | directory children =>
        cases node' with
        | link target => cases hkind
        | file file => cases hkind
        | directory children' =>
            have hnodup := nodup_of_walk (find_eq_ok_iff.1 hthis).2
            have hnodup' := nodup_of_walk (find_eq_ok_iff.1 hthat).2
            rw [hthis, hthat]
            exact Or.inr ⟨_, _, rfl, rfl, Node.map_fst_entries children ▸ hnodup,
              Node.perm_entries hnodup hnodup' hsame⟩

/-- **The listing is the same.** -/
theorem listing_eq (p : Path) : w.listing p = w'.listing p := by
  rw [listing, listing]
  rcases h.entriesIn_cases p with
    ⟨e, hthis, hthat⟩ | ⟨entries, entries', hthis, hthat, hnodup, hperm⟩
  · rw [hthis, hthat]
  · rw [hthis, hthat]
    dsimp only
    have hsorted : Sorted.ofList (fun a b => nameLe a.1 b.1) entries =
        Sorted.ofList (fun a b => nameLe a.1 b.1) entries' := by
      refine Sorted.ofList_eq_of_perm (fun a b c => nameLe_trans a.1 b.1 c.1)
        (fun a b => nameLe_total a.1 b.1) (fun a ha b hb hab hba => ?_) hperm
      -- entries with one name are one entry
      exact List.inj_on_of_nodup_map hnodup ha hb (nameLe_antisymm hab hba)
    simp only [hsorted, h.reachEntry_eq]

theorem below_eq (depth : Nat) (r : Reached) : w.below depth r = w'.below depth r := by
  induction depth generalizing r with
  | zero => rfl
  | succ depth ih =>
      rw [below, below, h.listing_eq]
      simp only [ih]

/-! ### Searches -/

/-- Every component leads to the same paths, in the same order. -/
theorem expand_eq (directoriesOnly : Bool) : ∀ (segments : List Segment) (r : Reached),
    w.expand directoriesOnly segments r = w'.expand directoriesOnly segments r
  | [], r => by rw [expand, expand]
  | .literal name :: rest, r => by
      rw [expand, expand, h.isPresent_eq, h.reach_eq, expand_eq directoriesOnly rest]
  | .wild tokens :: rest, r => by
      simp only [expand, h.listing_eq, h.reach_eq, expand_eq directoriesOnly rest]
  | [.everywhere], r => by rw [expand, expand, h.below_eq]
  | .everywhere :: segment :: rest, r => by
      simp only [expand, h.below_eq, expand_eq directoriesOnly rest]

/-- **A search finds the same.** -/
theorem glob_eq (pattern : List Char) : w.glob pattern = w'.glob pattern := by
  unfold glob
  simp only [h.expand_eq, h.reach_eq]

end SameFiles

end World

end ExtensionPlan
