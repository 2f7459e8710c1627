import ExtensionPlan.Proofs.Path.Seen
import ExtensionPlan.Proofs.World.Location

/-!
# ExtensionPlan.Proofs.World.Seen

**What is seen from the root is the same thing.** Two paths agree if the second is the first one as
it is seen from the root and both lead to the same (`World.Agree`). A path and what it is seen as
need not agree by themselves, since one of them may be too long to be looked up, or end in a
separator behind a file. Once the same is put behind both they do agree, as long as they are not too
long (`World.agree_join`).
-/

namespace ExtensionPlan

/-! ### Searches in related lists -/

theorem rel_imp {α β : Type} {R S : α → β → Prop} (h : ∀ x y, R x y → S x y) {a : Option α}
    {b : Option β} (hab : Option.Rel R a b) : Option.Rel S a b := by
  cases hab with
  | none => exact .none
  | some hxy => exact .some (h _ _ hxy)

theorem eq_none_of_rel {α β : Type} {R : α → β → Prop} {b : Option β}
    (h : Option.Rel R none b) : b = none := by
  cases h
  rfl

theorem exists_of_rel {α β : Type} {R : α → β → Prop} {x : α} {b : Option β}
    (h : Option.Rel R (some x) b) : ∃ y, b = some y ∧ R x y := by
  cases h with
  | some hxy => exact ⟨_, rfl, hxy⟩

theorem rel_or {α β : Type} {R : α → β → Prop} {a a' : Option α} {b b' : Option β}
    (h : Option.Rel R a b) (h' : Option.Rel R a' b') : Option.Rel R (a.or a') (b.or b') := by
  cases h with
  | none => exact h'
  | some hxy => exact .some hxy

theorem rel_findSome? {α β γ δ : Type} {R : γ → δ → Prop} {f : α → Option γ} {g : β → Option δ}
    {xs : List α} {ys : List β} (h : List.Forall₂ (fun x y => Option.Rel R (f x) (g y)) xs ys) :
    Option.Rel R (xs.findSome? f) (ys.findSome? g) := by
  induction h with
  | nil => exact .none
  | @cons x y xs ys hfirst _ ih =>
      rw [List.findSome?_cons, List.findSome?_cons]
      cases hx : f x with
      | none =>
          cases hy : g y with
          | none => exact ih
          | some d =>
              rw [hx, hy] at hfirst
              cases hfirst
      | some c =>
          cases hy : g y with
          | none =>
              rw [hx, hy] at hfirst
              cases hfirst
          | some d =>
              rw [hx, hy] at hfirst
              exact hfirst

theorem rel_find? {α β : Type} {R : α → β → Prop} {f : α → Bool} {g : β → Bool} {xs : List α}
    {ys : List β} (h : List.Forall₂ R xs ys) (hsame : ∀ x y, R x y → f x = g y) :
    Option.Rel R (xs.find? f) (ys.find? g) := by
  induction h with
  | nil => exact .none
  | @cons x y xs ys hfirst _ ih =>
      rw [List.find?_cons, List.find?_cons, hsame x y hfirst]
      cases g y with
      | false => exact ih
      | true => exact .some hfirst

theorem forall₂_imp_of_mem {α β : Type} {R S : α → β → Prop} {xs : List α} {ys : List β}
    (h : List.Forall₂ R xs ys) (himp : ∀ x ∈ xs, ∀ y ∈ ys, R x y → S x y) :
    List.Forall₂ S xs ys := by
  induction h with
  | nil => exact .nil
  | @cons x y xs ys hxy _ ih =>
      refine .cons (himp x List.mem_cons_self y List.mem_cons_self hxy) (ih ?_)
      exact fun x' hx y' hy =>
        himp x' (List.mem_cons_of_mem x hx) y' (List.mem_cons_of_mem y hy)

theorem rel_bind {α β γ δ : Type} {R : α → β → Prop} {S : γ → δ → Prop} {a : Option α}
    {b : Option β} {f : α → Option γ} {g : β → Option δ} (h : Option.Rel R a b)
    (hnext : ∀ x y, R x y → Option.Rel S (f x) (g y)) : Option.Rel S (a.bind f) (b.bind g) := by
  cases h with
  | none => exact .none
  | some hxy => exact hnext _ _ hxy

theorem toOption_bind {ε α β : Type} (x : Except ε α) (f : α → Except ε β) :
    (x >>= f).toOption = x.toOption.bind fun a => (f a).toOption := by
  cases x <;> rfl

theorem toOption_map {ε α β : Type} (x : Except ε α) (f : α → β) :
    (x.map f).toOption = x.toOption.map f := by
  cases x <;> rfl

/-- Results of one element after the other are related if those of each element are. -/
theorem rel_mapM {ε α β γ : Type} {R : β → γ → Prop} {f : α → Except ε β} {g : α → Except ε γ}
    {xs : List α} (h : ∀ x ∈ xs, Option.Rel R (f x).toOption (g x).toOption) :
    Option.Rel (List.Forall₂ R) (xs.mapM f).toOption (xs.mapM g).toOption := by
  induction xs with
  | nil => exact .some .nil
  | cons x xs ih =>
      have hrest := ih fun other hother => h other (List.mem_cons_of_mem x hother)
      rw [List.mapM_cons, List.mapM_cons, toOption_bind, toOption_bind]
      refine rel_bind (h x List.mem_cons_self) fun b c hbc => ?_
      rw [toOption_bind, toOption_bind]
      exact rel_bind hrest fun bs cs hbcs => .some (.cons hbc hbcs)

namespace World

variable {w : World} {cwd p q : Path}

/-- What is a regular file takes a step. -/
theorem steps_ne_nil_of_isFile (h : w.isFile p = true) : p.steps ≠ [] := by
  intro hnone
  obtain ⟨file, hfile⟩ := isFile_iff.1 h
  obtain ⟨-, hwalk⟩ := find_eq_ok_iff.1 hfile
  obtain ⟨front, last, hpieces⟩ :=
    (List.eq_nil_or_concat' (Tree.piecesOf p)).resolve_left (Text.pieces_ne_nil _ _)
  have hlast : last ∈ Tree.piecesOf p := by simp [hpieces]
  have hidle := Component.ofPiece?_eq_none_iff.1 (List.filterMap_eq_nil_iff.1 hnone last hlast)
  rw [hpieces] at hwalk
  obtain ⟨children, hfront⟩ := exists_directory_of_walk hwalk
  rw [walk_idle_of_directory hfront hidle, List.append_nil, hfront] at hwalk
  cases hwalk

/-! ### Paths that agree -/

/-- The second path is the first one as it is seen from the root, and they lead to the same. -/
structure Agree (w : World) (cwd p q : Path) : Prop where
  seen : Path.IsSeenAs cwd p q
  leads : ∀ node, w.find p = .ok node ↔ w.find q = .ok node

namespace Agree

theorem isFile_eq (h : w.Agree cwd p q) : w.isFile p = w.isFile q := by
  rw [Bool.eq_iff_iff, isFile_iff, isFile_iff]
  exact exists_congr fun file => h.leads _

theorem isDirectory_eq (h : w.Agree cwd p q) : w.isDirectory p = w.isDirectory q := by
  rw [Bool.eq_iff_iff, isDirectory_iff, isDirectory_iff]
  exact exists_congr fun children => h.leads _

theorem hasEntry_iff_hasEntry (h : w.Agree cwd p q) (name : FileName) :
    w.HasEntry p name ↔ w.HasEntry q name := by
  rw [hasEntry_iff, hasEntry_iff]
  exact exists_congr fun children => and_congr_left fun _ => h.leads _

/-- If they lead to something, then the same is read from them. -/
theorem readText_eq (h : w.Agree cwd p q) {node : Node} (hnode : w.find p = .ok node) :
    w.readText p = w.readText q := by
  rw [readText, readText, hnode, (h.leads node).1 hnode]

end Agree

/-! ### Looking up what is seen from the root -/

section Seen

variable (hcwd : w.currentDirectory = .ok cwd) (h : Path.IsSeenAs cwd p q)

include hcwd h

/-- Before any further piece the steps of a path lead where those of the path lead that it is seen
as: there is no link on the way to the working directory. -/
theorem walk_of_isSeenAs
    (hshort : ∀ name ∈ w.here.location, Text.byteCount name.chars ≤ Tree.nameLimit) {links : ℕ}
    {back : List (List Char)} :
    w.tree.walk links (Tree.startOf w.here.location p) (Tree.spelled p.steps ++ back) =
      w.tree.walk links (Tree.startOf w.here.location q) (Tree.spelled q.steps ++ back) := by
  obtain ⟨habsolute, hsteps⟩ :=
    (Path.isSeenAs_iff (isAbsolute_of_currentDirectory hcwd)).1 h
  obtain ⟨-, hhere, rfl⟩ := currentDirectory_eq_ok_iff.1 hcwd
  rw [hsteps, Tree.startOf, Tree.startOf, habsolute, if_pos rfl]
  split
  · rfl
  · rw [steps_path, Tree.spelled_append, spelled_stepsTo, List.append_assoc]
    exact (Tree.walk_location hhere hshort _).symm

/-- The mark of an end is in a path if it is in the path that this one is seen as: there is none on
the way to the working directory. -/
theorem nul_mem_iff_of_isSeenAs : '\x00' ∈ p.chars ↔ '\x00' ∈ q.chars := by
  obtain ⟨-, hsteps⟩ := (Path.isSeenAs_iff (isAbsolute_of_currentDirectory hcwd)).1 h
  obtain ⟨-, -, rfl⟩ := currentDirectory_eq_ok_iff.1 hcwd
  have hway : ∀ step ∈ (if p.isAbsolute then [] else w.here.location.path.steps),
      '\x00' ∉ step.path.chars := by
    intro step hstep
    split at hstep
    · cases hstep
    · rw [steps_path, stepsTo] at hstep
      obtain ⟨name, -, rfl⟩ := List.mem_map.1 hstep
      intro hmarked
      have plain := name.plain
      simp only [isPlainName, Bool.and_eq_true, List.all_eq_true, bne_iff_ne] at plain
      exact (plain.2 _ hmarked).2 rfl
  rw [Path.mem_chars_iff (by decide) (by decide), Path.mem_chars_iff (by decide) (by decide),
    hsteps]
  simp only [List.mem_append, or_and_right, exists_or]
  constructor
  · exact Or.inr
  · intro hmarked
    rcases hmarked with ⟨step, hstep, hmarked⟩ | hmarked
    · exact absurd hmarked (hway step hstep)
    · exact hmarked

section Short

variable (hshort : ∀ name ∈ w.here.location, Text.byteCount name.chars ≤ Tree.nameLimit) {x : Path}

include hshort

/-- Put behind a path, anything that is not seen from the root leads where it leads behind the path
that this one is seen as. -/
theorem walk_join_of_isSeenAs (hx : x.isAbsolute = false) :
    w.walk (p.join x) (Tree.piecesOf (p.join x)) =
      w.walk (q.join x) (Tree.piecesOf (q.join x)) := by
  have hlocated : ∀ path : Path, w.IsLocated path := fun path =>
    Or.inr (currentDirectory_eq_ok_iff.1 hcwd).1
  have hsteps : ∀ path : Path,
      w.tree.walk Tree.linkLimit (Tree.startOf w.here.location (path.join x))
          (Tree.piecesOf (path.join x)) =
        w.tree.walk Tree.linkLimit (Tree.startOf w.here.location path)
          (Tree.spelled path.steps ++ Tree.piecesOf x) := by
    intro path
    have hstart : Tree.startOf w.here.location (path.join x) =
        Tree.startOf w.here.location path := by
      rw [Tree.startOf, Tree.startOf, Path.isAbsolute_join_iff, hx, Bool.false_or]
    rw [hstart, ← List.append_nil (Tree.piecesOf x), ← Tree.walk_join hx path [], List.append_nil]
  rw [walk_of_isLocated (hlocated _), walk_of_isLocated (hlocated _), hsteps, hsteps,
    walk_of_isSeenAs hcwd h hshort]

/-- **The same put behind both.** A path and what it is seen as agree once the same is put behind
both, unless that is spelled by nothing or by too much. -/
theorem agree_join (hfilled : (p.join x).chars ≠ [])
    (hp : Text.byteCount (p.join x).chars ≤ pathLimit)
    (hq : Text.byteCount (q.join x).chars ≤ pathLimit) : w.Agree cwd (p.join x) (q.join x) := by
  have habsolute := isAbsolute_of_currentDirectory hcwd
  have hseen := h.join habsolute x
  refine ⟨hseen, fun node => ?_⟩
  by_cases hx : x.isAbsolute = true
  · -- then it takes the place of both
    rw [Path.join, Path.join, if_pos hx, if_pos hx]
  · have hnul := nul_mem_iff_of_isSeenAs hcwd hseen
    have hspellable : IsSpellable (p.join x) ↔ IsSpellable (q.join x) := by
      constructor
      · intro hspelled
        have hqAbsolute := ((Path.isSeenAs_iff habsolute).1 hseen).1
        exact ⟨fun hmarked => hspelled.unmarked (hnul.2 hmarked),
          Path.filled_of_isAbsolute hqAbsolute, hq⟩
      · intro hspelled
        exact ⟨fun hmarked => hspelled.unmarked (hnul.1 hmarked), hfilled, hp⟩
    rw [find_eq_ok_iff, find_eq_ok_iff, hspellable,
      walk_join_of_isSeenAs hcwd h hshort (Bool.not_eq_true _ ▸ hx)]

end Short

end Seen

end World

end ExtensionPlan
