import ExtensionPlan.Proofs.Path.Steps

/-!
# ExtensionPlan.Proofs.Path.Resolved

**Seen from the root for good.** A path that is seen from the root is spelled as its steps behind a
root of one separator or two, with one separator between each two steps and perhaps one at the end
(`Path.IsResolved`). A path that is spelled so already is left as it is, whatever the working
directory (`Path.absoluteFrom_of_isResolved`). How many separators there are at the start and
whether there is one at the end can be read off the spelling, since steps are spelled without any
(`Path.IsResolved.exists_root`).
-/

namespace ExtensionPlan.Path

variable {p q root cwd : Path} {steps : List Component}

/-- A path with nothing but the separators from which others start. -/
def IsRoot (root : Path) : Prop := root = ⟨['/']⟩ ∨ root = ⟨['/', '/']⟩

/-- The path is spelled as its steps behind a root, closed by a separator or not. -/
def IsResolved (p : Path) : Prop :=
  ∃ root, IsRoot root ∧ (p = follow root p.steps ∨ p = (follow root p.steps).join ⟨[]⟩)

/-! ### The spelling of steps -/

/-- The steps are spelled by text without separators. -/
def AreSpelled (steps : List Component) : Prop :=
  ∀ step ∈ steps, step.path.chars ≠ [] ∧ '/' ∉ step.path.chars

theorem areSpelled_steps (p : Path) : AreSpelled p.steps := by
  intro step hstep
  obtain ⟨piece, hpiece, hmeaning⟩ := mem_steps_iff.1 hstep
  rw [(Component.isStep_of_ofPiece? hmeaning).2]
  constructor
  · rintro rfl
    cases hmeaning
  · intro hslash
    simpa using Text.not_isSeparator_of_mem_pieces hpiece '/' hslash

/-- A path that does not start at the root is put behind a separator, if there is none yet. -/
theorem chars_join (filled : p.chars ≠ []) (hq : q.isAbsolute = false) : (p.join q).chars =
    p.chars ++ ((if p.chars.getLast? = some '/' then [] else ['/']) ++ q.chars) := by
  have hfilled : p.isEmpty = false := by simpa [isEmpty] using filled
  by_cases hlast : p.chars.getLast? = some '/'
  · simp [join, hq, hlast]
  · simp [join, hq, hfilled, hlast]

/-- A path that ends with a step is not closed. -/
theorem getLast?_join (hp : p.chars ≠ []) (hq : q.chars ≠ []) (whole : '/' ∉ q.chars) :
    (p.join q).chars.getLast? ≠ some '/' := by
  rw [chars_join hp (not_isAbsolute_of_whole whole), ← List.append_assoc,
    List.getLast?_append_of_ne_nil _ hq]
  exact fun hslash => whole (List.mem_of_getLast? hslash)

theorem IsRoot.isAbsolute (h : IsRoot root) : root.isAbsolute = true := by
  rcases h with rfl | rfl <;> rfl

theorem IsRoot.filled (h : IsRoot root) : root.chars ≠ [] := filled_of_isAbsolute h.isAbsolute

theorem IsRoot.getLast? (h : IsRoot root) : root.chars.getLast? = some '/' := by
  rcases h with rfl | rfl <;> rfl

/-- Behind a path that is not closed, each step has a separator of its own. -/
theorem chars_follow (filled : p.chars ≠ []) (hlast : p.chars.getLast? ≠ some '/')
    (h : AreSpelled steps) :
    (follow p steps).chars = p.chars ++ steps.flatMap fun step => '/' :: step.path.chars := by
  induction steps generalizing p with
  | nil => exact (List.append_nil _).symm
  | cons step steps ih =>
      obtain ⟨hstep, whole⟩ := h step List.mem_cons_self
      have hjoin := chars_join filled (not_isAbsolute_of_whole whole)
      rw [if_neg hlast] at hjoin
      have hrest := ih (by rw [hjoin]; exact List.append_ne_nil_of_left_ne_nil filled _)
        (getLast?_join filled hstep whole) fun other hother =>
          h other (List.mem_cons_of_mem step hother)
      rw [follow, List.foldl_cons, ← follow, hrest, hjoin, List.append_assoc]
      rfl

/-- Behind a root, the first step has none. -/
theorem chars_follow_root (hroot : IsRoot root) {step : Component}
    (h : AreSpelled (step :: steps)) : (follow root (step :: steps)).chars =
      root.chars ++ (step.path.chars ++ steps.flatMap fun step => '/' :: step.path.chars) := by
  obtain ⟨hstep, whole⟩ := h step List.mem_cons_self
  have hjoin := chars_join hroot.filled (not_isAbsolute_of_whole whole)
  rw [if_pos hroot.getLast?, List.nil_append] at hjoin
  have hrest := chars_follow (filled_of_isAbsolute (isAbsolute_join hroot.isAbsolute step.path))
    (getLast?_join hroot.filled hstep whole) fun other hother =>
      h other (List.mem_cons_of_mem step hother)
  rw [follow, List.foldl_cons, ← follow, hrest, hjoin, List.append_assoc]

/-- Behind a root, steps do not begin with one more separator. -/
theorem exists_chars_follow (hroot : IsRoot root) (h : AreSpelled steps) :
    ∃ tail, (follow root steps).chars = root.chars ++ tail ∧ tail.head? ≠ some '/' := by
  cases steps with
  | nil => exact ⟨[], (List.append_nil _).symm, by simp⟩
  | cons step steps =>
      obtain ⟨hstep, whole⟩ := h step List.mem_cons_self
      refine ⟨_, chars_follow_root hroot h, ?_⟩
      rw [List.head?_append_of_ne_nil _ hstep]
      exact fun hslash => whole (List.mem_of_head? hslash)

/-! ### Seen from the root -/

/-- Steps behind a root, with a separator at the end or without, do not begin with one more. -/
theorem IsResolved.exists_root (h : p.IsResolved) : ∃ root tail, IsRoot root ∧
    p.chars = root.chars ++ tail ∧ tail.head? ≠ some '/' ∧
    p = if p.chars.getLast? = some '/' then (follow root p.steps).join ⟨[]⟩
      else follow root p.steps := by
  obtain ⟨root, hroot, h⟩ := h
  obtain ⟨tail, htail, hhead⟩ := exists_chars_follow hroot (areSpelled_steps p)
  have hclosed := chars_join (q := ⟨[]⟩)
    (filled_of_isAbsolute (isAbsolute_follow hroot.isAbsolute p.steps)) rfl
  rw [List.append_nil] at hclosed
  rcases h with h | h
  · refine ⟨root, tail, hroot, by rw [← htail, ← h], hhead, ?_⟩
    split
    · next hlast =>
      -- the separator at the end is that of the root, and is not put there again
      rw [← h, if_pos hlast, List.append_nil] at hclosed
      rw [← h]
      exact (congrArg Path.mk hclosed).symm
    · exact h
  · rw [← h, htail, List.append_assoc] at hclosed
    refine ⟨root, _, hroot, hclosed, ?_, ?_⟩
    · cases tail with
      | nil =>
          rw [List.append_nil, if_pos hroot.getLast?]
          exact hhead
      | cons c tail => exact hhead
    · have hlast : p.chars.getLast? = some '/' := by
        rw [hclosed, ← List.append_assoc]
        split
        · next hlast => rwa [List.append_nil]
        · exact List.getLast?_concat
      rw [if_pos hlast]
      exact h

/-- The root of a path can be read off its first characters. -/
theorem root_eq (hroot : IsRoot root) {tail : List Char} (hchars : p.chars = root.chars ++ tail)
    (hhead : tail.head? ≠ some '/') : p.isAbsolute = true ∧
      (if p.chars.take 2 = ['/', '/'] ∧ p.chars.take 3 ≠ ['/', '/', '/'] then
        (⟨['/', '/']⟩ : Path) else ⟨['/']⟩) = root := by
  rw [isAbsolute, hchars]
  cases tail with
  | nil => rcases hroot with rfl | rfl <;> simp
  | cons c tail =>
      have hc : c ≠ '/' := by simpa using hhead
      rcases hroot with rfl | rfl <;> simp [hc]

/-- **What is seen from the root already** is not seen in another way. -/
theorem absoluteFrom_of_isResolved (h : p.IsResolved) (cwd : Path) : p.absoluteFrom cwd = p := by
  obtain ⟨root, tail, hroot, hchars, hhead, hspelled⟩ := h.exists_root
  obtain ⟨habsolute, hstart⟩ := root_eq hroot hchars hhead
  dsimp only [absoluteFrom]
  rw [filterMap_body, if_pos habsolute, hstart]
  exact hspelled.symm

/-- Steps that are followed from what is spelled behind a root are spelled behind it as well. -/
theorem follow_steps_follow {start : Path} (hstart : start = follow root start.steps) (p : Path) :
    follow start p.steps = follow root (follow start p.steps).steps := by
  rw [steps_follow (fun step hstep => steps_path hstep) start]
  conv_lhs => rw [hstart]
  exact (List.foldl_append ..).symm

/-- **A path seen from the root** is spelled so, if the working directory is. -/
theorem isResolved_absoluteFrom (p : Path) (hcwd : cwd = follow ⟨['/']⟩ cwd.steps) :
    (p.absoluteFrom cwd).IsResolved := by
  have hfollowed : ∀ start : Path, (∃ root, IsRoot root ∧ start = follow root start.steps) →
      (if p.chars.getLast? = some '/' then (follow start p.steps).join ⟨[]⟩
        else follow start p.steps).IsResolved := by
    rintro start ⟨root, hroot, hstart⟩
    have hsteps := follow_steps_follow hstart p
    refine ⟨root, hroot, ?_⟩
    split
    · have hclosed : ((follow start p.steps).join ⟨[]⟩).steps = (follow start p.steps).steps :=
        (steps_join _ _).trans (List.append_nil _)
      exact Or.inr (by rw [hclosed, ← hsteps])
    · exact Or.inl hsteps
  dsimp only [absoluteFrom]
  rw [filterMap_body]
  refine hfollowed _ ?_
  split
  · split
    · exact ⟨_, Or.inr rfl, rfl⟩
    · exact ⟨_, Or.inl rfl, rfl⟩
  · exact ⟨_, Or.inl rfl, hcwd⟩

end ExtensionPlan.Path
