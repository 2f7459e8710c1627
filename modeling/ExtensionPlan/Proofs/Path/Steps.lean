import ExtensionPlan.Proofs.Path.Ancestors
import ExtensionPlan.Proofs.Text.Lines

/-!
# ExtensionPlan.Proofs.Path.Steps

**A path as a row of steps.** What a path means is where it starts, and the steps that it takes from
there (`Path.components_eq`). The steps alone say how paths are put together: joining puts one row
behind the other (`Path.steps_join`), a path that is seen from a working directory takes the steps
to that directory first (`Path.steps_absoluteFrom`), and a path above leaves out the last ones
(`Path.steps_of_getElem?_parents`). None of these needs to know how a path is spelled.
-/

namespace ExtensionPlan

namespace Component

/-- Is the component a step, which may stand anywhere in a path? The others only start one. -/
def isStep : Component → Bool
  | .root | .current => false
  | .parent | .name _ => true

/-- A piece stands for a step, which is spelled by that piece. -/
theorem isStep_of_ofPiece? {piece : List Char} {step : Component}
    (h : ofPiece? piece = some step) : step.isStep = true ∧ step.path = ⟨piece⟩ := by
  unfold ofPiece? at h
  split at h
  · cases h
  · split at h
    · next hpiece =>
      cases h
      exact ⟨rfl, by rw [hpiece]; rfl⟩
    · cases h
      exact ⟨rfl, rfl⟩

end Component

/-- A step that does not lead up is spelled by a name. -/
theorem IsName.of_ofPiece? {piece : List Char} {step : Component}
    (h : Component.ofPiece? piece = some step) (hstep : step ≠ .parent) (whole : '/' ∉ piece) :
    IsName piece := by
  unfold Component.ofPiece? at h
  split at h
  · cases h
  · next hbusy =>
    obtain ⟨hfilled, hcurrent⟩ := not_or.1 hbusy
    split at h
    · cases h
      exact absurd rfl hstep
    · next hparent => exact ⟨hfilled, hcurrent, hparent, whole⟩

namespace Path

variable {p q : Path}

/-- The steps that a path takes from where it starts. -/
def steps (p : Path) : List Component :=
  (Text.pieces (· == '/') p.chars).filterMap Component.ofPiece?

/-- No piece of the lead is a step. -/
theorem filterMap_body (p : Path) : p.body.filterMap Component.ofPiece? = p.steps := by
  unfold body steps
  rcases lead_cases p with ⟨rest, hchars, hlead⟩ | ⟨hchars, hlead⟩ | ⟨rest, hchars, hlead⟩ | hlead
  · rw [hlead, hchars]
    rfl
  · rw [hlead, hchars]
    rfl
  · rw [hlead, hchars]
    rfl
  · rw [hlead]
    rfl

theorem components_eq (p : Path) : p.components = p.leadComponents ++ p.steps := by
  rw [components, filterMap_body]

theorem mem_steps_iff {step : Component} : step ∈ p.steps ↔
    ∃ piece ∈ Text.pieces (· == '/') p.chars, Component.ofPiece? piece = some step := by
  rw [steps, List.mem_filterMap]

theorem isStep_of_mem_steps {step : Component} (h : step ∈ p.steps) : step.isStep = true := by
  obtain ⟨piece, -, hpiece⟩ := mem_steps_iff.1 h
  exact (Component.isStep_of_ofPiece? hpiece).1

/-- The characters of a path are those of its steps, separators and dots apart. -/
theorem mem_chars_iff {c : Char} (hslash : c ≠ '/') (hdot : c ≠ '.') :
    c ∈ p.chars ↔ ∃ step ∈ p.steps, c ∈ step.path.chars := by
  rw [Text.mem_iff_exists_piece (· == '/') (by simpa using hslash)]
  constructor
  · intro h
    obtain ⟨piece, hpiece, hc⟩ := h
    cases hstep : Component.ofPiece? piece with
    | none =>
        rw [Component.ofPiece?_eq_none_iff, isIdle, Bool.or_eq_true, List.isEmpty_iff,
          beq_iff_eq] at hstep
        rcases hstep with rfl | rfl
        · cases hc
        · exact absurd (List.mem_singleton.1 hc) hdot
    | some step =>
        refine ⟨step, mem_steps_iff.2 ⟨piece, hpiece, hstep⟩, ?_⟩
        rwa [(Component.isStep_of_ofPiece? hstep).2]
  · intro h
    obtain ⟨step, hstep, hc⟩ := h
    obtain ⟨piece, hpiece, hof⟩ := mem_steps_iff.1 hstep
    rw [(Component.isStep_of_ofPiece? hof).2] at hc
    exact ⟨piece, hpiece, hc⟩

/-- The steps are what is a step of the components. -/
theorem steps_eq_filter (p : Path) : p.steps = p.components.filter Component.isStep := by
  have hlead : p.leadComponents.filter Component.isStep = [] := by
    unfold leadComponents
    split
    · rfl
    · split <;> rfl
  have hsteps : p.steps.filter Component.isStep = p.steps := by
    rw [List.filter_eq_self]
    exact fun step hstep => isStep_of_mem_steps hstep
  rw [components_eq, List.filter_append, hlead, hsteps, List.nil_append]

theorem isAbsolute_iff_head? : p.isAbsolute = true ↔ p.components.head? = some .root := by
  rw [← lead_eq_root_iff, components_eq, leadComponents]
  constructor
  · intro hlead
    rw [if_pos hlead]
    rfl
  · intro hhead
    by_contra hlead
    rw [if_neg hlead] at hhead
    split at hhead
    · simp at hhead
    · have hroot := isStep_of_mem_steps (List.mem_of_head? hhead)
      cases hroot

/-- A path that is seen from the root is the root and its steps. -/
theorem components_of_isAbsolute (h : p.isAbsolute = true) : p.components = .root :: p.steps := by
  rw [components_eq, leadComponents, if_pos ((lead_eq_root_iff p).2 h)]
  rfl

/-- Paths of one meaning start at one place and take the same steps. -/
theorem isAbsolute_eq_of_components (h : p.components = q.components) :
    p.isAbsolute = q.isAbsolute := by
  rw [Bool.eq_iff_iff, isAbsolute_iff_head?, isAbsolute_iff_head?, h]

theorem steps_eq_of_components (h : p.components = q.components) : p.steps = q.steps := by
  rw [steps_eq_filter, steps_eq_filter, h]

/-! ### Joining -/

/-- A path that is not seen from the root is put behind the other one, with a separator. -/
theorem join_eq (h : q.isAbsolute = false) :
    (p.chars = [] ∧ p.join q = q) ∨
      (∃ front, p.chars = front ++ ['/'] ∧ p.join q = ⟨front ++ '/' :: q.chars⟩) ∨
      (p.chars ≠ [] ∧ p.join q = ⟨p.chars ++ '/' :: q.chars⟩) := by
  rw [join, h, if_neg Bool.false_ne_true]
  by_cases hempty : p.chars = []
  · left
    simp [isEmpty, hempty]
  · right
    by_cases hlast : p.chars.getLast? = some '/'
    · left
      obtain ⟨front, hfront⟩ := List.getLast?_eq_some_iff.1 hlast
      exact ⟨front, hfront, by simp [hfront]⟩
    · right
      exact ⟨hempty, by simp [isEmpty, hempty, hlast]⟩

theorem byteCount_join_le (p q : Path) : Text.byteCount (p.join q).chars ≤
    Text.byteCount p.chars + Text.byteCount q.chars + 1 := by
  have hslash : ∀ cs : List Char, Text.byteCount ('/' :: cs) = 1 + Text.byteCount cs := fun _ => rfl
  by_cases hq : q.isAbsolute = true
  · rw [join, if_pos hq]
    omega
  · rcases join_eq (p := p) (Bool.not_eq_true _ ▸ hq) with
      ⟨-, hjoin⟩ | ⟨front, hfront, hjoin⟩ | ⟨-, hjoin⟩
    · rw [hjoin]
      omega
    · rw [hjoin, hfront, Text.byteCount_append, Text.byteCount_append, hslash]
      omega
    · rw [hjoin, Text.byteCount_append, hslash]
      omega

theorem isAbsolute_join_iff (p q : Path) :
    (p.join q).isAbsolute = (q.isAbsolute || p.isAbsolute) := by
  by_cases hq : q.isAbsolute = true
  · rw [join, if_pos hq, hq, Bool.true_or]
  · rw [Bool.not_eq_true] at hq
    rw [hq, Bool.false_or]
    rcases join_eq (p := p) hq with ⟨hp, hjoin⟩ | ⟨front, hfront, hjoin⟩ | ⟨hp, hjoin⟩
    · rw [hjoin, hq, isAbsolute, hp]
      rfl
    · rw [hjoin, isAbsolute, isAbsolute, hfront]
      cases front <;> rfl
    · obtain ⟨c, rest, hchars⟩ := List.exists_cons_of_ne_nil hp
      rw [hjoin, isAbsolute, isAbsolute, hchars]
      rfl

/-- Two paths give an empty one only if both are empty. -/
theorem filled_join (h : p.chars ≠ [] ∨ q.chars ≠ []) : (p.join q).chars ≠ [] := by
  by_cases hq : q.isAbsolute = true
  · rw [join, if_pos hq]
    exact filled_of_isAbsolute hq
  · rcases join_eq (p := p) (Bool.not_eq_true _ ▸ hq) with
      ⟨hp, hjoin⟩ | ⟨front, -, hjoin⟩ | ⟨hp, hjoin⟩
    · rw [hjoin]
      exact h.resolve_left (not_not_intro hp)
    · rw [hjoin]
      exact List.append_ne_nil_of_right_ne_nil front (List.cons_ne_nil '/' q.chars)
    · rw [hjoin]
      exact List.append_ne_nil_of_left_ne_nil hp _

/-- **Joining puts the steps behind each other**, unless the second path starts at the root. -/
theorem steps_join (p q : Path) :
    (p.join q).steps = if q.isAbsolute then q.steps else p.steps ++ q.steps := by
  by_cases hq : q.isAbsolute = true
  · rw [join, if_pos hq, if_pos hq]
  · rw [if_neg hq]
    rw [Bool.not_eq_true] at hq
    rcases join_eq (p := p) hq with ⟨hp, hjoin⟩ | ⟨front, hfront, hjoin⟩ | ⟨-, hjoin⟩
    · rw [hjoin, steps, steps, hp]
      rfl
    · rw [hjoin, steps, steps, steps, hfront, Text.pieces_append_cons (by rfl),
        Text.pieces_append_cons (by rfl), List.filterMap_append, List.filterMap_append]
      have hnothing : (Text.pieces (· == '/') []).filterMap Component.ofPiece? = [] := rfl
      rw [hnothing, List.append_nil]
    · rw [hjoin, steps, steps, steps, Text.pieces_append_cons (by rfl), List.filterMap_append]

/-- What follows a separator does not matter to what a path starts with. -/
theorem lead_append {front : List Char} (filled : front ≠ []) (more : List Char) :
    (Path.mk (front ++ '/' :: more)).lead = (Path.mk front).lead := by
  obtain ⟨c, rest, rfl⟩ := List.exists_cons_of_ne_nil filled
  by_cases hslash : c = '/'
  · rw [hslash]
    rfl
  · cases rest with
    | nil =>
        by_cases hdot : c = '.'
        · rw [hdot]
          rfl
        · simp [lead, hslash, hdot]
    | cons d rest =>
        by_cases hdot : c = '.' ∧ d = '/'
        · rw [hdot.1, hdot.2]
          rfl
        · simp_all [lead]

/-- What is put behind a path adds its steps to what the path means. -/
theorem components_join_eq (filled : p.chars ≠ []) (hq : q.isAbsolute = false) :
    (p.join q).components = p.components ++ q.steps := by
  have hlead : (p.join q).lead = p.lead := by
    rcases join_eq (p := p) hq with ⟨hp, -⟩ | ⟨front, hfront, hjoin⟩ | ⟨-, hjoin⟩
    · exact absurd hp filled
    · obtain rfl : p = ⟨front ++ ['/']⟩ := by rw [← hfront]
      cases front with
      | nil =>
          rw [hjoin]
          rfl
      | cons c front =>
          have hne := List.cons_ne_nil c front
          rw [hjoin, lead_append hne, lead_append hne []]
    · rw [hjoin, lead_append filled]
  rw [components_eq, components_eq, steps_join, hq, if_neg Bool.false_ne_true, leadComponents,
    hlead, ← leadComponents, List.append_assoc]

/-- A step by itself is a path that takes this one step. -/
theorem steps_path {step : Component} (h : step ∈ p.steps) :
    step.path.steps = [step] ∧ step.path.isAbsolute = false := by
  obtain ⟨piece, hmem, hpiece⟩ := mem_steps_iff.1 h
  have whole : '/' ∉ piece := fun hslash => by
    simpa using Text.not_isSeparator_of_mem_pieces hmem '/' hslash
  rw [(Component.isStep_of_ofPiece? hpiece).2]
  refine ⟨?_, not_isAbsolute_of_whole whole⟩
  rw [steps, Text.pieces_of_not_mem whole, List.filterMap_cons, hpiece, List.filterMap_nil]

theorem steps_of_isName {name : List Char} (h : IsName name) :
    (Path.mk name).steps = [.name name] := by
  rw [steps, Text.pieces_of_not_mem h.whole, List.filterMap_cons, h.ofPiece?, List.filterMap_nil]

/-! ### Seen from a working directory -/

/-- Where a path goes by following steps. -/
theorem steps_follow {steps : List Component}
    (h : ∀ step ∈ steps, step.path.steps = [step] ∧ step.path.isAbsolute = false) (start : Path) :
    (follow start steps).steps = start.steps ++ steps := by
  induction steps generalizing start with
  | nil => simp [follow]
  | cons step steps ih =>
      obtain ⟨hstep, hrelative⟩ := h step List.mem_cons_self
      have hrest := ih (fun other hother => h other (List.mem_cons_of_mem step hother))
        (start.join step.path)
      rw [follow, List.foldl_cons, ← follow, hrest, steps_join, hrelative,
        if_neg Bool.false_ne_true, hstep, List.append_assoc]
      rfl

/-- **The way to the working directory comes first**, unless the path starts at the root. -/
theorem steps_absoluteFrom (p cwd : Path) :
    (p.absoluteFrom cwd).steps = (if p.isAbsolute then [] else cwd.steps) ++ p.steps := by
  have hfollow : ∀ start : Path, (follow start (p.body.filterMap Component.ofPiece?)).steps =
      start.steps ++ p.steps := by
    intro start
    rw [filterMap_body]
    exact steps_follow (fun step hstep => steps_path hstep) start
  have hclosed : ∀ path : Path, (path.join ⟨[]⟩).steps = path.steps := by
    intro path
    rw [steps_join]
    exact List.append_nil path.steps
  have hstart : ∀ start : Path, start.steps = [] →
      (if p.isAbsolute then start else cwd).steps = if p.isAbsolute then [] else cwd.steps := by
    intro start hnone
    split
    · exact hnone
    · rfl
  dsimp only [absoluteFrom]
  split
  · rw [hclosed, hfollow, hstart]
    split <;> rfl
  · rw [hfollow, hstart]
    split <;> rfl

/-! ### Above a path -/

/-- Paths above start where the path does, and leave out one step more with each of them. -/
theorem steps_of_getElem?_parents {i : ℕ} (h : p.parents[i]? = some q) :
    q.isAbsolute = p.isAbsolute ∧ q.steps = p.steps.take (p.steps.length - 1 - i) := by
  obtain ⟨hlt, hcomponents⟩ := components_of_getElem?_parents h
  constructor
  · rw [Bool.eq_iff_iff, isAbsolute_iff_head?, isAbsolute_iff_head?, hcomponents,
      List.head?_take]
    constructor
    · intro hhead
      split at hhead
      · cases hhead
      · exact hhead
    · intro hhead
      rw [if_pos (isAbsolute_iff_head?.2 hhead)] at hlt
      rw [if_neg (by omega), hhead]
  · have hlead : ∀ count, (p.leadComponents.take count).filter Component.isStep = [] := by
      intro count
      rw [List.filter_eq_nil_iff]
      intro component hcomponent
      have hmem := List.mem_of_mem_take hcomponent
      unfold leadComponents at hmem
      split at hmem
      · rw [List.mem_singleton.1 hmem]
        exact Bool.false_ne_true
      · split at hmem
        · rw [List.mem_singleton.1 hmem]
          exact Bool.false_ne_true
        · cases hmem
    have hsteps : ∀ count, (p.steps.take count).filter Component.isStep = p.steps.take count := by
      intro count
      rw [List.filter_eq_self]
      exact fun step hstep => isStep_of_mem_steps (List.mem_of_mem_take hstep)
    rw [steps_eq_filter q, hcomponents, components_eq p, List.take_append, List.filter_append,
      hlead, hsteps, List.nil_append, List.length_append]
    congr 1
    omega

/-- There is a path above for every step. -/
theorem exists_getElem?_parents {i : ℕ} (h : i < p.steps.length) :
    ∃ q, p.parents[i]? = some q := by
  have hlt : i + (if p.isAbsolute then 1 else 0) < p.components.length := by
    split
    · next habsolute =>
      rw [components_of_isAbsolute habsolute, List.length_cons]
      omega
    · rw [components_eq, List.length_append]
      omega
  have hstep := components_parents p i
  rw [if_pos hlt] at hstep
  obtain ⟨q, hq, -⟩ := Option.map_eq_some_iff.1 hstep
  exact ⟨q, hq⟩

/-- The path right above leaves out the last step. -/
theorem exists_parent?_of_steps (h : p.steps ≠ []) :
    ∃ q, p.parent? = some q ∧ q.isAbsolute = p.isAbsolute ∧ q.steps = p.steps.dropLast := by
  obtain ⟨q, hq⟩ := exists_getElem?_parents (List.length_pos_iff.2 h)
  obtain ⟨habsolute, hsteps⟩ := steps_of_getElem?_parents hq
  refine ⟨q, by rw [parent?, List.head?_eq_getElem?, hq], habsolute, ?_⟩
  rw [hsteps, List.dropLast_eq_take, Nat.sub_zero]

end Path

end ExtensionPlan
