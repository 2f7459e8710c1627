import ExtensionPlan.Proofs.Path.Descent
import Mathlib.Data.List.TakeWhile

/-!
# ExtensionPlan.Proofs.Path.Ancestors

**What stands above a path.** The paths above a path are found in its spelling, by leaving pieces
out at the end. With every step up one component is gone, and no step takes more, until nothing is
left, or only the root of a path that begins there (`Path.components_parents`). So the first of
these paths that has a property is the nearest that has it, and every nearer one was asked
(`Path.isNearestAbove_of_find?`).

A path above is spelled by the lead of the path and some of its first pieces. That those are again
the lead and the pieces of what they spell is what `Path.Fits` is for: a piece that stands for
nothing would become the lead if it came first.
-/

namespace ExtensionPlan

/-- Pieces that are put together with separators are cut there again. -/
theorem Text.pieces_intercalate {separator : Char} {ps : List (List Char)} (hne : ps ≠ [])
    (whole : ∀ piece ∈ ps, separator ∉ piece) :
    pieces (· == separator) ([separator].intercalate ps) = ps := by
  induction ps with
  | nil => exact absurd rfl hne
  | cons piece ps ih =>
      have hpiece : pieces (· == separator) piece = [piece] :=
        pieces_of_not_mem (whole piece List.mem_cons_self)
      cases ps with
      | nil => simpa using hpiece
      | cons next ps =>
          have hrest := ih (List.cons_ne_nil next ps)
            fun other h => whole other (List.mem_cons_of_mem piece h)
          rw [List.intercalate_cons_cons, List.append_assoc, List.singleton_append]
          refine (pieces_append_cons (by simp) _ _).trans ?_
          rw [hpiece, hrest, List.singleton_append]

namespace Path

/-! ### Leads and the pieces after them -/

/-- The components that a lead stands for. -/
def leadMeaning (lead : List Char) : List Component :=
  if lead = ['/'] then [.root] else if lead = ['.'] then [.current] else []

/-- The pieces can stand after the lead: together they spell a path with this lead. -/
inductive Fits : List Char → List (List Char) → Prop
  | root (pieces : List (List Char)) : Fits ['/'] pieces
  | dot : Fits ['.'] []
  /-- After a `.` a separator comes first. -/
  | below (pieces : List (List Char)) : Fits ['.'] ([] :: pieces)
  | empty : Fits [] []
  | bare (first : List Char) (others : List (List Char)) :
      isIdle first = false → Fits [] (first :: others)

/-- A first piece that stands for something is no lead. -/
theorem lead_of_not_isIdle {first : List Char} (hfirst : isIdle first = false)
    (whole : '/' ∉ first) (others : List (List Char)) :
    (Path.mk (first ++ others.flatMap ('/' :: ·))).lead = [] := by
  obtain ⟨hfilled, hdot⟩ : first ≠ [] ∧ first ≠ ['.'] := by simpa [isIdle] using hfirst
  obtain ⟨c, rest, rfl⟩ := List.exists_cons_of_ne_nil hfilled
  unfold lead
  split
  · next heq =>
    obtain ⟨rfl, -⟩ := List.cons.inj heq
    exact absurd List.mem_cons_self whole
  · next heq =>
    obtain ⟨rfl, hrest⟩ := List.cons.inj heq
    obtain ⟨rfl, -⟩ := List.append_eq_nil_iff.1 hrest
    exact absurd rfl hdot
  · next heq =>
    obtain ⟨rfl, hrest⟩ := List.cons.inj heq
    cases rest with
    | nil => exact absurd rfl hdot
    | cons d rest =>
        obtain ⟨rfl, -⟩ := List.cons.inj hrest
        exact absurd (List.mem_cons_of_mem _ List.mem_cons_self) whole
  · rfl

namespace Fits

variable {lead : List Char} {pieces : List (List Char)}

theorem of_prefix {front : List (List Char)} (h : Fits lead pieces) (hfront : front <+: pieces) :
    Fits lead front := by
  obtain ⟨more, rfl⟩ := hfront
  cases front with
  | nil => cases h <;> constructor
  | cons first front =>
      cases h with
      | root => exact .root _
      | below => exact .below _
      | bare _ _ hfirst => exact .bare _ _ hfirst

/-- The path that a lead and the pieces after it spell means what they stand for. -/
theorem components_eq (h : Fits lead pieces) (whole : ∀ piece ∈ pieces, '/' ∉ piece) :
    (Path.mk (lead ++ ['/'].intercalate pieces)).components =
      leadMeaning lead ++ pieces.filterMap Component.ofPiece? := by
  cases h with
  | dot => rfl
  | empty => rfl
  | root pieces =>
      cases pieces with
      | nil => rfl
      | cons first others =>
          rw [List.singleton_append, components_root,
            Text.pieces_intercalate (List.cons_ne_nil first others) whole]
          rfl
  | below pieces =>
      cases pieces with
      | nil => rfl
      | cons first others =>
          have hpieces := Text.pieces_intercalate (List.cons_ne_nil [] (first :: others)) whole
          rw [List.intercalate_cons_cons] at hpieces ⊢
          show [Component.current] ++ (Text.pieces (· == '/') ([] ++ ['/'] ++ _)).filterMap _ = _
          rw [hpieces]
          rfl
  | bare first others hfirst =>
      have hpieces := Text.pieces_intercalate (List.cons_ne_nil first others) whole
      have hlead : (Path.mk (['/'].intercalate (first :: others))).lead = [] := by
        rw [Text.eq_append_flatMap_of_pieces hpieces]
        exact lead_of_not_isIdle hfirst (whole first List.mem_cons_self) others
      rw [List.nil_append, components, leadComponents, body, hlead, List.length_nil,
        List.drop_zero, hpieces]
      rfl

end Fits

/-- The lead of a path and its pieces fit, unless there is nothing of either. -/
theorem fits_body {p : Path} (h : p.chars ≠ []) : Fits p.lead p.body := by
  rcases lead_cases p with ⟨rest, -, hlead⟩ | ⟨hchars, hlead⟩ | ⟨rest, hchars, hlead⟩ | hlead
  · rw [hlead]
    exact .root _
  · rw [body, hchars, hlead]
    exact .below []
  · rw [body, hchars, hlead]
    exact .below _
  · obtain ⟨first, others, hbody⟩ :=
      List.exists_cons_of_ne_nil (Text.pieces_ne_nil (· == '/') p.chars)
    have htext := Text.eq_append_flatMap_of_pieces hbody
    have hfirst : isIdle first = false := by
      rw [← Bool.not_eq_true, isIdle, Bool.or_eq_true, List.isEmpty_iff, beq_iff_eq]
      rintro (rfl | rfl)
      · cases others with
        | nil => exact h htext
        | cons next others => simp [lead, htext] at hlead
      · cases others with
        | nil => simp [lead, htext] at hlead
        | cons next others => simp [lead, htext] at hlead
    rw [body, hlead, List.length_nil, List.drop_zero, hbody]
    exact .bare first others hfirst

/-! ### Steps up -/

/-- The number of components that no step takes: the root stays. -/
def fixedCount (lead : List Char) : Nat := if lead = ['/'] then 1 else 0

theorem fixedCount_le (lead : List Char) : fixedCount lead ≤ (leadMeaning lead).length := by
  unfold fixedCount leadMeaning
  split <;> simp

theorem components_ofPieces {lead : List Char} {reversed : List (List Char)}
    (h : Fits lead reversed.reverse) (whole : ∀ piece ∈ reversed, '/' ∉ piece) :
    (ofPieces lead reversed).components =
      leadMeaning lead ++ reversed.reverse.filterMap Component.ofPiece? := by
  have hsuffix : reversed.dropWhile isIdle <:+ reversed := List.dropWhile_suffix isIdle
  have hidle : (reversed.takeWhile isIdle).reverse.filterMap Component.ofPiece? = [] := by
    rw [List.filterMap_eq_nil_iff]
    intro piece hpiece
    exact Component.ofPiece?_eq_none_iff.2 (List.mem_takeWhile_imp (List.mem_reverse.1 hpiece))
  have hall : reversed.reverse.filterMap Component.ofPiece? =
      (reversed.dropWhile isIdle).reverse.filterMap Component.ofPiece? := by
    conv_lhs => rw [← List.takeWhile_append_dropWhile (p := isIdle) (l := reversed)]
    rw [List.reverse_append, List.filterMap_append, hidle, List.append_nil]
  rw [ofPieces, hall]
  refine (h.of_prefix (List.reverse_prefix.2 hsuffix)).components_eq fun piece hpiece => ?_
  exact whole piece (hsuffix.subset (List.mem_reverse.1 hpiece))

/-- Every piece that stands for a component makes one step, and the others make none. -/
theorem components_parentsFrom {lead : List Char} {reversed : List (List Char)}
    (h : Fits lead reversed.reverse) (whole : ∀ piece ∈ reversed, '/' ∉ piece)
    {all : List Component}
    (hall : all = leadMeaning lead ++ reversed.reverse.filterMap Component.ofPiece?) (i : Nat) :
    (parentsFrom lead reversed)[i]?.map components =
      if i + fixedCount lead < all.length then some (all.take (all.length - 1 - i)) else none := by
  induction reversed generalizing i all with
  | nil =>
      subst hall
      cases h with
      | root => simp [parentsFrom, leadMeaning, fixedCount]
      | dot =>
          cases i with
          | zero => rfl
          | succ i => simp [parentsFrom, leadMeaning, fixedCount]
      | empty => simp [parentsFrom, leadMeaning]
  | cons piece rest ih =>
      rw [List.reverse_cons] at h
      have hfront := h.of_prefix (List.prefix_append rest.reverse [piece])
      have hwhole : ∀ other ∈ rest, '/' ∉ other := fun other hother =>
        whole other (List.mem_cons_of_mem piece hother)
      have hmeaning := components_ofPieces hfront hwhole
      rw [List.reverse_cons, List.filterMap_append, ← List.append_assoc, ← hmeaning] at hall
      rw [parentsFrom]
      cases hcomponent : Component.ofPiece? piece with
      | none =>
          rw [if_pos (Component.ofPiece?_eq_none_iff.1 hcomponent)]
          refine ih hfront hwhole ?_ i
          rw [hall, hmeaning]
          simp [hcomponent]
      | some component =>
          have hbusy : ¬ isIdle piece = true := by
            rw [← Component.ofPiece?_eq_none_iff, hcomponent]
            exact Option.some_ne_none component
          have hrest := ih hfront hwhole hmeaning
          have hfixed : fixedCount lead ≤ (ofPieces lead rest).components.length := by
            rw [hmeaning, List.length_append]
            exact Nat.le_trans (fixedCount_le lead) (Nat.le_add_right _ _)
          have hlength : all.length = (ofPieces lead rest).components.length + 1 := by
            simp [hall, hcomponent]
          rw [if_neg hbusy]
          cases i with
          | zero =>
              rw [List.getElem?_cons_zero, Option.map_some, if_pos (by omega), hlength, hall]
              simp
          | succ i =>
              have hiff : i + 1 + fixedCount lead < all.length ↔
                  i + fixedCount lead < (ofPieces lead rest).components.length := by omega
              rw [List.getElem?_cons_succ, hrest]
              simp only [hiff]
              split
              · have hcount : all.length - 1 - (i + 1) =
                    (ofPieces lead rest).components.length - 1 - i := by omega
                rw [hcount, hall, List.take_append_of_le_length (by omega)]
              · rfl

/-- **The steps up.** Each path above has one component less at the end than the one before. The
last one has none, or it is the root. -/
theorem components_parents (p : Path) (i : Nat) :
    p.parents[i]?.map components =
      if i + (if p.isAbsolute then 1 else 0) < p.components.length then
        some (p.components.take (p.components.length - 1 - i))
      else none := by
  by_cases hempty : p.chars = []
  · obtain rfl : p = ⟨[]⟩ := by rw [← hempty]
    have hcomponents : components ⟨[]⟩ = [] := rfl
    have hparents : parents ⟨[]⟩ = [] := rfl
    simp [hcomponents, hparents]
  · have whole : ∀ piece ∈ p.body.reverse, '/' ∉ piece := by
      intro piece hpiece hmem
      have hnot := Text.not_isSeparator_of_mem_pieces (List.mem_reverse.1 hpiece) '/' hmem
      simp at hnot
    have hcount : fixedCount p.lead = if p.isAbsolute then 1 else 0 := by
      simp only [fixedCount, lead_eq_root_iff]
    have hfits := fits_body hempty
    rw [← List.reverse_reverse p.body] at hfits
    rw [← hcount]
    exact components_parentsFrom hfits whole (by rw [List.reverse_reverse]; rfl) i

/-! ### The nearest path above -/

/-- Of the paths above `p` that have a property, `dir` is the nearest: for every number of
components in between there is a path above `p`, and that does not have it. -/
structure IsNearestAbove (property : Path → Bool) (p dir : Path) : Prop where
  above : dir ∈ p.parents
  beginning : dir.components <+: p.components
  shorter : dir.components.length < p.components.length
  holds : property dir = true
  nearest : ∀ count, dir.components.length < count → count < p.components.length →
    ∃ other ∈ p.parents, other.components = p.components.take count ∧ property other = false

/-- How many components are gone tells which path above it is. -/
theorem components_of_getElem?_parents {p q : Path} {i : ℕ} (h : p.parents[i]? = some q) :
    i + (if p.isAbsolute then 1 else 0) < p.components.length ∧
      q.components = p.components.take (p.components.length - 1 - i) := by
  have hstep := components_parents p i
  rw [h, Option.map_some] at hstep
  by_cases hlt : i + (if p.isAbsolute then 1 else 0) < p.components.length
  · rw [if_pos hlt] at hstep
    exact ⟨hlt, Option.some.inj hstep⟩
  · rw [if_neg hlt] at hstep
    cases hstep

/-- No two paths above mean the same. -/
theorem eq_of_mem_parents {p a b : Path} (ha : a ∈ p.parents) (hb : b ∈ p.parents)
    (h : a.components = b.components) : a = b := by
  obtain ⟨i, hi⟩ := List.getElem?_of_mem ha
  obtain ⟨j, hj⟩ := List.getElem?_of_mem hb
  obtain ⟨hilt, hicomponents⟩ := components_of_getElem?_parents hi
  obtain ⟨hjlt, hjcomponents⟩ := components_of_getElem?_parents hj
  have hlengths := congrArg List.length h
  rw [hicomponents, hjcomponents, List.length_take, List.length_take] at hlengths
  obtain rfl : i = j := by omega
  exact Option.some.inj (hi.symm.trans hj)

/-- The first path above is the nearest one. -/
theorem isNearestAbove_of_find? {property : Path → Bool} {p dir : Path}
    (h : p.parents.find? property = some dir) : IsNearestAbove property p dir := by
  obtain ⟨hholds, i, hi, hdir, hbefore⟩ := List.find?_eq_some_iff_getElem.1 h
  obtain ⟨hlt, htake⟩ := components_of_getElem?_parents
    (show p.parents[i]? = some dir by rw [List.getElem?_eq_getElem hi, hdir])
  have hlength : dir.components.length = p.components.length - 1 - i := by
    rw [htake, List.length_take]
    omega
  refine ⟨List.mem_of_find?_eq_some h, htake ▸ List.take_prefix _ _, by omega, hholds, ?_⟩
  intro count hcount hbelow
  have hj : p.components.length - 1 - count < i := by omega
  obtain ⟨-, hother⟩ := components_of_getElem?_parents
    (List.getElem?_eq_getElem (Nat.lt_trans hj hi))
  refine ⟨p.parents[p.components.length - 1 - count], List.getElem_mem _, ?_, ?_⟩
  · have hback : p.components.length - 1 - (p.components.length - 1 - count) = count := by omega
    rw [hother, hback]
  · simpa using hbefore _ hj

/-- There is no nearer one than the nearest. -/
theorem IsNearestAbove.length_le {property : Path → Bool} {p dir other : Path}
    (h : IsNearestAbove property p dir) (hother : IsNearestAbove property p other) :
    other.components.length ≤ dir.components.length := by
  by_contra hlonger
  obtain ⟨between, habove, hcomponents, hnot⟩ :=
    h.nearest other.components.length (Nat.lt_of_not_le hlonger) hother.shorter
  rw [← List.prefix_iff_eq_take.1 hother.beginning] at hcomponents
  rw [eq_of_mem_parents habove hother.above hcomponents, hother.holds] at hnot
  cases hnot

/-- The nearest path above is the first one. -/
theorem find?_parents_eq_some_iff {property : Path → Bool} {p dir : Path} :
    p.parents.find? property = some dir ↔ IsNearestAbove property p dir := by
  refine ⟨isNearestAbove_of_find?, fun h => ?_⟩
  obtain ⟨found, hfound⟩ := Option.isSome_iff_exists.1
    (List.find?_isSome.2 ⟨dir, h.above, h.holds⟩)
  have hnearest := isNearestAbove_of_find? hfound
  have hlength := Nat.le_antisymm (h.length_le hnearest) (hnearest.length_le h)
  have hcomponents : found.components = dir.components :=
    (List.prefix_of_prefix_length_le hnearest.beginning h.beginning
      (Nat.le_of_eq hlength)).eq_of_length hlength
  rw [hfound, eq_of_mem_parents hnearest.above h.above hcomponents]

end Path

end ExtensionPlan
