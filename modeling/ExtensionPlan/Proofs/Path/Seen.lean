import ExtensionPlan.Proofs.Path.Steps
import ExtensionPlan.Proofs.Text.Lines

/-!
# ExtensionPlan.Proofs.Path.Seen

**A path and the same path seen from the root.** `Path.IsSeenAs` relates the two, however each of
them is spelled. Whatever is put behind both keeps the relation (`Path.IsSeenAs.join`), and so does
going up, as long as the first path has a step to leave out (`Path.exists_above_of_isSeenAs`).
Further up only the second one goes on, through the directories above the working directory. So a
search upwards that finds something from the first path finds the same from the second
(`Path.exists_find?_parents_of_isSeenAs`), but not the other way round
(`Path.isAbove_of_find?_parents`).
-/

namespace ExtensionPlan

namespace Text

/-- The pieces of the beginning of a text are the first pieces of that text, but for the last one,
which may go on. -/
theorem exists_pieces_of_prefix (isSeparator : Char → Bool) {cs ds : List Char} (h : cs <+: ds) :
    ∃ front last next others, pieces isSeparator cs = front ++ [last] ∧
      pieces isSeparator ds = front ++ next :: others := by
  induction cs generalizing ds with
  | nil =>
      obtain ⟨next, others, hnext⟩ := List.exists_cons_of_ne_nil (pieces_ne_nil isSeparator ds)
      exact ⟨[], [], next, others, rfl, hnext⟩
  | cons c cs ih =>
      obtain ⟨more, rfl⟩ := h
      obtain ⟨front, last, next, others, hcs, hds⟩ := ih (List.prefix_append cs more)
      rw [List.cons_append, pieces, pieces]
      by_cases hc : isSeparator c = true
      · rw [if_pos hc, if_pos hc, hcs, hds]
        exact ⟨[] :: front, last, next, others, rfl, rfl⟩
      · rw [if_neg hc, if_neg hc, hcs, hds]
        cases front with
        | nil => exact ⟨[], c :: last, c :: next, others, rfl, rfl⟩
        | cons first front => exact ⟨(c :: first) :: front, last, next, others, rfl, rfl⟩

theorem intercalate_pieces (text : List Char) :
    ['/'].intercalate (pieces (· == '/') text) = text := by
  induction text with
  | nil => rfl
  | cons c rest ih =>
      have hne := pieces_ne_nil (· == '/') rest
      rw [pieces]
      by_cases hc : c = '/'
      · rw [if_pos (by rw [hc]; rfl), List.intercalate_cons_of_ne_nil hne, ih, hc]
        rfl
      · rw [if_neg (by simpa using hc)]
        obtain ⟨first, others, hpieces⟩ := List.exists_cons_of_ne_nil hne
        rw [hpieces] at ih ⊢
        rw [List.intercalate_cons_cons_left, ih]

theorem prefix_intercalate {front all : List (List Char)} (h : front <+: all) :
    ['/'].intercalate front <+: ['/'].intercalate all := by
  induction front generalizing all with
  | nil => exact List.nil_prefix
  | cons piece front ih =>
      obtain ⟨more, rfl⟩ := h
      cases front with
      | nil =>
          cases more with
          | nil => exact List.prefix_refl _
          | cons next more =>
              rw [List.intercalate_singleton, List.cons_append, List.nil_append,
                List.intercalate_cons_cons, List.append_assoc]
              exact List.prefix_append piece _
      | cons next front =>
          have hrest := ih (List.prefix_append (next :: front) more)
          rw [List.cons_append, List.cons_append, List.intercalate_cons_cons,
            List.intercalate_cons_cons, List.prefix_append_right_inj]
          exact hrest

end Text

namespace Path

variable {cwd p q dir : Path}

/-! ### Seen from the root -/

/-- The second path is the first one as it is seen from the root, `cwd` being the working
directory. -/
def IsSeenAs (cwd p q : Path) : Prop := (p.absoluteFrom cwd).same q = true

theorem isSeenAs_absoluteFrom (p cwd : Path) : IsSeenAs cwd p (p.absoluteFrom cwd) :=
  same_refl _

section Seen

variable (hcwd : cwd.isAbsolute = true)

include hcwd

theorem isSeenAs_iff : IsSeenAs cwd p q ↔
    q.isAbsolute = true ∧ q.steps = (if p.isAbsolute then [] else cwd.steps) ++ p.steps := by
  have habsolute := isAbsolute_absoluteFrom p hcwd
  rw [IsSeenAs, same_iff, ← steps_absoluteFrom]
  constructor
  · intro h
    exact ⟨isAbsolute_eq_of_components h ▸ habsolute, (steps_eq_of_components h).symm⟩
  · intro h
    rw [components_of_isAbsolute habsolute, components_of_isAbsolute h.1, h.2]

/-- Whatever is put behind a path is put behind the path that it is seen as. -/
theorem IsSeenAs.join (h : IsSeenAs cwd p q) (x : Path) : IsSeenAs cwd (p.join x) (q.join x) := by
  obtain ⟨habsolute, hsteps⟩ := (isSeenAs_iff hcwd).1 h
  rw [isSeenAs_iff hcwd, isAbsolute_join_iff, isAbsolute_join_iff, steps_join, steps_join]
  by_cases hx : x.isAbsolute = true
  · simp [hx]
  · simp [hx, habsolute, hsteps]

/-- For each path above, as long as there is a step to leave out, there is one above the path that
it is seen as. -/
theorem exists_above_of_isSeenAs (h : IsSeenAs cwd p q) {i : ℕ} (hi : i < p.steps.length) :
    ∃ dir above, p.parents[i]? = some dir ∧ q.parents[i]? = some above ∧
      IsSeenAs cwd dir above := by
  obtain ⟨habsolute, hsteps⟩ := (isSeenAs_iff hcwd).1 h
  have hlength := congrArg List.length hsteps
  rw [List.length_append] at hlength
  obtain ⟨dir, hdir⟩ := exists_getElem?_parents hi
  obtain ⟨above, habove⟩ := exists_getElem?_parents (p := q) (i := i) (by omega)
  obtain ⟨hdirAbsolute, hdirSteps⟩ := steps_of_getElem?_parents hdir
  obtain ⟨haboveAbsolute, haboveSteps⟩ := steps_of_getElem?_parents habove
  refine ⟨dir, above, hdir, habove, (isSeenAs_iff hcwd).2 ⟨haboveAbsolute.trans habsolute, ?_⟩⟩
  have hbase : (if p.isAbsolute then [] else cwd.steps).length ≤ q.steps.length - 1 - i := by omega
  rw [haboveSteps, hdirAbsolute, hdirSteps, hsteps, List.take_append, ← hsteps,
    List.take_of_length_le hbase]
  congr 2
  omega

end Seen

/-! ### Above the working directory -/

/-- The first path is one of those above the second, in whatever spelling. -/
def IsAbove (dir p : Path) : Prop := ∃ other ∈ p.parents, other.same dir = true

instance (dir p : Path) : Decidable (dir.IsAbove p) :=
  inferInstanceAs (Decidable (∃ other ∈ p.parents, _))

theorem isAbove_iff (hp : p.isAbsolute = true) : dir.IsAbove p ↔
    dir.isAbsolute = true ∧ dir.steps <+: p.steps ∧ dir.steps.length < p.steps.length := by
  constructor
  · intro h
    obtain ⟨other, hother, hsame⟩ := h
    obtain ⟨i, hi⟩ := List.getElem?_of_mem hother
    obtain ⟨habsolute, hsteps⟩ := steps_of_getElem?_parents hi
    obtain ⟨hlt, -⟩ := components_of_getElem?_parents hi
    rw [if_pos hp, components_of_isAbsolute hp, List.length_cons] at hlt
    rw [← isAbsolute_eq_of_components (same_iff.1 hsame),
      ← steps_eq_of_components (same_iff.1 hsame), hsteps, List.length_take]
    exact ⟨habsolute.trans hp, List.take_prefix _ _, by omega⟩
  · intro h
    obtain ⟨habsolute, hbeginning, hshorter⟩ := h
    obtain ⟨other, hother⟩ :=
      exists_getElem?_parents (p := p) (i := p.steps.length - 1 - dir.steps.length) (by omega)
    obtain ⟨hotherAbsolute, hsteps⟩ := steps_of_getElem?_parents hother
    have hcount : p.steps.length - 1 - (p.steps.length - 1 - dir.steps.length) =
        dir.steps.length := by omega
    rw [hcount, ← List.prefix_iff_eq_take.1 hbeginning] at hsteps
    refine ⟨other, List.mem_of_getElem? hother, same_iff.2 ?_⟩
    rw [components_of_isAbsolute (hotherAbsolute.trans hp), components_of_isAbsolute habsolute,
      hsteps]

/-- What a relative path is seen as does not lie above the working directory. -/
theorem IsSeenAs.not_isAbove (hcwd : cwd.isAbsolute = true) (h : IsSeenAs cwd p q)
    (hp : p.isAbsolute = false) : ¬ q.IsAbove cwd := by
  obtain ⟨-, hsteps⟩ := (isSeenAs_iff hcwd).1 h
  have hlength := congrArg List.length hsteps
  rw [hp, if_neg Bool.false_ne_true, List.length_append] at hlength
  rw [isAbove_iff hcwd]
  omega

/-- From where the first path has no step left to leave out, the second one goes on above the
working directory. -/
theorem isAbove_of_getElem?_parents (hcwd : cwd.isAbsolute = true) (h : IsSeenAs cwd p q) {i : ℕ}
    (hi : p.steps.length ≤ i) (habove : q.parents[i]? = some dir) :
    p.isAbsolute = false ∧ dir.IsAbove cwd := by
  obtain ⟨habsolute, hsteps⟩ := (isSeenAs_iff hcwd).1 h
  obtain ⟨hdirAbsolute, hdirSteps⟩ := steps_of_getElem?_parents habove
  obtain ⟨hlt, -⟩ := components_of_getElem?_parents habove
  rw [if_pos habsolute, components_of_isAbsolute habsolute, List.length_cons] at hlt
  have hlength := congrArg List.length hsteps
  rw [List.length_append] at hlength
  cases hp : p.isAbsolute with
  | true =>
      rw [hp, if_pos rfl, List.length_nil] at hlength
      omega
  | false =>
      rw [hp, if_neg Bool.false_ne_true] at hlength hsteps
      have hcount : q.steps.length - 1 - i < cwd.steps.length := by omega
      generalize q.steps.length - 1 - i = count at hcount hdirSteps
      rw [hsteps, List.take_append_of_le_length (Nat.le_of_lt hcount)] at hdirSteps
      refine ⟨rfl, (isAbove_iff hcwd).2 ⟨hdirAbsolute.trans habsolute, ?_, ?_⟩⟩
      · rw [hdirSteps]
        exact List.take_prefix count cwd.steps
      · rw [hdirSteps, List.length_take]
        omega

/-- Every path above is seen as one above the path that `p` is seen as. Above the last step there
may be both `.` and the empty path; these are seen as the same. -/
theorem exists_above_of_getElem?_parents (hcwd : cwd.isAbsolute = true) (h : IsSeenAs cwd p q)
    (hsteps : p.steps ≠ []) {i : ℕ} (hdir : p.parents[i]? = some dir) :
    ∃ j above, j ≤ i ∧ j < p.steps.length ∧ q.parents[j]? = some above ∧
      IsSeenAs cwd dir above := by
  have hpositive := List.length_pos_iff.2 hsteps
  have hj : min i (p.steps.length - 1) < p.steps.length := by omega
  obtain ⟨nearer, above, hnearer, habove, hseen⟩ := exists_above_of_isSeenAs hcwd h hj
  refine ⟨_, above, Nat.min_le_left _ _, hj, habove, ?_⟩
  obtain ⟨hdirAbsolute, hdirSteps⟩ := steps_of_getElem?_parents hdir
  obtain ⟨hnearerAbsolute, hnearerSteps⟩ := steps_of_getElem?_parents hnearer
  have hsame : dir.steps = nearer.steps := by
    rw [hdirSteps, hnearerSteps]
    congr 1
    omega
  rw [isSeenAs_iff hcwd] at hseen ⊢
  rwa [hdirAbsolute, ← hnearerAbsolute, hsame]

section Upwards

variable (hcwd : cwd.isAbsolute = true) (h : IsSeenAs cwd p q) {property : Path → Bool}
  (hproperty : ∀ dir ∈ p.parents, ∀ above ∈ q.parents, IsSeenAs cwd dir above →
    property dir = property above)

include hcwd h hproperty

/-- The first path above that has a property is seen as the first one that has it above the path
that `p` is seen as. -/
theorem exists_find?_parents_of_isSeenAs (hsteps : p.steps ≠ [])
    (hfound : p.parents.find? property = some dir) :
    ∃ above, q.parents.find? property = some above ∧ IsSeenAs cwd dir above := by
  obtain ⟨hholds, i, hi, hdir, hbefore⟩ := List.find?_eq_some_iff_getElem.1 hfound
  have hith : p.parents[i]? = some dir := by rw [List.getElem?_eq_getElem hi, hdir]
  obtain ⟨j, above, hle, hj, habove, hdirSeen⟩ :=
    exists_above_of_getElem?_parents hcwd h hsteps hith
  have hdirSame := hproperty dir (List.mem_of_getElem? hith) above (List.mem_of_getElem? habove)
    hdirSeen
  refine ⟨above, ?_, hdirSeen⟩
  obtain ⟨hq, hget⟩ := List.getElem?_eq_some_iff.1 habove
  refine List.find?_eq_some_iff_getElem.2 ⟨hdirSame ▸ hholds, j, hq, hget, fun k hk => ?_⟩
  -- nothing before the first one has the property, and that goes for what it is seen as
  obtain ⟨before, other, hbeforeAt, hotherAt, hseen⟩ :=
    exists_above_of_isSeenAs hcwd h (Nat.lt_trans hk hj)
  have hsame := hproperty before (List.mem_of_getElem? hbeforeAt) other
    (List.mem_of_getElem? hotherAt) hseen
  obtain ⟨hkp, hgetBefore⟩ := List.getElem?_eq_some_iff.1 hbeforeAt
  obtain ⟨hkq, hgetOther⟩ := List.getElem?_eq_some_iff.1 hotherAt
  rw [hgetOther, ← hsame, ← hgetBefore]
  exact hbefore k (Nat.lt_of_lt_of_le hk hle)

/-- **Searching upwards.** If nothing is found above a relative path, then what is found above the
path that it is seen as lies above the working directory. -/
theorem isAbove_of_find?_parents (hnone : p.parents.find? property = none)
    (hfound : q.parents.find? property = some dir) : p.isAbsolute = false ∧ dir.IsAbove cwd := by
  obtain ⟨hholds, i, hi, hget, -⟩ := List.find?_eq_some_iff_getElem.1 hfound
  have hith : q.parents[i]? = some dir := by rw [List.getElem?_eq_getElem hi, hget]
  refine isAbove_of_getElem?_parents hcwd h ?_ hith
  by_contra hnear
  obtain ⟨nearer, other, hnearer, hother, hseen⟩ :=
    exists_above_of_isSeenAs hcwd h (Nat.not_le.1 hnear)
  obtain rfl := Option.some.inj (hith.symm.trans hother)
  have hmem := List.mem_of_getElem? hnearer
  have hsame := hproperty nearer hmem dir (List.mem_of_getElem? hith) hseen
  exact List.find?_eq_none.1 hnone nearer hmem (hsame.trans hholds)

end Upwards

/-! ### The spelling of what is above -/

/-- A path is spelled by its lead and the pieces after it. -/
theorem chars_eq (p : Path) : p.chars = p.lead ++ ['/'].intercalate p.body := by
  rw [body, Text.intercalate_pieces]
  rcases lead_cases p with ⟨rest, hchars, hlead⟩ | ⟨hchars, hlead⟩ | ⟨rest, hchars, hlead⟩ | hlead
  · simp [hlead, hchars]
  · simp [hlead, hchars]
  · simp [hlead, hchars]
  · simp [hlead]

/-- A path above is spelled by the beginning of the spelling. -/
theorem prefix_of_mem_parents (h : q ∈ p.parents) : q.chars <+: p.chars := by
  have hreversed : ∀ reversed : List (List Char), q ∈ parentsFrom p.lead reversed →
      q.chars <+: p.lead ++ ['/'].intercalate reversed.reverse := by
    intro reversed hmem
    induction reversed with
    | nil =>
        rw [parentsFrom] at hmem
        split at hmem
        · rw [List.mem_singleton.1 hmem]
          exact List.nil_prefix
        · cases hmem
    | cons piece rest ih =>
        rw [parentsFrom] at hmem
        have hrest : rest.reverse <+: (piece :: rest).reverse := by
          rw [List.reverse_cons]
          exact List.prefix_append rest.reverse [piece]
        have hlonger := (List.prefix_append_right_inj p.lead).2 (Text.prefix_intercalate hrest)
        split at hmem
        · exact (ih hmem).trans hlonger
        · rcases List.mem_cons.1 hmem with rfl | hmem
          · have hless := List.reverse_prefix.2 (List.dropWhile_suffix isIdle (l := rest))
            exact ((List.prefix_append_right_inj p.lead).2 (Text.prefix_intercalate hless)).trans
              hlonger
          · exact (ih hmem).trans hlonger
  rw [chars_eq p, ← List.reverse_reverse p.body]
  exact hreversed p.body.reverse h

/-- After the dots with which a path begins there are no two separators in a row, and it does not
begin with a separator: the first piece that is more than a dot is not empty. -/
def IsTidy (p : Path) : Prop :=
  (Text.pieces (· == '/') p.chars).find? (· != ['.']) ≠ some []

instance (p : Path) : Decidable p.IsTidy := inferInstanceAs (Decidable (_ ≠ _))

/-- The pieces of a path with a piece put behind it. What is after the last separator of the path
comes between, unless it is nothing. -/
theorem exists_pieces_join {piece : List Char} (whole : '/' ∉ piece) {front : List (List Char)}
    {last : List Char} (h : Text.pieces (· == '/') q.chars = front ++ [last]) :
    ∃ between, [] ∉ between ∧
      Text.pieces (· == '/') (q.join ⟨piece⟩).chars = front ++ (between ++ [piece]) := by
  have hpiece : Text.pieces (· == '/') piece = [piece] := Text.pieces_of_not_mem whole
  rcases join_cases q whole with ⟨hempty, hjoin⟩ | ⟨start, hstart, hjoin⟩ |
    ⟨hfilled, hlast, hjoin⟩
  · rw [hempty] at h
    obtain ⟨rfl, -⟩ := List.append_inj' (show [] ++ [[]] = front ++ [last] from h) rfl
    exact ⟨[], List.not_mem_nil, by rw [hjoin, hpiece, List.nil_append, List.nil_append]⟩
  · have hends : Text.pieces (· == '/') q.chars = Text.pieces (· == '/') start ++ [[]] := by
      rw [hstart, Text.pieces_append_cons (by rfl)]
      rfl
    obtain ⟨rfl, -⟩ := List.append_inj' (hends.symm.trans h) rfl
    refine ⟨[], List.not_mem_nil, ?_⟩
    rw [hjoin, Text.pieces_append_cons (by rfl), hpiece, List.nil_append]
  · have hlastFilled : last ≠ [] := by
      obtain ⟨start, c, hstart⟩ := (List.eq_nil_or_concat' q.chars).resolve_left hfilled
      have hc : (c == '/') = false := by simpa [hstart] using hlast
      obtain ⟨before, ending, -, hconcat⟩ := Text.exists_pieces_concat (· == '/') hc start
      rw [hstart, hconcat] at h
      obtain rfl := List.singleton_inj.1 (List.append_inj' h rfl).2
      exact List.append_ne_nil_of_right_ne_nil ending (List.cons_ne_nil c [])
    refine ⟨[last], by simpa using hlastFilled.symm, ?_⟩
    rw [hjoin, Text.pieces_append_cons (by rfl), hpiece, h, List.append_assoc]

/-- A name behind a path that is above a tidy one keeps it tidy. -/
theorem IsTidy.join_of_mem_parents (h : p.IsTidy) (hq : q ∈ p.parents) {name : List Char}
    (hname : IsName name) : (q.join ⟨name⟩).IsTidy := by
  obtain ⟨front, last, next, others, hqpieces, hppieces⟩ :=
    Text.exists_pieces_of_prefix (· == '/') (prefix_of_mem_parents hq)
  obtain ⟨between, hbetween, hpieces⟩ := exists_pieces_join hname.whole hqpieces
  rw [IsTidy, hppieces, List.find?_append] at h
  rw [IsTidy, hpieces, List.find?_append]
  -- the first piece that is more than a dot is one of those that stay, or one of those behind them
  cases hfront : front.find? (· != ['.']) with
  | some first =>
      rw [hfront, Option.some_or] at h
      rwa [Option.some_or]
  | none =>
      rw [Option.none_or]
      intro hempty
      rcases List.mem_append.1 (List.mem_of_find?_eq_some hempty) with hmem | hmem
      · exact hbetween hmem
      · exact hname.filled (List.mem_singleton.1 hmem).symm

end Path

end ExtensionPlan
