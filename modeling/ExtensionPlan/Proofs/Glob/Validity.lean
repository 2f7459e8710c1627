import ExtensionPlan.Proofs.Glob.Escape

/-!
# ExtensionPlan.Proofs.Glob.Validity

**What is a pattern.** A text is a pattern for paths if it can be read as a whole, and so can each
of its pieces between separators (`Glob.isPattern_iff`). The pieces are looked at one by one since
`[a/b]` is a class as a whole, while neither of its pieces is anything.

Both conditions hold of an escaped directory, and neither looks across the separator behind it. So a
text is a pattern below a directory exactly if it is one by itself, whatever the directory is called
(`Glob.isPattern_escape_append_iff`).
-/

namespace ExtensionPlan.Glob

/-- The text can be read as a pattern for paths. -/
def IsPattern (text : List Char) : Prop := ∃ pattern, PathPattern.read text = .ok pattern

instance (text : List Char) : Decidable (IsPattern text) :=
  match h : PathPattern.read text with
  | .ok pattern => isTrue ⟨pattern, h⟩
  | .error e => isFalse fun ⟨pattern, hpattern⟩ => by rw [h] at hpattern; cases hpattern

/-- The text can be read into tokens. -/
def IsReadable (text : List Char) : Prop := ∃ read, tokens text = .ok read

theorem isReadable_nil : IsReadable [] := ⟨[], rfl⟩

theorem isReadable_escape (text : List Char) : IsReadable (escape text) := ⟨_, tokens_escape text⟩

/-- What stands behind an escaped directory is read as it is by itself. -/
theorem isReadable_escape_append_iff (directory text : List Char) :
    IsReadable (escape directory ++ '/' :: text) ↔ IsReadable text := by
  obtain ⟨place, htokens⟩ := exists_tokens_escape_append_separator directory text
  constructor
  · intro ⟨read, hread⟩
    rw [htokens, map_eq_ok_iff] at hread
    obtain ⟨rest, hrest, -⟩ := hread
    exact ⟨rest, (tokensFrom_separator_eq_ok_iff place).1 hrest⟩
  · intro ⟨read, hread⟩
    exact ⟨_, tokens_escape_append_separator directory hread⟩

/-! ### Components -/

/-- The components can be read if all pieces can: the piece that is left out is empty. -/
theorem forall_componentsOf_iff (text : List Char) :
    (∀ component ∈ componentsOf text, IsReadable component) ↔
      ∀ piece ∈ Text.pieces (· == '/') text, IsReadable piece := by
  unfold componentsOf
  dsimp only
  split
  · next hlast =>
    obtain ⟨front, hfront⟩ := List.getLast?_eq_some_iff.1 hlast
    rw [hfront, List.dropLast_concat]
    simp [isReadable_nil, or_imp, forall_and]
  · rfl

/-- The components that a pattern is cut into, the root taken off. -/
def patternComponents (text : List Char) : List (List Char) :=
  let rest := if text.head? == some '/' then text.drop 1 else text
  if rest.isEmpty then [[]] else componentsOf rest

theorem forall_patternComponents_iff (text : List Char) :
    (∀ component ∈ patternComponents text, IsReadable component) ↔
      ∀ piece ∈ Text.pieces (· == '/') text, IsReadable piece := by
  have hrest : ∀ rest : List Char, (∀ component ∈ if rest.isEmpty then [[]] else componentsOf rest,
      IsReadable component) ↔ ∀ piece ∈ Text.pieces (· == '/') rest, IsReadable piece := by
    intro rest
    cases rest with
    | nil => rfl
    | cons c rest => exact forall_componentsOf_iff (c :: rest)
  unfold patternComponents
  dsimp only
  rw [hrest]
  split
  · next hrooted =>
    obtain ⟨rest, rfl⟩ := List.head?_eq_some_iff.1 (beq_iff_eq.1 hrooted)
    simp [Text.pieces, isReadable_nil]
  · rfl

/-- **What is a pattern**: a text that can be read as a whole and piece by piece. -/
theorem isPattern_iff (text : List Char) :
    IsPattern text ↔
      IsReadable text ∧ ∀ piece ∈ Text.pieces (· == '/') text, IsReadable piece := by
  have hsegments : (∃ segments, ((patternComponents text).mapM fun component =>
      return Segment.ofTokens (← tokens component) : Except PatternError (List Segment)) =
        .ok segments) ↔ ∀ component ∈ patternComponents text, IsReadable component := by
    rw [exists_mapM_eq_ok_iff]
    simp only [bind_eq_ok_iff, pure_eq_ok_iff, IsReadable, exists_comm (α := Segment),
      exists_and_left, exists_eq', and_true]
  rw [← forall_patternComponents_iff, ← hsegments]
  -- the text is read as a whole first, and then its components
  unfold IsPattern PathPattern.read
  constructor
  · intro ⟨pattern, h⟩
    obtain ⟨read, hread, h⟩ := bind_eq_ok_iff.1 h
    obtain ⟨segments, hsegments, -⟩ := bind_eq_ok_iff.1 h
    exact ⟨⟨read, hread⟩, segments, hsegments⟩
  · intro ⟨⟨read, hread⟩, segments, hsegments⟩
    exact ⟨_, bind_eq_ok_iff.2 ⟨read, hread, bind_eq_ok_iff.2 ⟨segments, hsegments, rfl⟩⟩⟩

/-- **Patterns below a directory.** A text is a pattern behind an escaped directory exactly if it is
one by itself. -/
theorem isPattern_escape_append_iff (directory text : List Char) :
    IsPattern (escape directory ++ '/' :: text) ↔ IsPattern text := by
  rw [isPattern_iff, isPattern_iff, isReadable_escape_append_iff, Text.pieces_append_cons (by rfl),
    pieces_escape]
  simp [or_imp, forall_and, isReadable_escape]

end ExtensionPlan.Glob
