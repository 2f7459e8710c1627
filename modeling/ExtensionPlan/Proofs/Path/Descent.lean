import ExtensionPlan.Proofs.Path.Spelling

/-!
# ExtensionPlan.Proofs.Path.Descent

**Going down piece by piece.** A path that is extended by one piece after the other, a separator
before each, is spelled by the same characters in the same order, less the separators that would
stand twice (`Path.sublist_foldl_join`). So it is no longer than the text that the pieces were cut
from, and seen from the root it means the same (`Path.components_foldl_join`).

`Path.join` spells a piece in one of three ways (`Path.join_cases`): after a path that is empty,
that ends in a separator, or neither. Whatever is shown of it is shown for these three.
-/

namespace ExtensionPlan

/-! ### Pieces and the text they were cut from -/

theorem Text.eq_append_flatMap_of_pieces {text first : List Char} {others : List (List Char)}
    (h : pieces (· == '/') text = first :: others) :
    text = first ++ others.flatMap ('/' :: ·) := by
  induction text generalizing first others with
  | nil =>
      cases h
      rfl
  | cons c rest ih =>
      obtain ⟨piece, pieces', hrest⟩ :=
        List.exists_cons_of_ne_nil (pieces_ne_nil (· == '/') rest)
      have hsplit := ih hrest
      by_cases hc : c = '/'
      · simp only [pieces, hc, beq_self_eq_true, if_true, hrest, List.cons.injEq] at h
        obtain ⟨rfl, rfl⟩ := h
        simp [hc, hsplit]
      · simp only [pieces, beq_iff_eq, hc, if_false, hrest, List.cons.injEq] at h
        obtain ⟨rfl, rfl⟩ := h
        simp [hsplit]

theorem Text.byteCount_le_of_sublist {cs ds : List Char} (h : cs.Sublist ds) :
    byteCount cs ≤ byteCount ds := by
  induction h with
  | slnil => exact Nat.le_refl _
  | cons d _ ih =>
      rw [byteCount]
      omega
  | cons_cons d _ ih =>
      rw [byteCount, byteCount]
      omega

namespace Path

variable {p : Path} {name : List Char}

/-! ### One piece -/

theorem filled_of_isAbsolute (h : p.isAbsolute = true) : p.chars ≠ [] := by
  obtain ⟨rest, hchars⟩ := isAbsolute_iff.1 h
  simp [hchars]

theorem not_isAbsolute_of_whole (whole : '/' ∉ name) : (Path.mk name).isAbsolute = false := by
  cases name with
  | nil => rfl
  | cons c rest =>
      have hc : c ≠ '/' := fun hc => whole (by simp [hc])
      simp [isAbsolute, hc]

/-- The three ways in which a piece is put behind a path. -/
theorem join_cases (p : Path) (whole : '/' ∉ name) :
    (p.chars = [] ∧ p.join ⟨name⟩ = ⟨name⟩) ∨
      (∃ front, p.chars = front ++ ['/'] ∧ p.join ⟨name⟩ = ⟨front ++ '/' :: name⟩) ∨
      (p.chars ≠ [] ∧ p.chars.getLast? ≠ some '/' ∧
        p.join ⟨name⟩ = ⟨p.chars ++ '/' :: name⟩) := by
  have hrelative := not_isAbsolute_of_whole whole
  by_cases hempty : p.chars = []
  · left
    simp [join, hrelative, isEmpty, hempty]
  · right
    by_cases hlast : p.chars.getLast? = some '/'
    · left
      obtain ⟨front, hfront⟩ := List.getLast?_eq_some_iff.1 hlast
      exact ⟨front, hfront, by simp [join, hrelative, hfront]⟩
    · right
      exact ⟨hempty, hlast, by simp [join, hrelative, isEmpty, hempty, hlast]⟩

/-- What stands before a piece that follows a path does not depend on the piece. -/
theorem exists_join_eq_append (p : Path) :
    ∃ front, ∀ name : List Char, '/' ∉ name → p.join ⟨name⟩ = ⟨front ++ name⟩ := by
  by_cases hseparated : p.isEmpty || p.chars.getLast? == some '/'
  · refine ⟨p.chars, fun name whole => ?_⟩
    simp [join, not_isAbsolute_of_whole whole, hseparated]
  · refine ⟨p.chars ++ ['/'], fun name whole => ?_⟩
    simp [join, not_isAbsolute_of_whole whole, hseparated]

theorem prefix_join (p : Path) (whole : '/' ∉ name) : p.chars <+: (p.join ⟨name⟩).chars := by
  rw [join, not_isAbsolute_of_whole whole, if_neg Bool.false_ne_true]
  split <;> exact List.prefix_append _ _

/-- The file of one name tells the directory as far as joining goes. -/
theorem join_eq_join {p q : Path} (whole : '/' ∉ name) (h : p.join ⟨name⟩ = q.join ⟨name⟩)
    {other : List Char} (hother : '/' ∉ other) : p.join ⟨other⟩ = q.join ⟨other⟩ := by
  obtain ⟨front, hfront⟩ := exists_join_eq_append p
  obtain ⟨front', hfront'⟩ := exists_join_eq_append q
  rw [hfront name whole, hfront' name whole, Path.mk.injEq, List.append_left_inj] at h
  rw [hfront other hother, hfront' other hother, h]

/-- A piece that follows a path does not move it to the root or away from there. -/
theorem isAbsolute_join_eq (whole : '/' ∉ name) :
    (p.join ⟨name⟩).isAbsolute = p.isAbsolute := by
  rcases join_cases p whole with ⟨hempty, hjoin⟩ | ⟨front, hfront, hjoin⟩ | ⟨hfilled, -, hjoin⟩
  · rw [hjoin, not_isAbsolute_of_whole whole, isAbsolute, hempty]
    rfl
  · rw [hjoin, isAbsolute, isAbsolute, hfront]
    cases front <;> rfl
  · obtain ⟨c, rest, hchars⟩ := List.exists_cons_of_ne_nil hfilled
    simp [hjoin, isAbsolute, hchars]

theorem sublist_join (p : Path) (whole : '/' ∉ name) :
    (p.join ⟨name⟩).chars.Sublist (p.chars ++ '/' :: name) := by
  rcases join_cases p whole with ⟨hempty, hjoin⟩ | ⟨front, hfront, hjoin⟩ | ⟨-, -, hjoin⟩
  · rw [hjoin, hempty]
    exact List.sublist_cons_self '/' name
  · rw [hjoin, hfront, List.append_assoc]
    exact (List.sublist_cons_self '/' _).append_left front
  · rw [hjoin]

theorem components_root (text : List Char) : (Path.mk ('/' :: text)).components =
    .root :: (Text.pieces (· == '/') text).filterMap Component.ofPiece? := rfl

/-- Text without separators stands for one component at most. -/
theorem filterMap_ofPiece?_of_whole (whole : '/' ∉ name) :
    (Text.pieces (· == '/') name).filterMap Component.ofPiece? =
      (Component.ofPiece? name).toList := by
  rw [Text.pieces_of_not_mem whole, List.filterMap_cons, List.filterMap_nil]
  cases Component.ofPiece? name <;> rfl

theorem filterMap_ofPiece?_append (text : List Char) (whole : '/' ∉ name) :
    (Text.pieces (· == '/') (text ++ '/' :: name)).filterMap Component.ofPiece? =
      (Text.pieces (· == '/') text).filterMap Component.ofPiece? ++
        (Component.ofPiece? name).toList := by
  rw [Text.pieces_append_cons (by rfl), List.filterMap_append, filterMap_ofPiece?_of_whole whole]

/-- Seen from the root, a piece adds the component that it stands for. -/
theorem components_join (h : p.isAbsolute = true) (whole : '/' ∉ name) :
    (p.join ⟨name⟩).components = p.components ++ (Component.ofPiece? name).toList := by
  obtain ⟨rest, hrest⟩ := isAbsolute_iff.1 h
  have hp : p = ⟨'/' :: rest⟩ := by rw [← hrest]
  rcases join_cases p whole with ⟨hempty, -⟩ | ⟨front, hfront, hjoin⟩ | ⟨-, -, hjoin⟩
  · simp [hempty] at hrest
  · rw [hrest] at hfront
    cases front with
    | nil =>
        -- the path is the root itself
        obtain rfl : rest = [] := by simpa using hfront
        rw [hjoin, hp, List.nil_append, components_root, components_root,
          filterMap_ofPiece?_of_whole whole]
        rfl
    | cons c front =>
        rw [List.cons_append, List.cons.injEq] at hfront
        obtain ⟨rfl, hends⟩ := hfront
        have hidle : Component.ofPiece? [] = none := rfl
        rw [hjoin, hp, hends, List.cons_append, components_root, components_root,
          filterMap_ofPiece?_append front whole, filterMap_ofPiece?_append front (by simp), hidle]
        simp
  · rw [hjoin, hp, List.cons_append, components_root, components_root,
      filterMap_ofPiece?_append rest whole]
    rfl

/-! ### Many pieces -/

/-- Nothing is spelled but the pieces, in their order, and separators before them. -/
theorem sublist_foldl_join (p : Path) {pieces : List (List Char)}
    (whole : ∀ piece ∈ pieces, '/' ∉ piece) :
    (pieces.foldl (fun q piece => q.join ⟨piece⟩) p).chars.Sublist
      (p.chars ++ pieces.flatMap ('/' :: ·)) := by
  induction pieces generalizing p with
  | nil => simp
  | cons piece pieces ih =>
      have hstep := sublist_join p (whole piece List.mem_cons_self)
      have hrest := ih (p.join ⟨piece⟩) fun other h => whole other (List.mem_cons_of_mem piece h)
      have hall := hrest.trans (hstep.append_right (pieces.flatMap ('/' :: ·)))
      simpa [List.append_assoc] using hall

theorem isAbsolute_foldl_join (p : Path) {pieces : List (List Char)}
    (whole : ∀ piece ∈ pieces, '/' ∉ piece) :
    (pieces.foldl (fun q piece => q.join ⟨piece⟩) p).isAbsolute = p.isAbsolute := by
  induction pieces generalizing p with
  | nil => rfl
  | cons piece pieces ih =>
      rw [List.foldl_cons, ih _ fun other h => whole other (List.mem_cons_of_mem piece h)]
      exact isAbsolute_join_eq (whole piece List.mem_cons_self)

/-- Seen from the root, pieces add the components that they stand for. -/
theorem components_foldl_join (h : p.isAbsolute = true) {pieces : List (List Char)}
    (whole : ∀ piece ∈ pieces, '/' ∉ piece) :
    (pieces.foldl (fun q piece => q.join ⟨piece⟩) p).components =
      p.components ++ pieces.filterMap Component.ofPiece? := by
  induction pieces generalizing p with
  | nil => simp
  | cons piece pieces ih =>
      have hpiece := whole piece List.mem_cons_self
      have habsolute : (p.join ⟨piece⟩).isAbsolute = true := by rw [isAbsolute_join_eq hpiece, h]
      rw [List.foldl_cons, ih habsolute fun other h => whole other (List.mem_cons_of_mem piece h),
        components_join h hpiece]
      cases hcomponent : Component.ofPiece? piece <;> simp [hcomponent]

end Path

end ExtensionPlan
