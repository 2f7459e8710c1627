import ExtensionPlan.Proofs.Glob.Entries
import ExtensionPlan.Proofs.Path.Seen

/-!
# ExtensionPlan.Proofs.Glob.Relative

**Searching below a relative directory.** From the working directory a search starts at `.`, and it
shows what it finds in `.` without that. So it takes the pieces of a directory for what they are,
with one exception: after a `.` an empty piece leads to the empty path, where there is nothing. A
search gets to every relative directory that is spelled without such a piece
(`World.isReached_of_isTidy`), and to no other (`World.glob_of_not_isTidy`).

What it shows is spelled without repeated separators. So it also gets to a directory by a path that
is too long to be looked up, if what is left of the path is not
(`World.isReached_of_isDirectory_searched`).
-/

namespace ExtensionPlan

namespace Path

variable {p : Path}

theorem IsTidy.exists_cons (h : p.IsTidy) : ∃ c rest, p.chars = c :: rest ∧ c ≠ '/' := by
  unfold IsTidy at h
  cases hchars : p.chars with
  | nil =>
      rw [hchars] at h
      exact absurd rfl h
  | cons c rest =>
      refine ⟨c, rest, rfl, ?_⟩
      rintro rfl
      rw [hchars] at h
      exact h rfl

/-- A path that means `.` takes no step. -/
theorem steps_of_isDot (h : World.isDot p = true) : p.steps = [] := by
  rw [steps_eq_filter, same_iff.1 h]
  rfl

theorem steps_of_whole {piece : List Char} (whole : '/' ∉ piece) :
    (Path.mk piece).steps = (Component.ofPiece? piece).toList :=
  filterMap_ofPiece?_of_whole whole

end Path

namespace World

open Glob

variable {w : World} {p directory : Path} {pieces : List (List Char)}

/-! ### The steps of what is shown -/

theorem steps_entryPath (p : Path) {piece : List Char} (whole : '/' ∉ piece) :
    (entryPath p ⟨piece⟩).steps = p.steps ++ (Component.ofPiece? piece).toList := by
  unfold entryPath
  split
  · next hdot =>
    rw [Path.steps_of_isDot hdot, Path.steps_of_whole whole, List.nil_append]
  · rw [Path.steps_join, Path.not_isAbsolute_of_whole whole, if_neg Bool.false_ne_true,
      Path.steps_of_whole whole]

theorem steps_descend (whole : ∀ piece ∈ pieces, '/' ∉ piece) (p : Path) :
    (descend p pieces).steps = p.steps ++ pieces.filterMap Component.ofPiece? := by
  induction pieces generalizing p with
  | nil => exact (List.append_nil _).symm
  | cons piece pieces ih =>
      have hrest := ih (fun other hother => whole other (List.mem_cons_of_mem piece hother))
        (entryPath p ⟨piece⟩)
      rw [steps_entryPath p (whole piece List.mem_cons_self), List.append_assoc] at hrest
      refine hrest.trans (congrArg (p.steps ++ ·) ?_)
      cases hpiece : Component.ofPiece? piece <;> simp [hpiece]

/-- A directory takes the same steps in the spelling in which it is shown. -/
theorem steps_searched (directory : Path) : (searched directory).steps = directory.steps := by
  have hstart : (searchStart directory).steps = [] := by
    unfold searchStart
    split <;> rfl
  rw [searched, steps_descend (fun piece hpiece => whole_of_mem_directoryPieces hpiece), hstart,
    List.nil_append, Path.steps]
  cases hchars : directory.chars with
  | nil => rfl
  | cons c rest =>
      unfold directoryPieces
      by_cases hc : c = '/'
      · simp [hc, Text.pieces, Component.ofPiece?]
      · simp [hc]

theorem isAbsolute_descend (whole : ∀ piece ∈ pieces, '/' ∉ piece) (p : Path) :
    (descend p pieces).isAbsolute = p.isAbsolute := by
  induction pieces generalizing p with
  | nil => rfl
  | cons piece pieces ih =>
      have hwhole := whole piece List.mem_cons_self
      have hstep : (entryPath p ⟨piece⟩).isAbsolute = p.isAbsolute := by
        unfold entryPath
        split
        · next hdot =>
          rw [Path.not_isAbsolute_of_whole hwhole, (Path.isIdle_of_isDot hdot).1]
        · exact Path.isAbsolute_join_eq hwhole
      have hrest := ih (fun other hother => whole other (List.mem_cons_of_mem piece hother))
        (entryPath p ⟨piece⟩)
      exact hrest.trans hstep

/-- A directory is shown from where it is seen. -/
theorem isAbsolute_searched_eq (filled : directory.chars ≠ []) :
    (searched directory).isAbsolute = directory.isAbsolute := by
  rw [searched, isAbsolute_descend fun piece hpiece => whole_of_mem_directoryPieces hpiece]
  obtain ⟨c, rest, hchars⟩ := List.exists_cons_of_ne_nil filled
  by_cases hc : c = '/'
  · simp [searchStart, Path.isAbsolute, hchars, isRooted, hc]
  · simp [searchStart, Path.isAbsolute, hchars, isRooted, hc]

/-! ### From the working directory -/

theorem sublist_descend (whole : ∀ piece ∈ pieces, '/' ∉ piece) (p : Path) :
    (descend p pieces).chars.Sublist (p.chars ++ pieces.flatMap ('/' :: ·)) := by
  induction pieces generalizing p with
  | nil => simp [descend]
  | cons piece pieces ih =>
      have hrest := ih (fun other hother => whole other (List.mem_cons_of_mem piece hother))
        (entryPath p ⟨piece⟩)
      have hstep : (entryPath p ⟨piece⟩).chars.Sublist (p.chars ++ '/' :: piece) := by
        unfold entryPath
        split
        · exact (List.sublist_cons_self '/' piece).trans (List.sublist_append_right _ _)
        · exact Path.sublist_join p (whole piece List.mem_cons_self)
      rw [List.flatMap_cons, ← List.append_assoc]
      exact hrest.trans (hstep.append_right _)

/-- One piece means `.` only if it is `.`. -/
theorem eq_of_isDot {piece : List Char} (whole : '/' ∉ piece) (h : isDot ⟨piece⟩ = true) :
    piece = ['.'] := by
  have hidle := Component.ofPiece?_eq_none_iff.1
    (Option.toList_eq_nil_iff.1 ((Path.steps_of_whole whole).symm.trans (Path.steps_of_isDot h)))
  rw [Path.isIdle, Bool.or_eq_true, List.isEmpty_iff, beq_iff_eq] at hidle
  refine hidle.resolve_left fun hempty => ?_
  rw [hempty] at h
  cases h

/-- A piece behind a path that does not mean `.` does not make it mean that. -/
theorem not_isDot_join {piece : List Char} (filled : p.chars ≠ []) (whole : '/' ∉ piece)
    (hdot : isDot p = false) : isDot (p.join ⟨piece⟩) = false := by
  rw [← Bool.not_eq_true]
  intro hjoin
  have hmeaning := Path.components_join_eq filled (Path.not_isAbsolute_of_whole whole)
  rw [Path.same_iff.1 hjoin, Path.steps_of_whole whole] at hmeaning
  cases hpiece : Component.ofPiece? piece with
  | none =>
      rw [hpiece, Option.toList_none, List.append_nil] at hmeaning
      rw [isDot, Path.same_iff.2 hmeaning.symm] at hdot
      cases hdot
  | some step =>
      rw [hpiece, Option.toList_some] at hmeaning
      have hsplit : [] ++ [Component.current] = p.components ++ [step] := hmeaning
      have hlast : [Component.current] = [step] := (List.append_inj' hsplit rfl).2
      rw [← List.singleton_inj.1 hlast] at hpiece
      exact Component.ofPiece?_ne_current piece hpiece

/-- What a search comes through is spelled by something, if no empty piece comes right after the
dots. -/
theorem filled_descend (whole : ∀ piece ∈ pieces, '/' ∉ piece) (filled : p.chars ≠ [])
    (htidy : isDot p = true → pieces.find? (· != ['.']) ≠ some []) :
    (descend p pieces).chars ≠ [] := by
  induction pieces generalizing p with
  | nil => exact filled
  | cons piece pieces ih =>
      have hwhole := whole piece List.mem_cons_self
      have hrest : ∀ other ∈ pieces, '/' ∉ other :=
        fun other hother => whole other (List.mem_cons_of_mem piece hother)
      show (descend (entryPath p ⟨piece⟩) pieces).chars ≠ []
      unfold entryPath
      split
      · next hdot =>
        have hfirst := htidy hdot
        by_cases hpiece : piece = ['.']
        · rw [hpiece] at hfirst ⊢
          exact ih hrest (List.cons_ne_nil '.' []) fun _ => hfirst
        · have hfilled : piece ≠ [] := fun hempty => hfirst (by rw [hempty]; rfl)
          exact ih hrest hfilled fun hnext => absurd (eq_of_isDot hwhole hnext) hpiece
      · next hdot =>
        have hnot := not_isDot_join filled hwhole (Bool.not_eq_true _ ▸ hdot)
        refine ih hrest (Path.filled_join (Or.inl filled)) fun hnext => ?_
        rw [hnot] at hnext
        cases hnext

/-- Behind a path that does not mean `.` nothing is left out. -/
theorem descend_of_not_isDot (whole : ∀ piece ∈ pieces, '/' ∉ piece) (filled : p.chars ≠ [])
    (hdot : isDot p = false) :
    isDot (descend p pieces) = false ∧ p.chars <+: (descend p pieces).chars := by
  induction pieces generalizing p with
  | nil => exact ⟨hdot, List.prefix_refl _⟩
  | cons piece pieces ih =>
      have hwhole := whole piece List.mem_cons_self
      have hrest : ∀ other ∈ pieces, '/' ∉ other :=
        fun other hother => whole other (List.mem_cons_of_mem piece hother)
      have hentry : entryPath p ⟨piece⟩ = p.join ⟨piece⟩ := by
        rw [entryPath, hdot, if_neg Bool.false_ne_true]
      obtain ⟨hnext, hprefix⟩ := ih hrest (Path.filled_join (Or.inl filled))
        (not_isDot_join filled hwhole hdot)
      rw [descend, List.foldl_cons, hentry]
      exact ⟨hnext, (Path.prefix_join p hwhole).trans hprefix⟩

/-- So what is come through can be looked up if what is come to can. -/
theorem IsSpellable.of_descend {front : List (List Char)} (whole : ∀ piece ∈ pieces, '/' ∉ piece)
    (filled : p.chars ≠ []) (hdot : isDot p = false) (hfront : front <+: pieces)
    (h : IsSpellable (descend p pieces)) : IsSpellable (descend p front) := by
  obtain ⟨more, rfl⟩ := hfront
  obtain ⟨hnext, hprefix⟩ := descend_of_not_isDot
    (fun piece hpiece => whole piece (List.mem_append_left more hpiece)) filled hdot
  have hfilled := hprefix.ne_nil filled
  have hlonger := (descend_of_not_isDot
    (fun piece hpiece => whole piece (List.mem_append_right front hpiece)) hfilled hnext).2
  rw [descend, List.foldl_append] at h
  exact h.of_sublist hlonger.sublist hfilled

/-- Also from the working directory, unless an empty piece comes right after the dots. -/
theorem IsSpellable.of_descend_dot {front : List (List Char)}
    (whole : ∀ piece ∈ pieces, '/' ∉ piece) (htidy : pieces.find? (· != ['.']) ≠ some [])
    (hfront : front <+: pieces) (h : IsSpellable (descend ⟨['.']⟩ pieces)) :
    IsSpellable (descend ⟨['.']⟩ front) := by
  induction pieces generalizing front with
  | nil => rwa [List.prefix_nil.1 hfront]
  | cons piece pieces ih =>
      have hrest : ∀ other ∈ pieces, '/' ∉ other :=
        fun other hother => whole other (List.mem_cons_of_mem piece hother)
      cases front with
      | nil => exact ⟨by decide, List.cons_ne_nil '.' [], by decide⟩
      | cons first front =>
          obtain ⟨rfl, hothers⟩ := List.cons_prefix_cons.1 hfront
          by_cases hpiece : first = ['.']
          · subst hpiece
            have hnext : IsSpellable (descend ⟨['.']⟩ front) := ih hrest htidy hothers h
            exact hnext
          · have hfilled : first ≠ [] := by
              rintro rfl
              exact htidy rfl
            have hdot : isDot ⟨first⟩ = false := by
              rw [← Bool.not_eq_true]
              exact fun hdot => hpiece (eq_of_isDot (whole first List.mem_cons_self) hdot)
            exact IsSpellable.of_descend (p := ⟨first⟩) hrest hfilled hdot hothers h

/-- A tidy path is searched for from `.` on, by all its pieces. -/
theorem searchStart_of_isTidy (htidy : directory.IsTidy) :
    searchStart directory = ⟨['.']⟩ ∧
      directoryPieces directory.chars = Tree.piecesOf directory := by
  obtain ⟨c, rest, hchars, hc⟩ := htidy.exists_cons
  constructor
  · simp [searchStart, hchars, isRooted, hc]
  · simp [directoryPieces, Tree.piecesOf, hchars, hc]

/-- A search gets to a directory, however long its path is, if there is one by the path that is
shown. -/
theorem isReached_of_isDirectory_searched
    (hfound : directory.isAbsolute = true ∨ directory.IsTidy)
    (h : w.isDirectory (searched directory) = true) : w.IsReached directory := by
  intro front hfront
  obtain ⟨below, hbelow⟩ := isDirectory_iff.1 h
  obtain ⟨hspellable, hwalk⟩ := find_eq_ok_iff.1 hbelow
  refine isDirectory_descend_of_walk hwalk hfront ?_
  have whole : ∀ piece ∈ directoryPieces directory.chars, '/' ∉ piece :=
    fun piece hpiece => whole_of_mem_directoryPieces hpiece
  rcases hfound with habsolute | htidy
  · have hstart : searchStart directory = ⟨['/']⟩ := by
      rw [searchStart, isRooted_of_isAbsolute habsolute, if_pos rfl]
    rw [searched, hstart] at hspellable
    rw [hstart]
    exact hspellable.of_descend whole (List.cons_ne_nil '/' []) rfl hfront
  · obtain ⟨hstart, hpieces⟩ := searchStart_of_isTidy htidy
    rw [searched, hstart] at hspellable
    rw [hstart]
    exact hspellable.of_descend_dot whole (hpieces ▸ htidy) hfront

/-- **From the working directory.** A search gets to every relative directory that is spelled
tidily. -/
theorem isReached_of_isTidy (htidy : directory.IsTidy)
    (hdirectory : w.isDirectory directory = true) : w.IsReached directory := by
  refine isReached_of_isDirectory_searched (Or.inr htidy)
    (isDirectory_descend hdirectory (List.prefix_refl _) ?_)
  obtain ⟨hstart, hpieces⟩ := searchStart_of_isTidy htidy
  have whole : ∀ piece ∈ Tree.piecesOf directory, '/' ∉ piece :=
    fun piece hpiece => whole_of_mem_directoryPieces (hpieces ▸ hpiece)
  rw [hstart, hpieces]
  refine (isSpellable_of_isDirectory hdirectory).of_sublist ?_
    (filled_descend whole (List.cons_ne_nil '.' []) fun _ => htidy)
  obtain ⟨first, others, hcons⟩ :=
    List.exists_cons_of_ne_nil (Text.pieces_ne_nil (· == '/') directory.chars)
  have hcons : Tree.piecesOf directory = first :: others := hcons
  rw [Text.eq_append_flatMap_of_pieces hcons]
  rw [hcons] at whole ⊢
  -- the first piece is shown without the `.` before it
  exact sublist_descend
    (fun piece hpiece => whole piece (List.mem_cons_of_mem first hpiece)) ⟨first⟩

/-- **Where a search gets to**: every directory from the root, and from the working directory those
that are spelled tidily. -/
theorem isReached_of_isAbsolute_or_isTidy (h : directory.isAbsolute = true ∨ directory.IsTidy)
    (hdirectory : w.isDirectory directory = true) : w.IsReached directory := by
  rcases h with habsolute | htidy
  · exact (isSearchable_of_isAbsolute habsolute hdirectory).isReached
  · exact isReached_of_isTidy htidy hdirectory

/-- What is found there is shown behind the directory, unless it is the working directory. -/
theorem isSearchable_of_isTidy (htidy : directory.IsTidy) (hsteps : directory.steps ≠ [])
    (hdirectory : w.isDirectory directory = true) : w.IsSearchable directory where
  reached := isReached_of_isTidy htidy hdirectory
  shown := by
    rw [← Bool.not_eq_true]
    intro hdot
    exact hsteps (steps_searched directory ▸ Path.steps_of_isDot hdot)

/-! ### Directories that are missed -/

/-- There is nothing at the empty path. -/
theorem not_isPresent_empty (w : World) : w.isPresent ⟨[]⟩ = false := by
  have hfound : w.isFound ⟨[]⟩ = false := rfl
  have hlink : w.isLink ⟨[]⟩ = false := by
    unfold isLink
    split
    · rfl
    · simp [Tree.piecesOf, Text.pieces, Tree.Move.ofPiece]
  rw [isPresent, hfound, hlink, Bool.false_or]

/-- After the dots an empty piece leads to nothing. -/
theorem expand_of_find?_empty {directoriesOnly : Bool}
    (h : pieces.find? (· != ['.']) = some []) (rest : List Segment) :
    w.expand directoriesOnly (pieces.map Segment.ofPiece ++ rest) (w.reach ⟨['.']⟩) = [] := by
  induction pieces with
  | nil => cases h
  | cons piece pieces ih =>
      have hplain : ∀ plain : List Char, plain.all (fun c => !isMeta c) = true →
          Segment.ofPiece plain = .literal plain :=
        fun plain hall => Segment.ofPiece_of_plain (literal_of_all hall)
      have hentry : ∀ name : Path, entryPath (w.reach ⟨['.']⟩).path name = name := fun _ => rfl
      rw [List.map_cons, List.cons_append]
      by_cases hpiece : piece = ['.']
      · rw [hpiece, List.find?_cons_of_neg (by simp)] at h
        rw [hpiece, hplain ['.'] (by decide), expand, if_pos (Or.inl rfl), hentry, ih h, ite_self]
      · rw [List.find?_cons_of_pos (by simpa using hpiece), Option.some.injEq] at h
        rw [h, hplain [] rfl, expand, hentry, not_isPresent_empty]
        rfl

/-- **No search gets there.** Below a relative directory that is not spelled tidily nothing is
found, whatever is in it. -/
theorem glob_of_not_isTidy (hrelative : directory.isAbsolute = false)
    (filled : directory.chars ≠ []) (htidy : ¬ directory.IsTidy) {last : List Char}
    {read : List Token} (whole : '/' ∉ last) (hlast : last ≠ []) (hread : tokens last = .ok read) :
    w.glob (escape directory.chars ++ '/' :: last) = .ok [] := by
  obtain ⟨c, rest, hchars⟩ := List.exists_cons_of_ne_nil filled
  have hc : c ≠ '/' := by simpa [Path.isAbsolute, hchars] using hrelative
  have hpieces : directoryPieces directory.chars = Text.pieces (· == '/') directory.chars := by
    simp [directoryPieces, hchars, hc]
  have hstart : searchStart directory = ⟨['.']⟩ := by simp [searchStart, hchars, isRooted, hc]
  unfold World.glob
  rw [PathPattern.read_escape_append directory.chars whole hlast hread]
  show Except.ok (w.expand false _ (w.reach (searchStart directory))) = _
  rw [hstart, hpieces, expand_of_find?_empty (not_not.1 htidy)]

end World

end ExtensionPlan
