import ExtensionPlan.Proofs.Glob.Search

/-!
# ExtensionPlan.Proofs.Glob.Entries

**No directory is missed.** A search passes a component that stands for a piece exactly if the piece
leads to a directory, be it looked up or found among the entries by its characters
(`World.expand_ofPiece`). So it gets to a directory if all that it comes through is there
(`World.IsReached`), and then it finds what the last component of the pattern finds there. Every
directory above one that is there is there as well, so from the root it gets to every directory
(`World.isSearchable_of_isAbsolute`).
-/

namespace ExtensionPlan

/-- If only one key is gone by, what comes of a list is what comes of the pair with that key. -/
theorem flatMap_eq_of_nodup {κ β γ : Type} {pairs : List (κ × β)} {f : κ × β → List γ}
    (hnodup : (pairs.map (·.1)).Nodup) {pair : κ × β} (hmem : pair ∈ pairs)
    (hothers : ∀ other ∈ pairs, other.1 ≠ pair.1 → f other = []) : pairs.flatMap f = f pair := by
  induction pairs with
  | nil => cases hmem
  | cons first rest ih =>
      rw [List.map_cons, List.nodup_cons] at hnodup
      rw [List.flatMap_cons]
      rcases List.mem_cons.1 hmem with rfl | hmem
      · have hrest : rest.flatMap f = [] := by
          rw [List.flatMap_eq_nil_iff]
          intro other hother
          refine hothers other (List.mem_cons_of_mem _ hother) fun hkey => hnodup.1 ?_
          exact hkey ▸ List.mem_map_of_mem (f := Prod.fst) hother
        rw [hrest, List.append_nil]
      · have hfirst : f first = [] := by
          refine hothers first List.mem_cons_self fun hkey => hnodup.1 ?_
          exact hkey ▸ List.mem_map_of_mem (f := Prod.fst) hmem
        rw [hfirst, List.nil_append]
        exact ih hnodup.2 hmem fun other hother => hothers other (List.mem_cons_of_mem _ hother)

theorem flatMap_ite_singleton {α γ : Type} (p : α → Bool) (f : α → γ) (xs : List α) :
    (xs.flatMap fun x => if p x then [f x] else []) = (xs.filter p).map f := by
  induction xs with
  | nil => rfl
  | cons x xs ih =>
      rw [List.flatMap_cons, ih, List.filter_cons]
      cases p x <;> rfl

namespace World

open Glob

variable {w : World} {q : Path} {piece : List Char} {directoriesOnly : Bool}

/-! ### One piece -/

/-- A directory is listed with every entry once. -/
theorem exists_listing {children : List (FileName × Node)}
    (h : w.find q = .ok (.directory children)) :
    ∃ entries, w.listing q = .ok entries ∧ (entries.map (·.1)).Nodup ∧
      (entries.map (·.1)).Perm (children.map (·.1)) ∧
      ∀ child ∈ children,
        (child.1, w.reachEntry (entryPath q child.1.path) child.2.entry) ∈ entries := by
  have hentries := entriesIn_eq_ok_iff.2 ⟨children, h, rfl⟩
  refine ⟨_, by rw [listing, hentries], ?_⟩
  have hperm : (Sorted.ofList (fun a b => nameLe a.1 b.1)
      (children.map fun child => (child.1, child.2.entry))).Perm _ := Sorted.ofList_perm _
  have hnames := hperm.map Prod.fst
  rw [List.map_map] at hnames
  have hnodup : (children.map (·.1)).Nodup := nodup_of_walk (find_eq_ok_iff.1 h).2
  rw [List.map_map]
  refine ⟨hnames.nodup_iff.2 hnodup, hnames, fun child hchild => ?_⟩
  refine List.mem_map.2 ⟨(child.1, child.2.entry), Sorted.mem_ofList.2 ?_, rfl⟩
  exact List.mem_map_of_mem hchild

/-- The entry by which a directory is reached tells, or lets find out, that it is one. -/
theorem exists_entry_of_isDirectory (hname : IsName piece) {children : List (FileName × Node)}
    (hq : w.find q = .ok (.directory children))
    (hnext : w.isDirectory (entryPath q ⟨piece⟩) = true) :
    ∃ child ∈ children, child.1.chars = piece ∧
      w.reachEntry (entryPath q child.1.path) child.2.entry = ⟨entryPath q ⟨piece⟩, true⟩ := by
  obtain ⟨below, hbelow⟩ := isDirectory_iff.1 hnext
  have hwalk := (find_eq_ok_iff.1 hq).2
  have hway := walk_entryPath (w := w) hname.whole q []
  rw [List.append_nil, (find_eq_ok_iff.1 hbelow).2] at hway
  obtain ⟨children', hwalk', name, child, hchars, hchild, hshort⟩ :=
    exists_lookup_of_walk hname hway.symm
  rw [hwalk] at hwalk'
  cases hwalk'
  have hpath : name.path = ⟨piece⟩ := by rw [FileName.path, hchars]
  refine ⟨(name, child), Node.mem_of_lookup hchild, hchars, ?_⟩
  rw [hpath]
  cases child with
  | directory inside => rfl
  | link target => rw [Node.entry, reachEntry, reach, hnext]
  | file file =>
      -- the way led to a directory, so it did not lead here
      have hlink : ∀ target, Node.file file ≠ .link target := by
        intro target h
        cases h
      have henter := walk_enter hwalk hchild hlink hshort
      rw [hchars, ← hway] at henter
      cases henter

/-- A component that stands for a piece is passed to the directory that the piece leads to. -/
theorem expand_ofPiece (whole : '/' ∉ piece) (hq : w.isDirectory q = true)
    (hnext : w.isDirectory (entryPath q ⟨piece⟩) = true) (rest : List Segment) :
    w.expand directoriesOnly (Segment.ofPiece piece :: rest) ⟨q, true⟩ =
      w.expand directoriesOnly rest ⟨entryPath q ⟨piece⟩, true⟩ := by
  by_cases hmeta : ∃ c ∈ piece, isMeta c = true
  · obtain ⟨children, hchildren⟩ := isDirectory_iff.1 hq
    obtain ⟨entries, hentries, hnodup, -, hmem⟩ := exists_listing hchildren
    obtain ⟨child, hchild, hchars, hreach⟩ :=
      exists_entry_of_isDirectory (isName_of_meta hmeta whole) hchildren hnext
    have hentry := hmem child hchild
    rw [hreach] at hentry
    rw [Segment.ofPiece_of_meta hmeta, expand_wild (passDots_of_meta hmeta) rest rfl hentries,
      flatMap_eq_of_nodup hnodup hentry]
    · rw [if_pos (covers_map_escapeToken.2 hchars)]
    · intro other _ hother
      rw [if_neg]
      rw [covers_map_escapeToken, ← hchars]
      intro hsame
      exact hother (FileName.chars_injective hsame)
  · -- a literal piece is looked up, or it is one of the two that are in every directory
    have hfound : (if piece = ['.'] ∨ piece = ['.', '.'] then true
        else w.isPresent (entryPath q ⟨piece⟩)) = true := by
      obtain ⟨below, hbelow⟩ := isDirectory_iff.1 hnext
      have hpresent : w.isPresent (entryPath q ⟨piece⟩) = true := by
        rw [isPresent, isFound_iff.2 ⟨_, hbelow⟩, Bool.true_or]
      rw [hpresent, ite_self]
    rw [Segment.ofPiece_of_plain (by simpa using hmeta), expand]
    dsimp only
    rw [hfound, if_pos rfl, reach, hnext]

/-! ### Many pieces -/

/-- Where every piece leads to a directory the search gets past all of them. -/
theorem expand_descend {pieces : List (List Char)} (whole : ∀ piece ∈ pieces, '/' ∉ piece)
    (h : ∀ front, front <+: pieces → w.isDirectory (descend q front) = true)
    (rest : List Segment) :
    w.expand directoriesOnly (pieces.map Segment.ofPiece ++ rest) ⟨q, true⟩ =
      w.expand directoriesOnly rest ⟨descend q pieces, true⟩ := by
  induction pieces generalizing q with
  | nil => rfl
  | cons piece pieces ih =>
      have hq : w.isDirectory q = true := h [] List.nil_prefix
      have hnext : w.isDirectory (entryPath q ⟨piece⟩) = true := h [piece] ⟨pieces, rfl⟩
      rw [List.map_cons, List.cons_append,
        expand_ofPiece (whole piece List.mem_cons_self) hq hnext]
      refine ih (fun other hother => whole other (List.mem_cons_of_mem piece hother)) ?_
      intro front hfront
      exact h (piece :: front) (List.cons_prefix_cons.2 ⟨rfl, hfront⟩)

/-- What a search for the pieces of a directory comes through on the way to one are directories, as
far as they can be looked up. -/
theorem isDirectory_descend_of_walk {directory : Path} {below : List (FileName × Node)}
    (hwalk : w.walk (searched directory) (Tree.piecesOf (searched directory)) =
      .ok (.directory below))
    {front : List (List Char)} (hfront : front <+: directoryPieces directory.chars)
    (hspellable : IsSpellable (descend (searchStart directory) front)) :
    w.isDirectory (descend (searchStart directory) front) = true := by
  have whole : ∀ piece ∈ front, '/' ∉ piece :=
    fun piece hpiece => whole_of_mem_directoryPieces (hfront.subset hpiece)
  -- the way to the directory goes on from here, or ends here
  obtain ⟨more, hmore⟩ := hfront
  rw [← List.append_nil (Tree.piecesOf _), searched,
    walk_descend fun piece hpiece => whole_of_mem_directoryPieces hpiece, ← hmore] at hwalk
  have hhere := walk_descend (w := w) whole (searchStart directory) []
  rw [List.append_nil, List.append_nil] at hhere
  rw [List.append_nil, ← List.append_assoc] at hwalk
  cases more with
  | nil =>
      rw [List.append_nil] at hwalk
      exact isDirectory_iff.2 ⟨below, find_eq_ok_iff.2 ⟨hspellable, hhere.trans hwalk⟩⟩
  | cons piece more =>
      obtain ⟨children, hchildren⟩ := exists_directory_of_walk hwalk
      exact isDirectory_iff.2 ⟨children, find_eq_ok_iff.2 ⟨hspellable, hhere.trans hchildren⟩⟩

theorem isDirectory_descend {directory : Path} (hdirectory : w.isDirectory directory = true)
    {front : List (List Char)} (hfront : front <+: directoryPieces directory.chars)
    (hspellable : IsSpellable (descend (searchStart directory) front)) :
    w.isDirectory (descend (searchStart directory) front) = true := by
  obtain ⟨below, hbelow⟩ := isDirectory_iff.1 hdirectory
  obtain ⟨hspelled, hwalk⟩ := find_eq_ok_iff.1 hbelow
  have hsearched := walk_searched (w := w) hspelled.filled []
  rw [List.append_nil, List.append_nil, hwalk] at hsearched
  exact isDirectory_descend_of_walk hsearched hfront hspellable

/-! ### Patterns below a directory -/

/-- A search for the pieces of a directory gets to it: each of them leads on to a directory. -/
def IsReached (w : World) (directory : Path) : Prop :=
  ∀ front, front <+: directoryPieces directory.chars →
    w.isDirectory (descend (searchStart directory) front) = true

/-- The search gets to the directory, and what is found in it is shown behind it, which is not so
for `.`. -/
structure IsSearchable (w : World) (directory : Path) : Prop where
  reached : ∀ front, front <+: directoryPieces directory.chars →
    w.isDirectory (descend (searchStart directory) front) = true
  shown : isDot (searched directory) = false

section Reached

variable {directory : Path}

namespace IsReached

theorem expand (h : w.IsReached directory) (rest : List Segment) :
    w.expand directoriesOnly ((directoryPieces directory.chars).map Segment.ofPiece ++ rest)
      (w.reach (searchStart directory)) =
        w.expand directoriesOnly rest ⟨searched directory, true⟩ := by
  have hstart : w.isDirectory (searchStart directory) = true := h [] List.nil_prefix
  rw [reach, hstart, expand_descend (fun piece hpiece => whole_of_mem_directoryPieces hpiece) h,
    searched]

/-- **The search below a directory.** A pattern below a directory that a search gets to finds what
its last component finds in the directory, whatever the directory is called. -/
theorem glob (h : w.IsReached directory) {last : List Char} {read : List Token}
    (whole : '/' ∉ last) (filled : last ≠ []) (hread : tokens last = .ok read) :
    w.glob (escape directory.chars ++ '/' :: last) =
      .ok (w.expand false [Segment.ofTokens read] ⟨searched directory, true⟩) := by
  unfold World.glob
  rw [PathPattern.read_escape_append directory.chars whole filled hread]
  show Except.ok (w.expand false _ (w.reach (searchStart directory))) = _
  rw [h.expand]

theorem isDirectory_searched (h : w.IsReached directory) :
    w.isDirectory (searched directory) = true :=
  h (directoryPieces directory.chars) (List.prefix_refl _)

/-- The directory that the search gets to is the one that is searched. -/
theorem find_searched (h : w.IsReached directory) {children : List (FileName × Node)}
    (hchildren : w.find directory = .ok (.directory children)) :
    w.find (searched directory) = .ok (.directory children) := by
  have hspelled := isSpellable_of_isDirectory h.isDirectory_searched
  obtain ⟨hspellable, hwalk⟩ := find_eq_ok_iff.1 hchildren
  have hsame := walk_searched (w := w) hspellable.filled []
  rw [List.append_nil, List.append_nil, hwalk] at hsame
  exact find_eq_ok_iff.2 ⟨hspelled, hsame⟩

end IsReached

theorem IsSearchable.isReached (h : w.IsSearchable directory) : w.IsReached directory := h.reached

theorem IsSearchable.entryPath_eq (h : w.IsSearchable directory) (name : Path) :
    entryPath (searched directory) name = (searched directory).join name := by
  rw [entryPath, h.shown, if_neg Bool.false_ne_true]

end Reached

section Below

variable {directory : Path} (habsolute : directory.isAbsolute = true)
  (hdirectory : w.isDirectory directory = true)

include habsolute hdirectory

/-- From the root a search gets to every directory. -/
theorem isSearchable_of_isAbsolute : w.IsSearchable directory where
  reached := by
    intro front hfront
    refine isDirectory_descend hdirectory hfront ?_
    obtain ⟨below, hbelow⟩ := isDirectory_iff.1 hdirectory
    have whole : ∀ piece ∈ front, '/' ∉ piece :=
      fun piece hpiece => whole_of_mem_directoryPieces (hfront.subset hpiece)
    rw [searchStart, isRooted_of_isAbsolute habsolute, if_pos rfl]
    have hroot : (descend ⟨['/']⟩ front).isAbsolute = true := by
      rw [descend_of_isAbsolute rfl whole, Path.isAbsolute_foldl_join _ whole]
      rfl
    exact (find_eq_ok_iff.1 hbelow).1.of_sublist (sublist_descend_root habsolute hfront)
      (Path.filled_of_isAbsolute hroot)
  shown := by
    rw [← Bool.not_eq_true]
    intro hdot
    have hrelative := (Path.isIdle_of_isDot hdot).1
    rw [isAbsolute_searched habsolute] at hrelative
    cases hrelative

/-- A pattern below a directory that is there finds what its last component finds in it. -/
theorem glob_below {last : List Char} {read : List Token} (whole : '/' ∉ last)
    (filled : last ≠ []) (hread : tokens last = .ok read) :
    w.glob (escape directory.chars ++ '/' :: last) =
      .ok (w.expand false [Segment.ofTokens read] ⟨searched directory, true⟩) :=
  (isSearchable_of_isAbsolute habsolute hdirectory).isReached.glob whole filled hread

/-- The pattern without a last component finds the directory itself. -/
theorem glob_separator :
    w.glob (escape directory.chars ++ ['/']) = .ok [.ok (searched directory)] := by
  have hfound : w.expand true ((directoryPieces directory.chars).map Segment.ofPiece ++ [])
      (w.reach (searchStart directory)) = w.expand true [] ⟨searched directory, true⟩ :=
    (isSearchable_of_isAbsolute habsolute hdirectory).isReached.expand []
  rw [List.append_nil] at hfound
  unfold glob
  rw [PathPattern.read_escape_separator (Path.filled_of_isAbsolute habsolute)]
  show Except.ok (w.expand true _ (w.reach (searchStart directory))) = _
  rw [hfound]
  rfl

end Below

/-! ### The last component -/

/-- All entries of a directory with a name that matches are found, and nothing else. -/
theorem expand_entries {tokens : List Token} (hdots : PassDots tokens)
    (hq : w.isDirectory q = true) :
    ∃ names : List FileName, names.Nodup ∧
      (∀ name, name ∈ names ↔ w.HasEntry q name ∧ covers tokens name.chars = true) ∧
      w.expand false [.wild tokens] ⟨q, true⟩ =
        (names.map fun name => entryPath q name.path).map .ok := by
  obtain ⟨children, hchildren⟩ := isDirectory_iff.1 hq
  obtain ⟨entries, hentries, hnodup, hperm, -⟩ := exists_listing hchildren
  refine ⟨(entries.map Prod.fst).filter fun name => covers tokens name.chars,
    hnodup.sublist List.filter_sublist, fun name => ?_, ?_⟩
  · rw [List.mem_filter, hperm.mem_iff, hasEntry_iff, hchildren]
    simp
  · have hone : ∀ entry ∈ entries, (if covers tokens entry.1.chars then w.expand false [] entry.2
        else []) = if covers tokens entry.1.chars then
          [Except.ok (entryPath q entry.1.path)] else [] := by
      intro entry hentry
      rw [expand, Bool.false_and, if_neg Bool.false_ne_true,
        (path_of_mem_listing hentries hentry).2]
    rw [expand_wild hdots [] rfl hentries, List.flatMap_congr hone, flatMap_ite_singleton,
      List.filter_map, List.map_map, List.map_map]
    rfl

/-- A name that is looked up is found at least if it leads to a file. -/
theorem expand_name (name : List Char) : ∃ found : Bool,
    w.expand false [.literal name] ⟨q, true⟩ =
      (if found then [.ok (entryPath q ⟨name⟩)] else []) ∧
    (w.isFile (entryPath q ⟨name⟩) = true → found = true) := by
  refine ⟨if name = ['.'] ∨ name = ['.', '.'] then true else w.isPresent (entryPath q ⟨name⟩),
    rfl, fun hfile => ?_⟩
  obtain ⟨file, hfile⟩ := isFile_iff.1 hfile
  have hpresent : w.isPresent (entryPath q ⟨name⟩) = true := by
    rw [isPresent, isFound_iff.2 ⟨_, hfile⟩, Bool.true_or]
  rw [hpresent, ite_self]

end World

end ExtensionPlan
