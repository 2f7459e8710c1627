import ExtensionPlan.Proofs.Glob.Escape
import ExtensionPlan.Proofs.World.Walk

/-!
# ExtensionPlan.Proofs.Glob.Descent

**The spelling of what is found.** A search goes down from the root or from `.`, one piece of the
directory after the other, and shows what it finds by the way it came (`World.searched`). So a
directory may be shown in a spelling that is not its own. It leads to the same place all the same,
through removed working directories and links (`World.walk_searched`), and seen from the root it is
the same path, spelled with no other characters (`World.respells_searched`).
-/

namespace ExtensionPlan

/-! ### The directory `.` -/

/-- No piece between separators stands for the `.` that begins a path. -/
theorem Component.ofPiece?_ne_current (piece : List Char) :
    Component.ofPiece? piece ≠ some .current := by
  unfold Component.ofPiece?
  split
  · simp
  · split <;> simp

namespace Path

variable {p : Path}

theorem isIdle_of_filterMap_eq_nil {pieces : List (List Char)}
    (h : pieces.filterMap Component.ofPiece? = []) : ∀ piece ∈ pieces, isIdle piece = true := by
  intro piece hpiece
  exact Component.ofPiece?_eq_none_iff.1 (List.filterMap_eq_nil_iff.1 h piece hpiece)

/-- A path that means `.` has nothing in it but pieces that stand for nothing. -/
theorem isIdle_of_isDot (h : World.isDot p = true) :
    p.isAbsolute = false ∧ ∀ piece ∈ Tree.piecesOf p, isIdle piece = true := by
  have hmeaning : p.components = [.current] := same_iff.1 h
  rw [components, leadComponents, body] at hmeaning
  unfold Tree.piecesOf
  rcases lead_cases p with ⟨rest, -, hlead⟩ | ⟨hchars, -⟩ | ⟨rest, hchars, hlead⟩ | hlead
  · simp [hlead] at hmeaning
  · simp [isAbsolute, hchars, Text.pieces, isIdle]
  · have hrest : (Text.pieces (· == '/') ('/' :: rest)).filterMap Component.ofPiece? = [] := by
      simpa [hlead, hchars] using hmeaning
    refine ⟨by simp [isAbsolute, hchars], fun piece hpiece => ?_⟩
    rw [hchars] at hpiece
    rcases List.mem_cons.1 hpiece with rfl | hpiece
    · rfl
    · exact isIdle_of_filterMap_eq_nil hrest piece (List.mem_cons_of_mem [] hpiece)
  · have hbody : (Text.pieces (· == '/') p.chars).filterMap Component.ofPiece? =
        [.current] := by simpa [hlead] using hmeaning
    obtain ⟨piece, -, hpiece⟩ := List.mem_filterMap.1 (hbody ▸ List.mem_singleton_self _)
    exact absurd hpiece (Component.ofPiece?_ne_current piece)

end Path

namespace World

open Glob

variable {w : World} {p : Path} {name : List Char}

/-! ### One piece -/

theorem entryPath_of_isAbsolute (h : p.isAbsolute = true) (q : Path) :
    entryPath p q = p.join q := by
  have hdot : isDot p = false := by
    rw [← Bool.not_eq_true]
    intro hdot
    rw [(Path.isIdle_of_isDot hdot).1] at h
    cases h
  rw [entryPath, hdot, if_neg Bool.false_ne_true]

/-- Going along the path of an entry is going along the directory and then on by the piece. -/
theorem walk_entryPath (whole : '/' ∉ name) (p : Path) (back : List (List Char)) :
    w.walk (entryPath p ⟨name⟩) (Tree.piecesOf (entryPath p ⟨name⟩) ++ back) =
      w.walk p (Tree.piecesOf p ++ name :: back) := by
  unfold entryPath
  split
  · next hdot =>
    obtain ⟨hrelative, hidle⟩ := Path.isIdle_of_isDot hdot
    have hname : Tree.piecesOf ⟨name⟩ = [name] := Text.pieces_of_not_mem whole
    rw [hname, List.singleton_append, walk_idles hidle]
    exact walk_congr (by rw [hrelative, Path.not_isAbsolute_of_whole whole]) _
  · exact walk_join whole p back

/-! ### Many pieces -/

/-- The path that a search comes to from `start` by the pieces. -/
def descend (start : Path) (pieces : List (List Char)) : Path :=
  pieces.foldl (fun p piece => entryPath p ⟨piece⟩) start

/-- Going along the path to which the pieces led is going along the start and then on by them. -/
theorem walk_descend {pieces : List (List Char)} (whole : ∀ piece ∈ pieces, '/' ∉ piece)
    (start : Path) (back : List (List Char)) :
    w.walk (descend start pieces) (Tree.piecesOf (descend start pieces) ++ back) =
      w.walk start (Tree.piecesOf start ++ (pieces ++ back)) := by
  induction pieces generalizing start with
  | nil => rfl
  | cons piece pieces ih =>
      have hrest := ih (fun other h => whole other (List.mem_cons_of_mem piece h))
        (entryPath start ⟨piece⟩)
      exact hrest.trans (walk_entryPath (whole piece List.mem_cons_self) start (pieces ++ back))

/-- From the root on every piece is put behind the ones before it. -/
theorem descend_of_isAbsolute {start : Path} (h : start.isAbsolute = true)
    {pieces : List (List Char)} (whole : ∀ piece ∈ pieces, '/' ∉ piece) :
    descend start pieces = pieces.foldl (fun p piece => p.join ⟨piece⟩) start := by
  induction pieces generalizing start with
  | nil => rfl
  | cons piece pieces ih =>
      have hnext : (start.join ⟨piece⟩).isAbsolute = true := by
        rw [Path.isAbsolute_join_eq (whole piece List.mem_cons_self), h]
      have hrest := ih hnext fun other h => whole other (List.mem_cons_of_mem piece h)
      rw [List.foldl_cons, ← hrest, descend, List.foldl_cons, entryPath_of_isAbsolute h]
      rfl

/-! ### Directories that are searched -/

/-- Where the search for the pieces of a directory begins. -/
def searchStart (directory : Path) : Path :=
  if isRooted directory.chars then ⟨['/']⟩ else ⟨['.']⟩

/-- The spelling in which a search shows a directory. -/
def searched (directory : Path) : Path :=
  descend (searchStart directory) (directoryPieces directory.chars)

theorem whole_of_mem_directoryPieces {directory piece : List Char}
    (h : piece ∈ directoryPieces directory) : '/' ∉ piece := by
  have hpieces : ∀ {text : List Char}, piece ∈ Text.pieces (· == '/') text → '/' ∉ piece := by
    intro text hmem hslash
    have hnot := Text.not_isSeparator_of_mem_pieces hmem '/' hslash
    simp at hnot
  cases directory with
  | nil => cases h
  | cons c rest => exact hpieces h

/-- A directory is the same place in the spelling in which it is shown. -/
theorem walk_searched {directory : Path} (filled : directory.chars ≠ [])
    (back : List (List Char)) :
    w.walk (searched directory) (Tree.piecesOf (searched directory) ++ back) =
      w.walk directory (Tree.piecesOf directory ++ back) := by
  rw [searched, walk_descend fun piece h => whole_of_mem_directoryPieces h]
  obtain ⟨c, rest, hchars⟩ := List.exists_cons_of_ne_nil filled
  by_cases hc : c = '/'
  · have hstart : searchStart directory = ⟨['/']⟩ := by simp [searchStart, hchars, isRooted, hc]
    have hpieces : Tree.piecesOf directory = [] :: Text.pieces (· == '/') rest := by
      simp [Tree.piecesOf, hchars, hc, Text.pieces]
    have hrest : directoryPieces directory.chars = Text.pieces (· == '/') rest := by
      simp [directoryPieces, hchars, hc]
    have habsolute : (Path.mk ['/']).isAbsolute = directory.isAbsolute := by
      simp [Path.isAbsolute, hchars, hc]
    rw [hstart, hpieces, hrest, walk_congr habsolute]
    exact walk_idle rfl [] [] (Text.pieces (· == '/') rest ++ back)
  · have hstart : searchStart directory = ⟨['.']⟩ := by simp [searchStart, hchars, isRooted, hc]
    have hrest : directoryPieces directory.chars = Tree.piecesOf directory := by
      simp [directoryPieces, Tree.piecesOf, hchars, hc]
    have hrelative : (Path.mk ['.']).isAbsolute = directory.isAbsolute := by
      simp [Path.isAbsolute, hchars, hc]
    obtain ⟨first, others, hpieces⟩ := List.exists_cons_of_ne_nil
      (Text.pieces_ne_nil (· == '/') directory.chars)
    rw [hstart, hrest, walk_congr hrelative, Tree.piecesOf, Tree.piecesOf, hpieces]
    exact walk_idle rfl [] first (others ++ back)

/-! ### Directories seen from the root -/

section Absolute

variable {directory : Path}

theorem isRooted_of_isAbsolute (h : directory.isAbsolute = true) :
    isRooted directory.chars = true := by
  obtain ⟨rest, hchars⟩ := Path.isAbsolute_iff.1 h
  simp [hchars, isRooted]

theorem searched_eq_descend (h : directory.isAbsolute = true) :
    searched directory = descend ⟨['/']⟩ (directoryPieces directory.chars) := by
  rw [searched, searchStart, isRooted_of_isAbsolute h, if_pos rfl]

theorem directoryPieces_root (rest : List Char) :
    directoryPieces ('/' :: rest) = Text.pieces (· == '/') rest := rfl

/-- From the root, a directory is shown by its pieces put behind each other. -/
theorem searched_of_isAbsolute (h : directory.isAbsolute = true) :
    searched directory =
      (directoryPieces directory.chars).foldl (fun p piece => p.join ⟨piece⟩) ⟨['/']⟩ := by
  rw [searched_eq_descend h]
  exact descend_of_isAbsolute rfl fun piece hpiece => whole_of_mem_directoryPieces hpiece

theorem isAbsolute_searched (h : directory.isAbsolute = true) :
    (searched directory).isAbsolute = true := by
  rw [searched_of_isAbsolute h, Path.isAbsolute_foldl_join _ fun piece hpiece =>
    whole_of_mem_directoryPieces hpiece]
  rfl

/-- A directory means the same in the spelling in which it is shown. -/
theorem components_searched (h : directory.isAbsolute = true) :
    (searched directory).components = directory.components := by
  obtain ⟨rest, hchars⟩ := Path.isAbsolute_iff.1 h
  have hdirectory : directory = ⟨'/' :: rest⟩ := by rw [← hchars]
  rw [searched_of_isAbsolute h, Path.components_foldl_join rfl fun piece hpiece =>
    whole_of_mem_directoryPieces hpiece, hchars, directoryPieces_root, hdirectory,
    Path.components_root]
  rfl

/-- Pieces behind the root are spelled with nothing but them and separators between them. -/
theorem sublist_foldl_join_root {first : List Char} {others : List (List Char)}
    (whole : ∀ piece ∈ first :: others, '/' ∉ piece) :
    ((first :: others).foldl (fun p piece => p.join ⟨piece⟩) (Path.mk ['/'])).chars.Sublist
      ('/' :: (first ++ others.flatMap ('/' :: ·))) := by
  have hfirst : (Path.mk ['/']).join ⟨first⟩ = ⟨'/' :: first⟩ := by
    have hrelative := Path.not_isAbsolute_of_whole (whole first List.mem_cons_self)
    simp [Path.join, hrelative]
  rw [List.foldl_cons, hfirst]
  exact Path.sublist_foldl_join ⟨'/' :: first⟩ fun piece hpiece =>
    whole piece (List.mem_cons_of_mem first hpiece)

/-- What a search comes through on the way to a directory is spelled by characters of that
directory, in their order. -/
theorem sublist_descend_root (h : directory.isAbsolute = true) {front : List (List Char)}
    (hfront : front <+: directoryPieces directory.chars) :
    (descend ⟨['/']⟩ front).chars.Sublist directory.chars := by
  obtain ⟨rest, hchars⟩ := Path.isAbsolute_iff.1 h
  have whole : ∀ piece ∈ front, '/' ∉ piece :=
    fun piece hpiece => whole_of_mem_directoryPieces (hfront.subset hpiece)
  rw [descend_of_isAbsolute rfl whole, hchars]
  cases front with
  | nil => simp
  | cons first others =>
      obtain ⟨more, hmore⟩ := hfront
      rw [hchars, directoryPieces_root] at hmore
      have htext := Text.eq_append_flatMap_of_pieces hmore.symm
      refine (sublist_foldl_join_root whole).trans ?_
      have hall : (others.append more).flatMap ('/' :: ·) =
          others.flatMap ('/' :: ·) ++ more.flatMap ('/' :: ·) := List.flatMap_append
      rw [htext, hall, ← List.append_assoc]
      exact (List.sublist_append_left _ _).cons_cons '/'

end Absolute

/-! ### Spelled anew -/

/-- The first path is the second one with separators left out: it means the same, is spelled with
no other characters and leads to the same place. -/
structure Respells (w : World) (p q : Path) : Prop where
  same : p.same q = true
  spelling : p.chars.Sublist q.chars
  walk : ∀ back, w.walk p (Tree.piecesOf p ++ back) = w.walk q (Tree.piecesOf q ++ back)

theorem respells_searched {directory : Path} (h : directory.isAbsolute = true) :
    w.Respells (searched directory) directory := by
  refine ⟨Path.same_iff.2 (components_searched h), ?_,
    walk_searched (Path.filled_of_isAbsolute h)⟩
  rw [searched_eq_descend h]
  exact sublist_descend_root h (List.prefix_refl _)

namespace Respells

variable {q : Path}

/-- Going down to a name leads from one spelling to another. -/
theorem join (h : w.Respells p q) (hp : p.isAbsolute = true) (hq : q.isAbsolute = true)
    (whole : '/' ∉ name) : w.Respells (p.join ⟨name⟩) (q.join ⟨name⟩) where
  same := by
    rw [Path.same_iff, Path.components_join hp whole, Path.components_join hq whole,
      Path.same_iff.1 h.same]
  spelling := by
    have hsub := h.spelling
    rcases Path.join_cases q whole with ⟨hempty, -⟩ | ⟨front, hfront, hjoin⟩ | ⟨-, -, hjoin⟩
    · exact absurd hempty (Path.filled_of_isAbsolute hq)
    · rw [hjoin]
      rcases Path.join_cases p whole with
        ⟨hempty, -⟩ | ⟨front', hfront', hjoin'⟩ | ⟨-, hlast, hjoin'⟩
      · exact absurd hempty (Path.filled_of_isAbsolute hp)
      · rw [hfront, hfront', List.append_sublist_append_right] at hsub
        rw [hjoin']
        exact hsub.append_right _
      · -- the separator at the end of `q` is none of the characters of `p`
        rw [hfront] at hsub
        obtain ⟨inside, last, hchars, hinside, hend⟩ := List.sublist_append_iff.1 hsub
        have hnone : last = [] := by
          rcases List.sublist_singleton.1 hend with hend | hend
          · exact hend
          · exact absurd (by simp [hchars, hend]) hlast
        rw [hnone, List.append_nil] at hchars
        rw [hjoin', hchars]
        exact hinside.append_right _
    · rw [hjoin]
      exact (Path.sublist_join p whole).trans (hsub.append_right _)
  walk := by
    intro back
    rw [walk_join whole, walk_join whole, h.walk]

/-- A path leads to what it leads to in a longer spelling. -/
theorem find_eq_ok {node : Node} (h : w.Respells p q) (filled : p.chars ≠ [])
    (hq : w.find q = .ok node) : w.find p = .ok node := by
  obtain ⟨hspellable, hwalk⟩ := find_eq_ok_iff.1 hq
  have hsame := h.walk []
  rw [List.append_nil, List.append_nil] at hsame
  exact find_eq_ok_iff.2 ⟨hspellable.of_sublist h.spelling filled, hsame.trans hwalk⟩

theorem isFile (h : w.Respells p q) (hp : p.isAbsolute = true) (hq : w.isFile q = true) :
    w.isFile p = true := by
  obtain ⟨file, hfile⟩ := isFile_iff.1 hq
  exact isFile_iff.2 ⟨file, h.find_eq_ok (Path.filled_of_isAbsolute hp) hfile⟩

end Respells

/-- The directory that the search comes to is the one that is searched. -/
theorem find_searched {directory : Path} (h : directory.isAbsolute = true) {node : Node}
    (hnode : w.find directory = .ok node) : w.find (searched directory) = .ok node :=
  (respells_searched h).find_eq_ok (Path.filled_of_isAbsolute (isAbsolute_searched h)) hnode

/-- What a file is in is a directory. -/
theorem isDirectory_of_isFile_join {directory : Path} (filled : directory.chars ≠ [])
    (whole : '/' ∉ name) (hfile : w.isFile (directory.join ⟨name⟩) = true) :
    w.isDirectory directory = true := by
  obtain ⟨file, hfile⟩ := isFile_iff.1 hfile
  obtain ⟨hspellable, hwalk⟩ := find_eq_ok_iff.1 hfile
  have hjoin := walk_join (w := w) whole directory []
  rw [List.append_nil, hwalk] at hjoin
  obtain ⟨children, hchildren⟩ := exists_directory_of_walk hjoin.symm
  have hshort := hspellable.of_sublist (Path.prefix_join directory whole).sublist filled
  exact isDirectory_iff.2 ⟨children, find_eq_ok_iff.2 ⟨hshort, hchildren⟩⟩

end World

end ExtensionPlan
