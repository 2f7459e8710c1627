import ExtensionPlan.Glob.Search
import ExtensionPlan.Proofs.Glob.Descent

/-!
# ExtensionPlan.Proofs.Glob.Search

**What a search finds.** The components before the last one each stand for a piece of a directory,
so a search that gets past them has come to that directory, by the pieces and in no other way
(`World.exists_reached_of_mem_expand`). A last component with a star finds entries of it only, and
their names match (`World.exists_entry_of_mem_glob`).
-/

namespace ExtensionPlan.World

open Glob

variable {w : World}

/-! ### Entries -/

/-- The file name of an entry is its name, however its directory is spelled. -/
theorem fileName?_entryPath (directory : Path) {name : List Char} (h : IsName name) :
    (entryPath directory ⟨name⟩).fileName? = some name := by
  unfold entryPath
  split
  · exact Path.fileName?_of_isName h
  · exact Path.fileName?_join directory h

theorem path_reachEntry (w : World) (p : Path) (entry : Entry) :
    (w.reachEntry p entry).path = p := by
  cases entry <;> rfl

/-- What is listed of a directory are its entries. -/
theorem path_of_mem_listing {directory : Path} {entries : List (FileName × Reached)}
    {entry : FileName × Reached} (h : w.listing directory = .ok entries) (hmem : entry ∈ entries) :
    w.HasEntry directory entry.1 ∧ entry.2.path = entryPath directory entry.1.path := by
  unfold listing at h
  split at h
  · cases h
  · next found hfound =>
    cases h
    obtain ⟨⟨name, node⟩, hnode, rfl⟩ := List.mem_map.1 hmem
    have hname := List.mem_map_of_mem (f := Prod.fst) (Sorted.mem_ofList.1 hnode)
    exact ⟨⟨found, hfound, hname⟩, path_reachEntry w _ node⟩

/-! ### Searching -/

section Expand

variable {directoriesOnly : Bool} {r : Reached} {p : Path}

theorem path_of_mem_expand_nil (h : .ok p ∈ w.expand directoriesOnly [] r) : p = r.path := by
  rw [expand] at h
  split at h
  · cases h
  · simpa using h

/-- Tokens that stand neither for `.` nor for `..` are looked for among the entries only. -/
def PassDots (tokens : List Token) : Prop :=
  tokens.head? = some (.char '.') → ∀ name ∈ [['.', '.'], ['.']], covers tokens name = false

theorem expand_wild {tokens : List Token} (hdots : PassDots tokens) (rest : List Segment)
    (hdirectory : r.isDirectory = true) {entries : List (FileName × Reached)}
    (hentries : w.listing r.path = .ok entries) :
    w.expand directoriesOnly (.wild tokens :: rest) r = entries.flatMap fun entry =>
      if covers tokens entry.1.chars then w.expand directoriesOnly rest entry.2 else [] := by
  have hspecial : (if tokens.head? = some (.char '.') then
      [['.', '.'], ['.']].filter (covers tokens) else []) = [] := by
    split
    · next hhead => simpa using hdots hhead
    · rfl
  rw [expand, if_pos hdirectory, hentries]
  dsimp only
  rw [hspecial, List.flatMap_nil, List.nil_append]

theorem exists_entry_of_mem_expand_wild {tokens : List Token} {rest : List Segment}
    (hdots : PassDots tokens) (h : .ok p ∈ w.expand directoriesOnly (.wild tokens :: rest) r) :
    ∃ entry : FileName × Reached, w.HasEntry r.path entry.1 ∧
      entry.2.path = entryPath r.path entry.1.path ∧ covers tokens entry.1.chars = true ∧
        .ok p ∈ w.expand directoriesOnly rest entry.2 := by
  by_cases hdirectory : r.isDirectory = true
  · cases hentries : w.listing r.path with
    | error e =>
        rw [expand, if_pos hdirectory, hentries] at h
        cases List.mem_singleton.1 h
    | ok entries =>
        rw [expand_wild hdots rest hdirectory hentries] at h
        obtain ⟨entry, hentry, h⟩ := List.mem_flatMap.1 h
        split at h
        · next hcovers =>
          obtain ⟨hname, hpath⟩ := path_of_mem_listing hentries hentry
          exact ⟨entry, hname, hpath, hcovers, h⟩
        · cases h
  · rw [expand, if_neg hdirectory] at h
    cases h

/-- A piece with characters of meaning is neither of the names that lead elsewhere. -/
theorem passDots_of_meta {piece : List Char} (h : ∃ c ∈ piece, isMeta c = true) :
    PassDots (piece.map escapeToken) := by
  intro _ name hname
  rw [← Bool.not_eq_true, covers_map_escapeToken]
  rintro rfl
  obtain ⟨c, hc, hmeta⟩ := h
  have hc' : c = '.' := by
    simp only [List.mem_cons, List.not_mem_nil, or_false] at hname
    rcases hname with rfl | rfl
    · simpa using hc
    · simpa using hc
  rw [hc'] at hmeta
  cases hmeta

/-- The components that stand for pieces are passed by those pieces only. -/
theorem exists_reached_of_mem_expand {pieces : List (List Char)} {last : Segment}
    (h : .ok p ∈ w.expand directoriesOnly (pieces.map Segment.ofPiece ++ [last]) r) :
    ∃ reached : Reached, reached.path = descend r.path pieces ∧
      .ok p ∈ w.expand directoriesOnly [last] reached := by
  induction pieces generalizing r with
  | nil => exact ⟨r, rfl, h⟩
  | cons piece pieces ih =>
      rw [List.map_cons, List.cons_append] at h
      by_cases hmeta : ∃ c ∈ piece, isMeta c = true
      · rw [Segment.ofPiece_of_meta hmeta] at h
        obtain ⟨entry, -, hpath, hcovers, h⟩ :=
          exists_entry_of_mem_expand_wild (passDots_of_meta hmeta) h
        obtain ⟨reached, hreached, hlast⟩ := ih h
        have hname : entry.1.path = ⟨piece⟩ := by
          rw [FileName.path, covers_map_escapeToken.1 hcovers]
        rw [hpath, hname] at hreached
        exact ⟨reached, hreached, hlast⟩
      · rw [Segment.ofPiece_of_plain (by simpa using hmeta), expand] at h
        -- whichever way it is found, the search goes on from the same path
        have hnext : .ok p ∈ w.expand directoriesOnly (pieces.map Segment.ofPiece ++ [last])
            (w.reach (entryPath r.path ⟨piece⟩)) := (List.mem_ite_nil_right.1 h).2
        obtain ⟨reached, hreached, hlast⟩ := ih hnext
        exact ⟨reached, hreached, hlast⟩

end Expand

/-- **What is found below a directory.** All that a pattern with a star or a class in its last
component finds is an entry of the directory, and that component matches its name. -/
theorem exists_entry_of_mem_glob {directory : Path} {last : List Char} {read : List Token}
    {found : List (Except Unlisted Path)} {p : Path} (whole : '/' ∉ last) (filled : last ≠ [])
    (hread : tokens last = .ok read) (hwild : Segment.ofTokens read = .wild read)
    (hdot : read.head? ≠ some (.char '.'))
    (h : w.glob (escape directory.chars ++ '/' :: last) = .ok found) (hp : .ok p ∈ found) :
    ∃ name : FileName, w.HasEntry (searched directory) name ∧
      p = entryPath (searched directory) name.path ∧ covers read name.chars = true := by
  unfold glob at h
  rw [PathPattern.read_escape_append directory.chars whole filled hread, hwild] at h
  cases h
  obtain ⟨reached, hreached, hlast⟩ := exists_reached_of_mem_expand hp
  have hplace : reached.path = searched directory := hreached
  obtain ⟨entry, hname, hpath, hcovers, hentry⟩ :=
    exists_entry_of_mem_expand_wild (fun hhead => absurd hhead hdot) hlast
  rw [path_of_mem_expand_nil hentry, hpath, ← hplace]
  exact ⟨entry.1, hname, rfl, hcovers⟩

end ExtensionPlan.World
