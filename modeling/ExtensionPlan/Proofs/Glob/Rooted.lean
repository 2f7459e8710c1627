import ExtensionPlan.Proofs.Configuration
import ExtensionPlan.Proofs.Glob.Search
import ExtensionPlan.SourceSet

/-!
# ExtensionPlan.Proofs.Glob.Rooted

**What is found from the root is seen from the root.** A search goes on by joining names to the path
on which it has come, so wherever it comes from a path that begins at the root, it comes to such
paths only, and each kind of component keeps to this (`World.isAbsolute_of_mem_expand`). The pattern
for the sources of a directory begins as the directory does, so the sources of a directory that is
seen from the root are seen from there (`SourceSet.isAbsolute_of_mem_findIn`).
-/

namespace ExtensionPlan

namespace World

open Glob

variable {w : World} {r : Reached} {p : Path}

theorem isAbsolute_entryPath (h : p.isAbsolute = true) (name : Path) :
    (entryPath p name).isAbsolute = true := by
  rw [entryPath_of_isAbsolute h]
  exact Path.isAbsolute_join h name

theorem isAbsolute_of_mem_listing {entries : List (FileName × Reached)}
    {entry : FileName × Reached} (hp : p.isAbsolute = true) (h : w.listing p = .ok entries)
    (hmem : entry ∈ entries) : entry.2.path.isAbsolute = true := by
  rw [(path_of_mem_listing h hmem).2]
  exact isAbsolute_entryPath hp _

/-- However deep an entry lies. -/
theorem isAbsolute_of_mem_below {depth : Nat} {entry : FileName × Reached}
    (hr : r.path.isAbsolute = true) (h : .ok entry ∈ w.below depth r) :
    entry.2.path.isAbsolute = true := by
  induction depth generalizing r with
  | zero => cases h
  | succ depth ih =>
      rw [below] at h
      split at h
      · split at h
        · simp at h
        · next entries hentries =>
          obtain ⟨first, hfirst, hmem⟩ := List.mem_flatMap.1 h
          have habsolute := isAbsolute_of_mem_listing hr hentries hfirst
          rcases List.mem_cons.1 hmem with heq | hmem
          · rw [Except.ok.injEq] at heq
            rw [heq]
            exact habsolute
          · exact ih habsolute hmem
      · cases h

/-- **From the root** every component leads to paths that begin there. -/
theorem isAbsolute_of_mem_expand {directoriesOnly : Bool} {segments : List Segment}
    (hr : r.path.isAbsolute = true) (h : .ok p ∈ w.expand directoriesOnly segments r) :
    p.isAbsolute = true := by
  fun_induction w.expand directoriesOnly segments r with
  | case1 | case4 | case7 => cases h
  | case2 r =>
      rw [List.mem_singleton, Except.ok.injEq] at h
      rw [h]
      exact hr
  | case3 name rest r next found hfound ih => exact ih (isAbsolute_entryPath hr _) h
  | case5 =>
      rw [List.mem_singleton] at h
      cases h
  | case6 tokens rest r hdirectory entries hentries special ihspecial ih =>
      rcases List.mem_append.1 h with h | h
      · obtain ⟨name, -, h⟩ := List.mem_flatMap.1 h
        exact ihspecial name (Path.isAbsolute_join hr _) h
      · obtain ⟨entry, hentry, h⟩ := List.mem_flatMap.1 h
        split at h
        · exact ih entry (isAbsolute_of_mem_listing hr hentries hentry) h
        · cases h
  | case8 r =>
      obtain ⟨answer, hmem, h⟩ := List.mem_filterMap.1 h
      cases answer with
      | error e => cases h
      | ok entry =>
          dsimp only at h
          split at h
          · cases h
            exact isAbsolute_of_mem_below hr hmem
          · cases h
  | case9 segment rest r ih =>
      obtain ⟨answer, hmem, h⟩ := List.mem_flatMap.1 h
      cases answer with
      | error e =>
          rw [List.mem_singleton] at h
          cases h
      | ok entry =>
          dsimp only at h
          split at h
          · exact ih entry (isAbsolute_of_mem_below hr hmem) h
          · cases h

theorem rooted_of_read {text : List Char} {pattern : PathPattern}
    (h : PathPattern.read text = .ok pattern) : pattern.rooted = (text.head? == some '/') := by
  unfold PathPattern.read at h
  obtain ⟨read, -, h⟩ := bind_eq_ok_iff.1 h
  obtain ⟨segments, -, h⟩ := bind_eq_ok_iff.1 h
  rw [pure_eq_ok_iff] at h
  rw [← h]

/-- A pattern that begins at the root finds paths that do. -/
theorem isAbsolute_of_mem_glob {text : List Char} {found : List (Except Unlisted Path)}
    (htext : text.head? = some '/') (h : w.glob text = .ok found) (hp : .ok p ∈ found) :
    p.isAbsolute = true := by
  unfold glob at h
  obtain ⟨pattern, hpattern, h⟩ := bind_eq_ok_iff.1 h
  have hrooted : pattern.rooted = true := by
    rw [rooted_of_read hpattern, htext]
    rfl
  rw [pure_eq_ok_iff, if_pos hrooted] at h
  rw [← h] at hp
  exact isAbsolute_of_mem_expand rfl hp

end World

namespace SourceSet

variable {c : Configuration} {w : World} {s : SourceSet}

/-- The files of a directory that is seen from the root are seen from the root. -/
theorem isAbsolute_of_mem_findIn {dir : Path} {pattern : String} {setting : Setting}
    {files : List Path} (hdir : dir.isAbsolute = true)
    (h : findIn w dir pattern setting = .ok files) : ∀ p ∈ files, p.isAbsolute = true := by
  have hhead : (Glob.escape dir.chars ++ '/' :: pattern.toList).head? = some '/' := by
    obtain ⟨rest, hrest⟩ := Path.isAbsolute_iff.1 hdir
    rw [hrest]
    rfl
  intro p hp
  unfold findIn at h
  split at h
  · split at h
    · next found hfound =>
      obtain ⟨paths, hpaths, h⟩ := bind_eq_ok_iff.1 h
      rw [pure_eq_ok_iff] at h
      rw [← h] at hp
      have hmem := (List.mem_filter.1 (Sorted.mem_ofList.1 hp)).1
      obtain ⟨answer, hanswer, rfl⟩ :=
        exists_of_mapM_eq_ok (mapError_eq_ok_iff.1 hpaths) hmem
      exact World.isAbsolute_of_mem_glob hhead hfound hanswer
    · cases h
  · cases h
    cases hp

/-- **Sources are seen from the root**, however the source directory is spelled. -/
theorem isAbsolute_of_discover (h : discover c w = .ok s) :
    ∀ p ∈ s.native ++ s.bindings ++ s.kernels, p.isAbsolute = true := by
  unfold discover at h
  simp only [bind_eq_ok_iff, pure_eq_ok_iff] at h
  obtain ⟨dir, hdir, native, hnative, bindingsDir, hbindingsDir, bindings, hbindings, kernels,
    hkernels, rfl⟩ := h
  have hsource := Configuration.isAbsolute_of_sourceDirectory hdir
  have hbeside := Configuration.isAbsolute_of_bindingsDirectory hbindingsDir
  intro p hp
  rcases List.mem_append.1 hp with hp | hp
  · rcases List.mem_append.1 hp with hp | hp
    · exact isAbsolute_of_mem_findIn hsource hnative p hp
    · exact isAbsolute_of_mem_findIn hbeside hbindings p hp
  · exact isAbsolute_of_mem_findIn hsource hkernels p hp

end SourceSet

end ExtensionPlan
