import ExtensionPlan.Proofs.Artifact.Growth

/-!
# ExtensionPlan.Proofs.Artifact.Includes

**The include directories of an artifact.** The directories of the tensor runtime are registered
three times, each time with a companion: the source directory, the one above it and the one of the
bindings. Those of the binding library come last. A compiler is told every directory once, where it
was registered first (`Artifact.IncludesOnce`).

So it does not matter that the tensor runtime is registered more than once
(`Artifact.dedup_flatMap_concat`), whichever of the directories coincide and in whatever spellings
(`Artifact.includesOnce_afterAll`).
-/

namespace ExtensionPlan

namespace Artifact

/-! ### Repeated registrations -/

/-- A block that is registered anew with each companion counts once, before all of them. -/
theorem dedup_flatMap_concat (block : List Path) {companions : List Path} (hne : companions ≠ [])
    (back : List Path) :
    Path.dedup ((companions.flatMap fun companion => block ++ [companion]) ++ back) =
      Path.dedup (block ++ (companions ++ back)) := by
  -- whatever stands between the first block and another one, the other one is absorbed
  have hrest : ∀ (companions front : List Path), (∀ q ∈ block, q.isIn front = true) →
      Path.dedup (front ++ ((companions.flatMap fun companion => block ++ [companion]) ++ back)) =
        Path.dedup (front ++ (companions ++ back)) := by
    intro companions
    induction companions with
    | nil => intro front _; rfl
    | cons companion companions ih =>
        intro front hfront
        have hlonger : ∀ q ∈ block, q.isIn (front ++ [companion]) = true := fun q hq => by
          rw [Path.isIn_append, hfront q hq, Bool.true_or]
        rw [List.flatMap_cons, List.append_assoc, List.append_assoc, Path.dedup_absorb hfront,
          List.singleton_append, List.append_cons, ih _ hlonger, ← List.append_cons,
          List.cons_append]
  obtain ⟨companion, companions, rfl⟩ := List.exists_cons_of_ne_nil hne
  have hblock : ∀ q ∈ block, q.isIn (block ++ [companion]) = true := fun q hq =>
    Path.isIn_iff.2 ⟨q, List.mem_append_left _ hq, Path.same_refl q⟩
  rw [List.flatMap_cons, List.append_assoc, hrest companions _ hblock, List.append_assoc,
    List.singleton_append, List.cons_append]

/-! ### What a compiler is told -/

/-- The include directories of the artifact are the paths of the list, each of them once and where
it comes first. -/
structure IncludesOnce (a : Artifact) (dirs : List Path) : Prop where
  distinct : a.includeDirs.Pairwise fun p q => p.same q = false
  /-- Nothing is added: they are spelled as they were registered. -/
  registered : ∀ p ∈ a.includeDirs,
    (∃ rule ∈ a.includeRules, p ∈ rule.dirs) ∨ p ∈ a.interfaceIncludes
  /-- Nothing is lost. -/
  isIn_iff : ∀ p : Path, p.isIn a.includeDirs = true ↔
    (∃ rule ∈ a.includeRules, p.isIn rule.dirs = true) ∨ p.isIn a.interfaceIncludes = true
  eq_eraseDupsBy : a.includeDirs = dirs.eraseDupsBy Path.same
  /-- What they mean, and in which order, depends on what the paths of the list mean only. -/
  meanings : a.includeDirs.map Path.components = (dirs.map Path.components).eraseDups

/-- If the list without repeats is that of all registrations then it says what is included. -/
theorem includesOnce_of_dedup {a : Artifact} {dirs : List Path}
    (h : a.includeDirs = Path.dedup dirs) : a.IncludesOnce dirs where
  distinct := h ▸ Path.pairwise_dedup dirs
  registered := by
    intro p hp
    simpa using Path.mem_of_mem_dedup hp
  isIn_iff := by
    intro p
    simp only [includeDirs, Path.isIn_dedup, Path.isIn_append, Bool.or_eq_true, Path.isIn_iff,
      List.mem_flatMap]
    refine or_congr_left ⟨?_, ?_⟩
    · rintro ⟨q, ⟨rule, hrule, hq⟩, hsame⟩
      exact ⟨rule, hrule, q, hq, hsame⟩
    · rintro ⟨rule, hrule, q, hq, hsame⟩
      exact ⟨q, ⟨rule, hrule, hq⟩, hsame⟩
  eq_eraseDupsBy := h.trans (Path.dedup_eq_eraseDupsBy dirs)
  meanings := by rw [h, Path.map_components_dedup]

/-- **Every include directory once.** An assembled artifact has a rule for each of the three
companions, also after any changes. Its include directories are those of the tensor runtime, the
companions and those of the binding library, each meaning once and where it comes first. -/
theorem includesOnce_afterAll {c : Configuration} {t : Toolchain} {s : SourceSet} {w : World}
    {a : Artifact} (h : assemble c t s w = .ok a) (changes : List Change) :
    ∃ dir parent bindings, c.sourceDirectory w = .ok dir ∧ c.parentDirectory w = .ok parent ∧
      c.bindingsDirectory w = .ok bindings ∧
      (a.afterAll changes).includeRules = [⟨t.tensor.includeDirs ++ [dir]⟩,
        ⟨t.tensor.includeDirs ++ [parent]⟩, ⟨t.tensor.includeDirs ++ [bindings]⟩] ∧
      (a.afterAll changes).interfaceIncludes = t.binding.includeDirs ∧
      (a.afterAll changes).IncludesOnce
        (t.tensor.includeDirs ++ [dir, parent, bindings] ++ t.binding.includeDirs) := by
  obtain ⟨-, dir, hdir, parent, hparent, bindings, hbindings, ha⟩ := assemble_eq_ok_iff.1 h
  have grown : Grown a _ _ _ := Grown.afterAll (by rw [ha]) (by rw [ha]) changes
  have hrules : (a.afterAll changes).includeRules = [dir, parent, bindings].map fun companion =>
      ⟨t.tensor.includeDirs ++ [companion]⟩ := grown.includeRules.trans (by rw [ha])
  have hinterface : (a.afterAll changes).interfaceIncludes = t.binding.includeDirs :=
    grown.interfaceIncludes.trans (by rw [ha])
  refine ⟨dir, parent, bindings, hdir, hparent, hbindings, hrules, hinterface,
    includesOnce_of_dedup ?_⟩
  rw [includeDirs, hrules, hinterface, List.flatMap_map, List.append_assoc]
  exact dedup_flatMap_concat t.tensor.includeDirs (List.cons_ne_nil dir _) t.binding.includeDirs

/-- A toolchain with directories in other spellings of those that the sources are in. -/
def nestedToolchain : Toolchain :=
  { plainToolchain with
    binding := { plainToolchain.binding with includeDirs := ["/s//include", "/b/include", "/."] }
    tensor := { plainToolchain.tensor with includeDirs := ["/s/include", "/s/./"] } }

/-- The source directory is one of the tensor runtime's, the directory of the bindings is the source
directory again, and the one above is among those of the binding library. -/
theorem includesOnce_afterAll_nested :
    ∃ a, assemble { Configuration.ofSourceDir "/s" .table with bindingsDirName := "s" }
        nestedToolchain ⟨["/s/a.cc"], [], []⟩ plainWorld = .ok a ∧
      (a.afterAll [.link plainWorld .enabled ⟨"k", ["/k"]⟩, .embed]).includeDirs =
        ["/s/include", "/s/./", "/", "/b/include"] := by
  obtain ⟨a, h⟩ : ∃ a, assemble
      { Configuration.ofSourceDir "/s" .table with bindingsDirName := "s" }
      nestedToolchain ⟨["/s/a.cc"], [], []⟩ plainWorld = .ok a := ⟨_, rfl⟩
  refine ⟨a, h, ?_⟩
  obtain ⟨dir, parent, bindings, hdir, hparent, hbindings, -, -, hincludes⟩ :=
    includesOnce_afterAll h [.link plainWorld .enabled ⟨"k", ["/k"]⟩, .embed]
  obtain rfl : Path.ofString "/s" = dir := Except.ok.inj hdir
  obtain rfl : Path.ofString "/" = parent := Except.ok.inj hparent
  obtain rfl : Path.ofString "/s" = bindings := Except.ok.inj hbindings
  rw [hincludes.eq_eraseDupsBy]
  decide

end Artifact

end ExtensionPlan
