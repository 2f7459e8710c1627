import ExtensionPlan.Artifact.Archive
import ExtensionPlan.Proofs.Path.Distinct
import ExtensionPlan.Proofs.Run
import Mathlib.Data.List.Induction

/-!
# ExtensionPlan.Proofs.Artifact.Growth

**What becomes of an assembled artifact.** After it is assembled an artifact is changed in two
ways only: an archive is linked, or its link directories are embedded for the loader. Linking may
not be wanted and embedding may fail, and then the artifact stays as it is.

`Artifact.Grown` is the invariant of any sequence of such changes. It keeps the archives that were
linked so far and whether an embedding has succeeded; libraries and link directories are functions
of the former. The embedded search path is *older* than the link directories, which may have grown
since, so it is tied to them only as a prefix: a list of distinct paths grows at its end
(`Path.prefix_foldl_register`), and so do its absolute ones.
-/

namespace ExtensionPlan

namespace Artifact

/-! ### Assembling -/

/-- What is assembled: the parts of the toolchain and the sources, nothing to be loaded yet. -/
theorem assemble_eq_ok_iff {c : Configuration} {t : Toolchain} {s : SourceSet} {w : World}
    {a : Artifact} :
    assemble c t s w = .ok a ↔ s.native ≠ [] ∧
      ∃ dir, c.sourceDirectory w = .ok dir ∧ ∃ parent, c.parentDirectory w = .ok parent ∧
      ∃ bindings, c.bindingsDirectory w = .ok bindings ∧
      a =
        { name := c.moduleName
          filename := c.moduleName ++ t.binding.extensionSuffix
          units := unitsOf s
          includeRules := [dir, parent, bindings].map fun companion =>
            ⟨t.tensor.includeDirs ++ [companion]⟩
          interfaceIncludes := t.binding.includeDirs
          compileFlags := (c.flags.merge t.tensor.flags).merge t.binding.moduleFlags
          libraries := [t.tensor.library, t.tensor.bindingLibrary, t.cuda.runtime]
          linkDirs := []
          runtimePath := none } := by
  unfold assemble
  cases hnative : s.native with
  | nil => simp
  | cons first others =>
      simp only [List.isEmpty_cons, Bool.false_eq_true, if_false, bind_eq_ok_iff, pure_eq_ok_iff,
        ne_eq, reduceCtorEq, not_false_eq_true, true_and]
      constructor
      · rintro ⟨dir, hdir, parent, hparent, bindings, hbindings, rfl⟩
        exact ⟨dir, hdir, parent, hparent, bindings, hbindings, rfl⟩
      · rintro ⟨dir, hdir, parent, hparent, bindings, hbindings, rfl⟩
        exact ⟨dir, hdir, parent, hparent, bindings, hbindings, rfl⟩

/-- Assembling finds fault with the parts only if there is no native source. -/
theorem assemble_eq_error_iff {c : Configuration} {t : Toolchain} {s : SourceSet} {w : World}
    {e : PlanError} :
    assemble c t s w = .error e ↔
      (s.native = [] ∧ e = .artifact (.noSources c.sourceExtension c.sourceDir)) ∨
      (s.native ≠ [] ∧ (c.sourceDirectory w = .error e ∨ c.parentDirectory w = .error e ∨
        c.bindingsDirectory w = .error e)) := by
  unfold assemble
  cases hnative : s.native with
  | nil => simp [eq_comm]
  | cons first others =>
      -- the three directories fail together, so it does not matter which is asked for first
      cases hdir : c.sourceDirectory w <;>
        simp [pure, Except.pure, bind, Except.bind, hdir, Configuration.parentDirectory,
          Configuration.bindingsDirectory, Except.map]

/-! ### Linking an archive -/

theorem foldl_addLinkDir (a : Artifact) (dirs : List Path) :
    dirs.foldl addLinkDir a = { a with linkDirs := dirs.foldl Path.register a.linkDirs } := by
  induction dirs generalizing a with
  | nil => rfl
  | cons dir dirs ih =>
      rw [List.foldl_cons, ih]
      rfl

/-- Linking an archive adds one library and those of its directories that are new. -/
theorem withArchive_eq (a : Artifact) (archive : KernelArchive) :
    a.withArchive archive =
      { a with
        libraries := a.libraries ++ [.ofName archive.name]
        linkDirs := archive.libDirs.foldl Path.register a.linkDirs } := by
  rw [withArchive, foldl_addLinkDir]
  rfl

/-- An archive that is missing makes a difference to the trace only. -/
theorem result_linkArchive (a : Artifact) (wanted : Toggle) (archive : KernelArchive)
    (w : World) :
    (a.linkArchive wanted archive w).result =
      .ok (if wanted.isEnabled then (a.withArchive archive, true) else (a, false)) := by
  unfold linkArchive
  cases wanted.isEnabled with
  | false => rfl
  | true =>
      simp only [if_true, Run.result_bind, Run.result_look]
      cases archive.isMissing w <;> rfl

/-! ### Embedding the link directories -/

theorem embedRuntimePath_eq_ok_iff {a b : Artifact} :
    a.embedRuntimePath = .ok b ↔ a.linkDirs.filter Path.isAbsolute ≠ [] ∧
      b = { a with
        runtimePath :=
          some ⟨[RuntimePath.originToken], a.linkDirs.filter Path.isAbsolute⟩ } := by
  unfold embedRuntimePath
  cases a.linkDirs.filter Path.isAbsolute with
  | nil => simp
  | cons dir dirs => simp [eq_comm]

theorem embedRuntimePath_eq_error_iff {a : Artifact} {e : PlanError} :
    a.embedRuntimePath = .error e ↔ a.linkDirs.filter Path.isAbsolute = [] ∧
      e = .artifact (.noRuntimePath a.name) := by
  unfold embedRuntimePath
  cases a.linkDirs.filter Path.isAbsolute with
  | nil => simp [eq_comm]
  | cons dir dirs => simp

end Artifact

/-! ### Changes -/

/-- A change to an assembled artifact, and the surroundings in which it is made. -/
inductive Change where
  | link (w : World) (wanted : Toggle) (archive : KernelArchive)
  | embed

/-- The archive that a change links, if it is wanted. -/
def Change.linked? : Change → Option KernelArchive
  | .link _ .enabled archive => some archive
  | .link _ .disabled _ => none
  | .embed => none

namespace Artifact

/-- How a change ends. -/
def tryChange (a : Artifact) : Change → Except PlanError Artifact
  | .link w wanted archive => (a.linkArchive wanted archive w).result.map (·.1)
  | .embed => a.embedRuntimePath

/-- The artifact after a change, which is the one before it if the change fails. -/
def after (a : Artifact) (change : Change) : Artifact :=
  match a.tryChange change with
  | .ok b => b
  | .error _ => a

/-- The artifact after changes, one after the other. -/
def afterAll (a : Artifact) (changes : List Change) : Artifact := changes.foldl after a

/-- Is there an embedding among the changes that was made while some link directory was
absolute? -/
def Embeds (a : Artifact) (changes : List Change) : Prop :=
  ∃ before rest, changes = before ++ .embed :: rest ∧
    ∃ dir ∈ (a.afterAll before).linkDirs, dir.isAbsolute = true

@[simp] theorem afterAll_nil (a : Artifact) : a.afterAll [] = a := rfl

@[simp] theorem afterAll_concat (a : Artifact) (changes : List Change) (change : Change) :
    a.afterAll (changes ++ [change]) = (a.afterAll changes).after change := by
  simp [afterAll]

theorem after_link_enabled (a : Artifact) (w : World) (archive : KernelArchive) :
    a.after (.link w .enabled archive) = a.withArchive archive := by
  simp only [after, tryChange, result_linkArchive]
  rfl

theorem after_link_disabled (a : Artifact) (w : World) (archive : KernelArchive) :
    a.after (.link w .disabled archive) = a := by
  simp only [after, tryChange, result_linkArchive]
  rfl

/-- An embedding counts if some link directory is absolute. -/
theorem after_embed (a : Artifact) :
    a.after .embed =
      if a.linkDirs.filter Path.isAbsolute = [] then a
      else { a with
        runtimePath :=
          some ⟨[RuntimePath.originToken], a.linkDirs.filter Path.isAbsolute⟩ } := by
  simp only [after, tryChange]
  split
  · next b hb =>
    obtain ⟨hne, rfl⟩ := embedRuntimePath_eq_ok_iff.1 hb
    rw [if_neg hne]
  · next e he =>
    rw [if_pos (embedRuntimePath_eq_error_iff.1 he).1]

/-- The last change embeds, or one before it did. -/
theorem embeds_concat_iff {a : Artifact} {changes : List Change} {change : Change} :
    a.Embeds (changes ++ [change]) ↔ a.Embeds changes ∨
      (change = .embed ∧ ∃ dir ∈ (a.afterAll changes).linkDirs, dir.isAbsolute = true) := by
  constructor
  · rintro ⟨before, rest, heq, hdir⟩
    -- nothing follows the embedding, or the last change does
    rcases List.eq_nil_or_concat' rest with rfl | ⟨rest, last, rfl⟩
    · obtain ⟨rfl, hlast⟩ := List.append_inj' heq rfl
      exact Or.inr ⟨List.singleton_inj.1 hlast, hdir⟩
    · rw [← List.cons_append, ← List.append_assoc] at heq
      exact Or.inl ⟨before, rest, (List.append_inj' heq rfl).1, hdir⟩
  · rintro (⟨before, rest, rfl, hdir⟩ | ⟨rfl, hdir⟩)
    · exact ⟨before, rest ++ [change], by simp, hdir⟩
    · exact ⟨changes, [], rfl, hdir⟩

/-- What holds of an artifact that grew from `base` by linking `archives`, one after the other.
`embedded` tells whether an embedding has succeeded. -/
structure Grown (base : Artifact) (archives : List KernelArchive) (embedded : Prop)
    (a : Artifact) : Prop where
  name : a.name = base.name
  filename : a.filename = base.filename
  units : a.units = base.units
  includeRules : a.includeRules = base.includeRules
  interfaceIncludes : a.interfaceIncludes = base.interfaceIncludes
  compileFlags : a.compileFlags = base.compileFlags
  libraries : a.libraries = base.libraries ++ archives.map fun archive => .ofName archive.name
  linkDirs : a.linkDirs = Path.dedup (archives.flatMap (·.libDirs))
  notEmbedded : ¬ embedded → a.runtimePath = none
  isEmbedded : embedded → ∃ r, a.runtimePath = some r ∧
    r.relative = [RuntimePath.originToken] ∧ r.absolute ≠ [] ∧
    r.absolute <+: a.linkDirs.filter Path.isAbsolute

namespace Grown

variable {base a : Artifact} {archives : List KernelArchive} {embedded : Prop}

/-- What is embedded stays a prefix while the link directories grow. -/
theorem withArchive (h : Grown base archives embedded a) (archive : KernelArchive) :
    Grown base (archives ++ [archive]) embedded (a.withArchive archive) := by
  rw [withArchive_eq]
  refine { h with libraries := ?_, linkDirs := ?_, isEmbedded := ?_ }
  · simp [h.libraries]
  · simp only [h.linkDirs, List.flatMap_append, List.flatMap_singleton, Path.dedup_append]
  · intro hembedded
    obtain ⟨r, hr, hrelative, hne, hbegins⟩ := h.isEmbedded hembedded
    have hgrows := Path.prefix_foldl_register a.linkDirs archive.libDirs
    exact ⟨r, hr, hrelative, hne, hbegins.trans (hgrows.filter Path.isAbsolute)⟩

/-- A new embedding holds all absolute link directories that there are. -/
theorem embed (h : Grown base archives embedded a)
    (hdir : a.linkDirs.filter Path.isAbsolute ≠ []) :
    Grown base archives True { a with
      runtimePath := some ⟨[RuntimePath.originToken], a.linkDirs.filter Path.isAbsolute⟩ } := by
  refine { h with notEmbedded := ?_, isEmbedded := ?_ }
  · exact fun hnot => absurd trivial hnot
  · exact fun _ => ⟨_, rfl, rfl, hdir, List.prefix_refl _⟩

/-- **One change.** It links what it links, and it embeds if there is something to embed. -/
theorem after (h : Grown base archives embedded a) (change : Change) :
    Grown base (archives ++ change.linked?.toList)
      (embedded ∨ (change = .embed ∧ ∃ dir ∈ a.linkDirs, dir.isAbsolute = true))
      (a.after change) := by
  cases change with
  | link w wanted archive =>
      have hsame : (embedded ∨ (Change.link w wanted archive = .embed ∧
          ∃ dir ∈ a.linkDirs, dir.isAbsolute = true)) = embedded := by simp
      rw [hsame]
      cases wanted with
      | enabled =>
          rw [after_link_enabled]
          exact h.withArchive archive
      | disabled =>
          rw [after_link_disabled]
          simpa [Change.linked?] using h
  | embed =>
      simp only [Change.linked?, Option.toList_none, List.append_nil, true_and]
      rw [after_embed]
      split
      · next hnone =>
        have hnot : ¬ ∃ dir ∈ a.linkDirs, dir.isAbsolute = true := by
          rintro ⟨dir, hdir, habsolute⟩
          exact List.filter_eq_nil_iff.1 hnone dir hdir habsolute
        rwa [or_iff_left hnot |> propext]
      · next hsome =>
        have htrue : (embedded ∨ ∃ dir ∈ a.linkDirs, dir.isAbsolute = true) = True := by
          obtain ⟨dir, hdir⟩ := List.exists_mem_of_ne_nil _ hsome
          rw [List.mem_filter] at hdir
          exact eq_true (Or.inr ⟨dir, hdir.1, hdir.2⟩)
        rw [htrue]
        exact h.embed hsome

/-- **Any number of changes.** -/
theorem afterAll (hdirs : base.linkDirs = []) (hpath : base.runtimePath = none)
    (changes : List Change) :
    Grown base (changes.filterMap Change.linked?) (base.Embeds changes)
      (base.afterAll changes) := by
  induction changes using List.reverseRecOn with
  | nil =>
      have hnot : ¬ base.Embeds [] := by
        rintro ⟨before, rest, heq, -⟩
        exact List.append_ne_nil_of_right_ne_nil before (List.cons_ne_nil _ rest) heq.symm
      constructor <;> simp [hdirs, hpath, hnot, Path.dedup]
  | append_singleton changes change ih =>
      rw [afterAll_concat, List.filterMap_append, propext embeds_concat_iff]
      convert ih.after change using 2
      cases h : change.linked? <;> simp [h]

end Grown

/-- **After any changes.** Of an assembled artifact nothing changes but its libraries, its link
directories and its search path. The libraries are the three assembled ones and one for each
archive that was linked, the link directories those of the archives without later repeats, and the
search path begins to be there with the first embedding that finds an absolute link directory. -/
theorem afterAll_of_assemble {c : Configuration} {t : Toolchain} {s : SourceSet} {w : World}
    {a : Artifact} (h : assemble c t s w = .ok a) (changes : List Change) :
    ((a.afterAll changes).name = a.name ∧ (a.afterAll changes).filename = a.filename ∧
      (a.afterAll changes).units = a.units ∧
      (a.afterAll changes).includeRules = a.includeRules ∧
      (a.afterAll changes).interfaceIncludes = a.interfaceIncludes ∧
      (a.afterAll changes).compileFlags = a.compileFlags) ∧
    (a.afterAll changes).libraries =
      [t.tensor.library, t.tensor.bindingLibrary, t.cuda.runtime] ++
        (changes.filterMap Change.linked?).map (fun archive => .ofName archive.name) ∧
    ((a.afterAll changes).linkDirs.Pairwise (fun p q => p.same q = false) ∧
      (a.afterAll changes).linkDirs =
        ((changes.filterMap Change.linked?).flatMap (·.libDirs)).eraseDupsBy Path.same) ∧
    (∀ e, (a.afterAll changes).embedRuntimePath = .error e →
      (∀ dir ∈ (a.afterAll changes).linkDirs, dir.isAbsolute = false) ∧
        a.afterAll (changes ++ [.embed]) = a.afterAll changes) ∧
    (¬ a.Embeds changes → (a.afterAll changes).runtimePath = none) ∧
    (a.Embeds changes → ∃ r, (a.afterAll changes).runtimePath = some r ∧
      r.relative = [RuntimePath.originToken] ∧ r.absolute ≠ [] ∧
      r.absolute <+: (a.afterAll changes).linkDirs.filter Path.isAbsolute) := by
  obtain ⟨-, dir, -, parent, -, bindings, -, ha⟩ := assemble_eq_ok_iff.1 h
  have grown : Grown a _ _ _ := Grown.afterAll (by rw [ha]) (by rw [ha]) changes
  refine ⟨⟨grown.name, grown.filename, grown.units, grown.includeRules, grown.interfaceIncludes,
    grown.compileFlags⟩, ?_, ⟨?_, ?_⟩, ?_, grown.notEmbedded, grown.isEmbedded⟩
  · rw [grown.libraries, ha]
  · rw [grown.linkDirs]
    exact Path.pairwise_dedup _
  · rw [grown.linkDirs, Path.dedup_eq_eraseDupsBy]
  · intro e he
    have hnone := (embedRuntimePath_eq_error_iff.1 he).1
    refine ⟨fun dir hdir => ?_, ?_⟩
    · simpa using List.filter_eq_nil_iff.1 hnone dir hdir
    · rw [afterAll_concat, after_embed, if_pos hnone]

/-- The toolchain of a module that needs little, to see a few changes at work. -/
def plainToolchain : Toolchain where
  binding := ⟨"/b", "/b", ["/b/include"], .empty, ".so"⟩
  tensor :=
    { dir := "/t"
      installDir := "/t"
      includeDirs := ["/t/include"]
      libDirs := ["/t/lib"]
      library := .ofFiles "torch" ["/t/lib/libtorch.so"]
      bindingLibrary := .ofFiles "torch_python" ["/t/lib/libtorch_python.so"]
      flags := .empty }
  cuda := ⟨"/c", ["/c/include"], ["/c/lib"], .ofFiles "cudart" ["/c/lib/libcudart.so"]⟩
  hints := .empty

/-- Surroundings with an empty tree. -/
def plainWorld : World := .ofTree .empty []

/-- What is embedded falls short of the directories that were linked later. -/
theorem afterAll_of_assemble_plain :
    ∃ a, assemble (.ofSourceDir "/s" .table) plainToolchain ⟨["/s/a.cc"], [], []⟩ plainWorld =
        .ok a ∧
      let changes : List Change := [.link plainWorld .enabled ⟨"k", ["lib", "/k", "/k/"]⟩, .embed,
        .link plainWorld .disabled ⟨"m", ["/m"]⟩, .link plainWorld .enabled ⟨"n", ["/n"]⟩]
      (a.afterAll changes).linkDirs = ["lib", "/k", "/n"] ∧
      ∃ r, (a.afterAll changes).runtimePath = some r ∧ r.absolute ≠ [] ∧
        r.absolute <+: ["/k", "/n"] := by
  obtain ⟨a, h⟩ : ∃ a, assemble (.ofSourceDir "/s" .table) plainToolchain
      ⟨["/s/a.cc"], [], []⟩ plainWorld = .ok a := ⟨_, rfl⟩
  refine ⟨a, h, ?_⟩
  intro changes
  obtain ⟨-, -, ⟨-, hbefore⟩, -, -, -⟩ := afterAll_of_assemble h (changes.take 1)
  obtain ⟨-, -, ⟨-, hdirs⟩, -, -, hpath⟩ := afterAll_of_assemble h changes
  have hdirs : (a.afterAll changes).linkDirs = ["lib", "/k", "/n"] := hdirs.trans (by decide)
  have hembeds : a.Embeds changes :=
    ⟨changes.take 1, changes.drop 2, rfl, "/k", by rw [hbefore]; decide, by decide⟩
  obtain ⟨r, hr, -, hne, hbegins⟩ := hpath hembeds
  rw [hdirs] at hbegins
  exact ⟨hdirs, r, hr, hne, hbegins⟩

end Artifact

end ExtensionPlan
