import ExtensionPlan.Proofs.Plan.Directives

/-!
# ExtensionPlan.Proofs.Plan.LinkKinds

**When each file is linked as what it is.** A library that stands for several files is taken for
what its first file is (`LibraryHandle.kind_ofFiles_cons`), but the files of the tensor runtime are
found one by one and may be of different kinds. So a plan links every file as what it is if the
files of its tensor runtime are all archives or all shared objects, and only then
(`Configuration.linksByKind_iff`).
-/

namespace ExtensionPlan

/-! ### Linking by kind -/

/-- The file is linked as what it is by the ending of its name. -/
def LinksAsItself (file : Path) (d : Directive) : Prop :=
  ∃ name, linkName? file = some name ∧
    d = if file.isArchive = true then .linkStatic name else .linkShared name

/-- The directives link each file of the artifact, one after the other, as what it is. -/
def Artifact.LinksByKind (a : Artifact) : Prop :=
  List.Forall₂ LinksAsItself (a.libraries.flatMap (·.files))
    (a.directives.filter Directive.isFileLink)

/-- A file that is linked as one kind is linked as itself if it is of that kind. -/
theorem linksAsItself_iff {kind : LinkKind} {file : Path} {d : Directive}
    (h : Directive.linkFile? kind file = some d) :
    LinksAsItself file d ↔ (kind = .static ↔ file.isArchive = true) := by
  obtain ⟨name, hname, rfl⟩ := Option.map_eq_some_iff.1 h
  constructor
  · intro hitself
    obtain ⟨other, hother, heq⟩ := hitself
    by_cases hkind : kind = .static
    · by_cases harchive : file.isArchive = true
      · simp [hkind, harchive]
      · rw [if_pos hkind, if_neg harchive] at heq
        cases heq
    · by_cases harchive : file.isArchive = true
      · rw [if_neg hkind, if_pos harchive] at heq
        cases heq
      · simp [hkind, harchive]
  · intro hiff
    refine ⟨name, hname, ?_⟩
    by_cases hkind : kind = .static
    · rw [if_pos hkind, if_pos (hiff.1 hkind)]
    · rw [if_neg hkind, if_neg fun harchive => hkind (hiff.2 harchive)]

theorem forall₂_linksAsItself_iff {files : List (LinkKind × Path)} {ds : List Directive}
    (h : List.Forall₂ (fun file d => Directive.linkFile? file.1 file.2 = some d) files ds) :
    List.Forall₂ LinksAsItself (files.map Prod.snd) ds ↔
      ∀ file ∈ files, (file.1 = .static ↔ file.2.isArchive = true) := by
  induction h with
  | nil => simp
  | cons hlinked _ ih =>
      rw [List.map_cons, List.forall₂_cons, linksAsItself_iff hlinked, ih, List.forall_mem_cons]

/-! ### The files of a plan -/

namespace Toolchain.FoundLibraries

variable {t : Toolchain} {w : World}

/-- The files of the libraries, each with the kind that it is taken for. -/
def files (l : t.FoundLibraries w) : List (LinkKind × Path) :=
  l.tensorFiles.map (t.tensor.library.kind, ·) ++
    [(t.tensor.bindingLibrary.kind, l.binding), (t.cuda.runtime.kind, l.cuda)]

theorem filterMap_file? (l : t.FoundLibraries w) :
    l.linkables.filterMap Linkable.file? = l.files := by
  have hfiles : ∀ (kind : LinkKind) (files : List Path),
      (files.map (.file kind)).filterMap Linkable.file? = files.map (kind, ·) := by
    intro kind files
    rw [List.filterMap_map, ← List.filterMap_eq_map]
    rfl
  rw [linkables, List.filterMap_append, hfiles]
  rfl

theorem map_snd_files (l : t.FoundLibraries w) :
    l.files.map Prod.snd =
      [t.tensor.library, t.tensor.bindingLibrary, t.cuda.runtime].flatMap (·.files) := by
  rw [files, l.tensor_library, l.binding_library, l.cuda_library]
  simp [tensorFiles, LibraryHandle.ofFiles, Function.comp_def]

/-- Each file is of the kind that it is taken for if the files of the tensor runtime are of one
kind. The other two libraries have one file each. -/
theorem kinds_iff (l : t.FoundLibraries w) :
    (∀ file ∈ l.files, (file.1 = .static ↔ file.2.isArchive = true)) ↔
      ∀ p ∈ l.tensorFiles, ∀ q ∈ l.tensorFiles, p.isArchive = q.isArchive := by
  have named := isLinkName_toolchain
  have htensor : t.tensor.library.kind = .static ↔ l.torch.isArchive = true := by
    rw [l.tensor_library]
    exact LibraryHandle.kind_ofFiles_cons (named "torch" (by simp)) l.torch_found _ _
  have hbinding : t.tensor.bindingLibrary.kind = .static ↔ l.binding.isArchive = true := by
    rw [l.binding_library]
    exact LibraryHandle.kind_ofFiles_cons (named "torch_python" (by simp)) l.binding_found _ _
  have hcuda : t.cuda.runtime.kind = .static ↔ l.cuda.isArchive = true := by
    rw [l.cuda_library]
    exact LibraryHandle.kind_ofFiles_cons (named "cudart" (by simp)) l.cuda_found _ _
  have hfirst : l.torch ∈ l.tensorFiles := List.mem_cons_self
  unfold files
  simp only [List.mem_append, List.mem_map, List.mem_cons, List.not_mem_nil, or_false]
  constructor
  · -- the kind of the library is that of each file, so they agree
    intro h p hp q hq
    have hp := h _ (Or.inl ⟨p, hp, rfl⟩)
    have hq := h _ (Or.inl ⟨q, hq, rfl⟩)
    rw [Bool.eq_iff_iff, ← hp, ← hq]
  · intro h file hfile
    rcases hfile with ⟨p, hp, rfl⟩ | rfl | rfl
    · rw [htensor, h p hp l.torch hfirst]
    · exact hbinding
    · exact hcuda

end Toolchain.FoundLibraries

namespace Configuration

variable {c : Configuration} {locator : Locator} {w : World} {a : Artifact}

/-- **Linking by kind.** A plan links each library file as what it is exactly if the files of its
tensor runtime are all of one kind. -/
theorem linksByKind_iff (h : (c.planWith locator w).result = .ok a) :
    ∃ t, (c.resolveWith locator w).result = .ok t ∧
      (a.LinksByKind ↔ ∀ p ∈ t.tensor.library.files, ∀ q ∈ t.tensor.library.files,
        p.isArchive = q.isArchive) := by
  obtain ⟨t, ht, hlibraries, -⟩ := libraries_planWith h
  obtain ⟨l⟩ := Toolchain.foundLibraries_of_resolve ht
  have hlinkables := linkables_of_libraries l hlibraries
  have hlinked := Artifact.forall₂_fileLinks (canLink_of_mem_linkables l hlinkables)
  have hfiles : a.libraries.flatMap (·.files) = l.files.map Prod.snd := by
    rw [hlibraries, List.flatMap_append, ← l.map_snd_files]
    split <;> exact List.append_nil _
  have hitems : a.linkables.filterMap Linkable.file? = l.files := by
    rw [hlinkables, List.filterMap_append, l.filterMap_file?]
    split <;> exact List.append_nil _
  have htensor : t.tensor.library.files = l.tensorFiles := by
    rw [l.tensor_library]
    rfl
  rw [hitems] at hlinked
  refine ⟨t, ht, ?_⟩
  rw [Artifact.LinksByKind, hfiles, forall₂_linksAsItself_iff hlinked, l.kinds_iff, htensor]

end Configuration

namespace Sample

/-- One library of the installation's tensor runtime is an archive and is linked as a shared
object, so it is not true of every plan that each file is linked as what it is. -/
theorem not_linksByKind : ∃ a, (configuration.planWith locator world).result = .ok a ∧
    ¬ a.LinksByKind := by
  obtain ⟨a, ha, hfiles, hlinks⟩ := exists_plan
  refine ⟨a, ha, ?_⟩
  intro hkinds
  rw [Artifact.LinksByKind, hfiles, hlinks] at hkinds
  obtain ⟨-, hrest⟩ := List.forall₂_cons.1 hkinds
  obtain ⟨hc10, -⟩ := List.forall₂_cons.1 hrest
  obtain ⟨name, -, heq⟩ := hc10
  have harchive : (Path.ofString "/t/lib/libc10.a").isArchive = true := by decide
  rw [if_pos harchive] at heq
  cases heq

/-- The tensor runtime of the installation is not of one kind. -/
theorem linksByKind_iff_sample : ∃ a, (configuration.planWith locator world).result = .ok a ∧
    ∃ t, (configuration.resolveWith locator world).result = .ok t ∧
      (a.LinksByKind ↔ ∀ p ∈ t.tensor.library.files, ∀ q ∈ t.tensor.library.files,
        p.isArchive = q.isArchive) := by
  obtain ⟨a, ha, -, -⟩ := exists_plan
  obtain ⟨t, ht, hiff⟩ := Configuration.linksByKind_iff ha
  exact ⟨a, ha, t, ht, hiff⟩

end Sample

end ExtensionPlan
