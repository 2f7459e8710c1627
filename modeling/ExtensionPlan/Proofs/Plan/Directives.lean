import ExtensionPlan.PathForm
import ExtensionPlan.Proofs.Artifact.Directives
import ExtensionPlan.Proofs.Library
import ExtensionPlan.Proofs.Plan.Linking

/-!
# ExtensionPlan.Proofs.Plan.Directives

**The directives of a plan.** Every library file of a plan was found by its name
(`Toolchain.FoundLibraries`), so it has a directory and a name to be linked by
(`Linkable.canLink_of_findLibrary`) and none is left out of the directives
(`Configuration.directives_planWith`).

No directory is named twice, since paths that are texts are shown as they are. Other paths may be
different and be shown alike.
-/

namespace ExtensionPlan

/-! ### Names of libraries -/

/-- A name without marks, separators and meta characters, that does not begin with `lib`. -/
theorem IsLinkName.of_plain {name : List Char} (filled : name ≠ [])
    (plain : name.all (fun c => c != '/' && c != '.' && !Glob.isMeta c) = true)
    (bare : ¬ "lib".toList <+: name) : IsLinkName name := by
  have hplain : ∀ c ∈ name, c ≠ '/' ∧ c ≠ '.' ∧ Glob.isMeta c = false := by
    intro c hc
    have hc := List.all_eq_true.1 plain c hc
    simp only [Bool.and_eq_true, bne_iff_ne, Bool.not_eq_true'] at hc
    exact ⟨hc.1.1, hc.1.2, hc.2⟩
  exact
    { filled := filled
      whole := fun h => (hplain '/' h).1 rfl
      literal := fun c hc => (hplain c hc).2.2
      unmarked := Text.not_marked_of_not_mem fun h => (hplain '.' h).2.1 rfl
      bare := bare }

/-- The names of the libraries that a toolchain is made of. -/
theorem isLinkName_toolchain :
    ∀ name ∈ ["torch", "c10", "torch_cpu", "torch_cuda", "c10_cuda", "torch_python", "cudart"],
      IsLinkName name.toList := by
  have hplain : ∀ name ∈ ["torch", "c10", "torch_cpu", "torch_cuda", "c10_cuda", "torch_python",
      "cudart"], name.toList ≠ [] ∧
        name.toList.all (fun c => c != '/' && c != '.' && !Glob.isMeta c) = true ∧
        ¬ "lib".toList <+: name.toList := by decide
  intro name hname
  obtain ⟨filled, plain, bare⟩ := hplain name hname
  exact IsLinkName.of_plain filled plain bare

/-- Those of them that a tensor runtime may have. -/
theorem isLinkName_optional :
    ∀ name ∈ ["torch_cpu", "torch_cuda", "c10_cuda"], IsLinkName name.toList := by
  intro name hname
  refine isLinkName_toolchain name ?_
  simp only [List.mem_cons, List.not_mem_nil, or_false] at hname ⊢
  tauto

/-! ### Library files -/

/-- A library that is found can be linked, whatever it is taken for. -/
theorem Linkable.canLink_of_findLibrary {w : World} {name : String} {dirs : List Path}
    {file : Path} (kind : LinkKind) (hname : IsLinkName name.toList)
    (h : w.findLibrary name dirs = .ok file) : (Linkable.file kind file).CanLink := by
  obtain ⟨fileName, hfile, -⟩ := w.exists_fileName?_of_findLibrary hname.whole hname.literal h
  exact ⟨Path.exists_parent? hfile, _, linkName?_of_findLibrary hname h⟩

/-- A library that is given by its files is linked by them. -/
theorem LibraryHandle.linkables_ofFiles (name : String) (files : List Path) :
    (ofFiles name files).linkables = files.map (.file (ofFiles name files).kind) := by
  have hkind : (ofFiles name files).kind ≠ .named := by
    unfold ofFiles
    dsimp only
    split <;> exact nofun
  unfold linkables
  cases h : (ofFiles name files).kind with
  | named => exact absurd h hkind
  | shared => rfl
  | static => rfl

namespace Toolchain.FoundLibraries

variable {t : Toolchain} {w : World}

/-- The files of the tensor runtime's library. -/
def tensorFiles (l : t.FoundLibraries w) : List Path :=
  l.torch :: l.c10 :: w.foundFiles t.tensor.libDirs ["torch_cpu", "torch_cuda", "c10_cuda"]

/-- What is linked for the libraries. -/
def linkables (l : t.FoundLibraries w) : List Linkable :=
  l.tensorFiles.map (.file t.tensor.library.kind) ++
    [.file t.tensor.bindingLibrary.kind l.binding, .file t.cuda.runtime.kind l.cuda]

theorem linkables_eq (l : t.FoundLibraries w) :
    [t.tensor.library, t.tensor.bindingLibrary, t.cuda.runtime].flatMap
      LibraryHandle.linkables = l.linkables := by
  rw [linkables, l.tensor_library, l.binding_library, l.cuda_library]
  simp only [List.flatMap_cons, List.flatMap_nil, LibraryHandle.linkables_ofFiles, List.map_cons,
    List.map_nil, List.append_nil, tensorFiles]
  rfl

/-- All of them can be linked. -/
theorem canLink_of_mem_linkables (l : t.FoundLibraries w) :
    ∀ item ∈ l.linkables, item.CanLink := by
  have named := isLinkName_toolchain
  intro item hitem
  unfold linkables tensorFiles at hitem
  simp only [List.map_cons, List.cons_append, List.mem_cons, List.mem_append, List.mem_map,
    List.not_mem_nil, or_false] at hitem
  rcases hitem with rfl | rfl | ⟨file, hfile, rfl⟩ | rfl | rfl
  · exact Linkable.canLink_of_findLibrary _ (named "torch" (by simp)) l.torch_found
  · exact Linkable.canLink_of_findLibrary _ (named "c10" (by simp)) l.c10_found
  · obtain ⟨name, hname, hfound⟩ := World.exists_of_mem_foundFiles hfile
    exact Linkable.canLink_of_findLibrary _ (isLinkName_optional name hname) hfound
  · exact Linkable.canLink_of_findLibrary _ (named "torch_python" (by simp)) l.binding_found
  · exact Linkable.canLink_of_findLibrary _ (named "cudart" (by simp)) l.cuda_found

/-- The names that the libraries are linked by. -/
theorem filterMap_linkedName? (l : t.FoundLibraries w) :
    l.linkables.filterMap Linkable.linkedName? =
      linkedName "torch" l.torch :: linkedName "c10" l.c10 ::
        w.foundNames t.tensor.libDirs ["torch_cpu", "torch_cuda", "c10_cuda"] ++
        [linkedName "torch_python" l.binding, linkedName "cudart" l.cuda] := by
  have named := isLinkName_toolchain
  have htorch := linkName?_of_findLibrary (named "torch" (by simp)) l.torch_found
  have hc10 := linkName?_of_findLibrary (named "c10" (by simp)) l.c10_found
  have hbinding := linkName?_of_findLibrary (named "torch_python" (by simp)) l.binding_found
  have hcuda := linkName?_of_findLibrary (named "cudart" (by simp)) l.cuda_found
  have hoptional : (w.foundFiles t.tensor.libDirs
      ["torch_cpu", "torch_cuda", "c10_cuda"]).filterMap linkName? =
        w.foundNames t.tensor.libDirs ["torch_cpu", "torch_cuda", "c10_cuda"] :=
    World.filterMap_linkName?_foundFiles isLinkName_optional
  have hfiles : ∀ (kind : LinkKind) (files : List Path),
      (files.map (.file kind)).filterMap Linkable.linkedName? = files.filterMap linkName? := by
    intro kind files
    rw [List.filterMap_map]
    rfl
  rw [linkables, List.filterMap_append, hfiles, tensorFiles,
    List.filterMap_cons_some htorch, List.filterMap_cons_some hc10, hoptional]
  simp only [List.filterMap_cons, List.filterMap_nil, Linkable.linkedName?, hbinding, hcuda]

end Toolchain.FoundLibraries

namespace Configuration

variable {c : Configuration} {locator : Locator} {w : World} {a : Artifact}

/-- The libraries of a plan: those of its toolchain, and the archive if it is wanted. -/
theorem libraries_planWith (h : (c.planWith locator w).result = .ok a) :
    ∃ t, (c.resolveWith locator w).result = .ok t ∧
      a.libraries = [t.tensor.library, t.tensor.bindingLibrary, t.cuda.runtime] ++
        (if c.aot = .enabled then [.ofName c.archive] else []) ∧
      a.linkDirs.Nodup := by
  obtain ⟨t, ht, s, -, b, hb, hdisabled, henabled⟩ := planWith_eq_ok_iff.1 h
  obtain ⟨-, dir, -, parent, -, bindings, -, rfl⟩ := Artifact.assemble_eq_ok_iff.1 hb
  refine ⟨t, ht, ?_⟩
  cases haot : c.aot with
  | disabled =>
      obtain rfl := hdisabled haot
      exact ⟨rfl, List.nodup_nil⟩
  | enabled =>
      obtain ⟨dirs, -, rfl⟩ := henabled haot
      exact ⟨rfl, Path.nodup_dedup dirs⟩

/-- What is linked for a plan. -/
theorem linkables_of_libraries {t : Toolchain} (l : t.FoundLibraries w)
    (h : a.libraries = [t.tensor.library, t.tensor.bindingLibrary, t.cuda.runtime] ++
      (if c.aot = .enabled then [.ofName c.archive] else [])) :
    a.linkables = l.linkables ++ (if c.aot = .enabled then [.named c.archive] else []) := by
  rw [Artifact.linkables, h, List.flatMap_append, l.linkables_eq]
  split <;> rfl

theorem canLink_of_mem_linkables {t : Toolchain} (l : t.FoundLibraries w)
    (h : a.linkables = l.linkables ++ (if c.aot = .enabled then [.named c.archive] else [])) :
    ∀ item ∈ a.linkables, item.CanLink := by
  intro item hitem
  rw [h] at hitem
  rcases List.mem_append.1 hitem with hitem | hitem
  · exact l.canLink_of_mem_linkables item hitem
  · split at hitem
    · rw [List.mem_singleton.1 hitem]
      trivial
    · cases hitem

/-- **The directives of a plan.** After the sources to watch, what is linked stands between the
link directories and the entries of the search path. No directory is searched twice; every library
file is linked once, in its order and with its directory searched before; and the names that are
linked are those of the libraries, and of the archive exactly if it is wanted. -/
theorem directives_planWith (h : (c.planWith locator w).result = .ok a) :
    ∃ t, (c.resolveWith locator w).result = .ok t ∧ ∃ (l : t.FoundLibraries w)
      (links : List Directive),
      a.directives = a.units.map (fun unit => .watch unit.path) ++ links ++
        (a.runtimePath.elim [] fun r => r.entries.map fun entry =>
          .linkerArg ("-Wl,-rpath," ++ entry)) ∧
      (∀ d ∈ links, d.isSearch = true ∨ d.isLink = true) ∧
      ((links.filter Directive.isSearch).map Directive.line).Nodup ∧
      (∃ rest, links = a.linkDirs.map .search ++ rest) ∧
      List.Forall₂ Linkable.IsLinkedBy a.linkables (links.filter Directive.isLink) ∧
      (∀ before d after, links = before ++ d :: after → d.isLink = true →
        ∃ item, a.linkables[(before.filter Directive.isLink).length]? = some item ∧
          item.IsLinkedBy d ∧ item.IsSearched before) ∧
      links.filterMap Directive.linked? =
        linkedName "torch" l.torch :: linkedName "c10" l.c10 ::
          w.foundNames t.tensor.libDirs ["torch_cpu", "torch_cuda", "c10_cuda"] ++
          [linkedName "torch_python" l.binding, linkedName "cudart" l.cuda] ++
          (if c.aot = .enabled then [c.archive] else []) := by
  obtain ⟨t, ht, hlibraries, hdirs⟩ := libraries_planWith h
  obtain ⟨l⟩ := Toolchain.foundLibraries_of_resolve ht
  have hlinkables := linkables_of_libraries l hlibraries
  have hcan := canLink_of_mem_linkables l hlinkables
  obtain ⟨links, hlinking, hdirectives⟩ := Artifact.exists_linking hcan
  refine ⟨t, ht, l, links, hdirectives, hlinking.isSearch_or_isLink,
    hlinking.nodup_searches hdirs, hlinking.exists_eq_append, hlinking.forall₂_links, ?_, ?_⟩
  · intro before d after heq hd
    exact hlinking.exists_isSearched heq hd
  · rw [hlinking.filterMap_linked?, hlinkables, List.filterMap_append, l.filterMap_linkedName?]
    split <;> rfl

end Configuration

/-! ### An installation -/

namespace Sample

/-- A regular file with nothing in it. -/
def emptyFile : Node := .file ⟨[], false, none⟩

/-- An installation in which one library of the tensor runtime is an archive and the others are
shared objects. -/
def tree : Tree where
  children :=
    [(⟨"s".toList, by rfl⟩, .directory [(⟨"a.cc".toList, by rfl⟩, emptyFile)]),
      (⟨"b".toList, by rfl⟩, .directory [
        (⟨"pybind11Config.cmake".toList, by rfl⟩, emptyFile),
        (⟨"include".toList, by rfl⟩, .directory [])]),
      (⟨"t".toList, by rfl⟩, .directory [
        (⟨"TorchConfig.cmake".toList, by rfl⟩, emptyFile),
        (⟨"include".toList, by rfl⟩, .directory []),
        (⟨"lib".toList, by rfl⟩, .directory [
          (⟨"libtorch.so".toList, by rfl⟩, emptyFile),
          (⟨"libc10.a".toList, by rfl⟩, emptyFile),
          (⟨"libtorch_python.so".toList, by rfl⟩, emptyFile)])]),
      (⟨"c".toList, by rfl⟩, .directory [
        (⟨"include".toList, by rfl⟩, .directory []),
        (⟨"lib".toList, by rfl⟩, .directory [
          (⟨"libcudart_static.a".toList, by rfl⟩, emptyFile)])])]
  proper := by rfl

/-- The installation with nothing else around. -/
def world : World := .ofTree tree []

/-- Where the parts of the installation are. -/
def locator : Locator :=
  .manifest "/m" ⟨[("pybind11", "/b"), ("torch", "/t"), ("python_include", "/b")]⟩

/-- The sources of the installation, to be linked with the archive. -/
def configuration : Configuration :=
  { Configuration.ofSourceDir "/s" .table with aot := .enabled, cudaHome := some "/c" }

/-- There is a plan. -/
theorem exists_plan : ∃ a, (configuration.planWith locator world).result = .ok a ∧
    a.libraries.flatMap (·.files) = (["/t/lib/libtorch.so", "/t/lib/libc10.a",
      "/t/lib/libtorch_python.so", "/c/lib/libcudart_static.a"] : List Path) ∧
    a.directives.filter Directive.isFileLink = [.linkShared "torch", .linkShared "c10",
      .linkShared "torch_python", .linkStatic "cudart_static"] := by
  have h : (configuration.planWith locator world).result.toOption.map
      (fun a => (a.libraries.flatMap (·.files), a.directives.filter Directive.isFileLink)) =
    some ((["/t/lib/libtorch.so", "/t/lib/libc10.a", "/t/lib/libtorch_python.so",
        "/c/lib/libcudart_static.a"] : List Path),
      [.linkShared "torch", .linkShared "c10", .linkShared "torch_python",
        .linkStatic "cudart_static"]) := by
    decide +kernel
  obtain ⟨a, ha, heq⟩ := Option.map_eq_some_iff.1 h
  obtain ⟨hfiles, hlinks⟩ := Prod.mk.inj heq
  exact ⟨a, toOption_eq_some_iff.1 ha, hfiles, hlinks⟩

/-- The archive of the installation is linked after its libraries. -/
theorem directives_planWith_sample :
    ∃ a, (configuration.planWith locator world).result = .ok a ∧
      ∃ (t : Toolchain) (l : t.FoundLibraries world) (links : List Directive),
        a.directives = a.units.map (fun unit => .watch unit.path) ++ links ++
          (a.runtimePath.elim [] fun r => r.entries.map fun entry =>
            .linkerArg ("-Wl,-rpath," ++ entry)) ∧
        links.filterMap Directive.linked? =
          linkedName "torch" l.torch :: linkedName "c10" l.c10 ::
            world.foundNames t.tensor.libDirs ["torch_cpu", "torch_cuda", "c10_cuda"] ++
            [linkedName "torch_python" l.binding, linkedName "cudart" l.cuda] ++
            ["triton_distributed_kernel"] := by
  obtain ⟨a, ha, -, -⟩ := exists_plan
  obtain ⟨t, -, l, links, hdirectives, -, -, -, -, -, hnames⟩ :=
    Configuration.directives_planWith ha
  exact ⟨a, ha, t, l, links, hdirectives, hnames⟩

/-- Directories that are different and no texts, and are shown alike. -/
def strayDirs : List OctetPath := [⟨[0x2F, 0x6B, 0xFF]⟩, ⟨[0x2F, 0x6B, 0xFE]⟩]

/-- **Different directories may be shown alike.** Where an archive lies in such directories, one of
the lines that name a directory to search comes twice. -/
theorem exists_repeated_search :
    (strayDirs.Nodup ∧ ∀ dir ∈ strayDirs, dir.isAbsolute = true) ∧
    ∃ a, (PathForm.octets ⟨[], []⟩).plan? configuration strayDirs locator world = some a ∧
      a.directiveLines.count "cargo:rustc-link-search=native=/k\uFFFD" = 2 := by
  refine ⟨by decide, ?_⟩
  have h : ((PathForm.octets ⟨[], []⟩).plan? configuration strayDirs locator world).map
      (fun a => a.directiveLines.count "cargo:rustc-link-search=native=/k\uFFFD") = some 2 := by
    decide +kernel
  exact Option.map_eq_some_iff.1 h

end Sample

end ExtensionPlan
