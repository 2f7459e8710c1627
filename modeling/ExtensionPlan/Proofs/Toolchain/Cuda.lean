import ExtensionPlan.Proofs.Library.Held
import ExtensionPlan.Proofs.Toolchain.Populated

/-!
# ExtensionPlan.Proofs.Toolchain.Cuda

**The directories of a GPU toolkit, and its runtime.** The directories of a toolkit that is resolved
are those of a layout: they exist, no two of them are the same, and the library directory that is
named comes first (`Cuda.Layout.wellFormed_of_discover`). The runtime should be in the first library
directory that holds it, and where one does, the toolkit should be resolved
(`CudaToolkit.ResolvesSoundly`). That is so exactly where the directory is not passed over in the
search (`CudaToolkit.resolvesSoundly_iff`).
-/

namespace ExtensionPlan

/-! ### Layouts -/

namespace Cuda.Layout

variable {home : Path} {reader : Reader} {w : World} {layout : Layout}

/-- What the directories of a toolkit have to be. -/
structure WellFormed (layout : Layout) (reader : Reader) (w : World) : Prop where
  includeDirs_ne_nil : layout.includeDirs ≠ []
  includeDirs_exist : ∀ dir ∈ layout.includeDirs, w.isDirectory dir = true
  libDirs_exist : ∀ dir ∈ layout.libDirs, w.isDirectory dir = true
  includeDirs_distinct : layout.includeDirs.Pairwise fun a b => a.same b = false
  libDirs_distinct : layout.libDirs.Pairwise fun a b => a.same b = false
  /-- What is named comes first, also if it is one of the usual places. -/
  named_first : ∀ dir, w.value? reader "CUDA_LIB_DIR" = some dir →
    w.isDirectory (.ofString dir) = true → layout.libDirs.head? = some (.ofString dir)

/-- The places of headers are told apart by how far they are from the toolkit. -/
theorem pairwise_includePlaces (filled : home.chars ≠ []) :
    (includePlaces.map home.join).Pairwise fun a b => a.same b = false := by
  have hjoin : ∀ place : Path, place.isAbsolute = false →
      (home.join place).components.length = home.components.length + place.steps.length := by
    intro place hrelative
    rw [Path.components_join_eq filled hrelative, List.length_append]
  have hnear := hjoin "include" (by decide)
  have hfar := hjoin "targets/x86_64-linux/include" (by decide)
  have hsteps : ("include" : Path).steps.length = 1 ∧
      ("targets/x86_64-linux/include" : Path).steps.length = 3 := by decide +kernel
  rw [includePlaces, List.map_cons, List.map_cons, List.map_nil, List.pairwise_pair,
    ← Bool.not_eq_true, Path.same_iff]
  intro hsame
  rw [hsame] at hnear
  omega

/-- **The directories of a toolkit** are as they have to be, whatever is named. -/
theorem wellFormed_of_discover (h : (discover home reader w).result = .ok layout) :
    layout.WellFormed reader w := by
  obtain ⟨includeDirs_ne_nil, includeDirs_exist, libDirs_exist⟩ := isDirectory_of_discover h
  obtain ⟨hhome, -, rfl⟩ := discover_eq_ok_iff.1 h
  have filled := (World.isSpellable_of_isDirectory hhome).filled
  refine
    { includeDirs_ne_nil, includeDirs_exist, libDirs_exist
      includeDirs_distinct := (pairwise_includePlaces filled).filter _
      libDirs_distinct := Path.pairwise_foldl_register _ ?_
      named_first := fun dir hdir hexists => ?_ }
  · cases w.value? reader "CUDA_LIB_DIR" with
    | none => exact List.Pairwise.nil
    | some dir => exact (List.pairwise_singleton _ _).filter _
  · obtain ⟨others, hothers⟩ := Path.prefix_foldl_register
      (((w.value? reader "CUDA_LIB_DIR").toList.map Path.ofString).filter w.isDirectory)
      ((libPlaces.map home.join).filter w.isDirectory)
    rw [← hothers, hdir]
    simp [hexists]

end Cuda.Layout

/-! ### Toolkits -/

namespace CudaToolkit

/-- The directories of the toolkit. -/
def layout (t : CudaToolkit) : Cuda.Layout := ⟨t.home, t.includeDirs, t.libDirs⟩

/-- What a resolved toolkit has to be: its directories are as they should, and its runtime is an
entry of the first library directory that holds it. -/
structure IsSound (t : CudaToolkit) (reader : Reader) (w : World) : Prop where
  wellFormed : t.layout.WellFormed reader w
  held : ∃ dir ∈ t.libDirs, w.Holds "cudart".toList dir
  runtime_denotes : ∀ before dir after, t.libDirs = before ++ dir :: after →
    (∀ earlier ∈ before, ¬ w.Holds "cudart".toList earlier) → w.Holds "cudart".toList dir →
      ∃ file, t.runtime.files = [file] ∧ w.Denotes file dir

/-- A toolkit that is resolved is sound, and one is resolved wherever there are headers in one of
the usual places and the runtime in one of the library directories. -/
def ResolvesSoundly (home : Option Path) (reader : Reader) (w : World) : Prop :=
  (∀ t, (resolve home reader w).result = .ok t → t.IsSound reader w) ∧
  ∀ place, IsPlace home reader w place → w.isDirectory place = true →
    (∃ headers ∈ Cuda.includePlaces, w.isDirectory (place.join headers) = true) →
      ∃ layout, (Cuda.Layout.discover place reader w).result = .ok layout ∧
        ((∃ dir ∈ layout.libDirs, w.Holds "cudart".toList dir) →
          ∃ t, (resolve home reader w).result = .ok t)

/-! ### When a toolkit is resolved -/

section Resolution

variable {home : Option Path} {reader : Reader} {w : World} {place : Path} {layout : Cuda.Layout}

/-- The library directory that should decide does, exactly if it is not passed over. -/
theorem not_isPassedOver_libDirs_iff
    (hlayout : (Cuda.Layout.discover place reader w).result = .ok layout) :
    ¬ w.IsPassedOver "cudart" layout.libDirs ↔
      ∀ before dir after, layout.libDirs = before ++ dir :: after →
        (∀ earlier ∈ before, ¬ w.Holds "cudart".toList earlier) → w.Holds "cudart".toList dir →
          ∃ file, w.findLibrary "cudart" layout.libDirs = .ok file ∧ w.Denotes file dir := by
  have hname := isLinkName_toolchain "cudart" (by simp)
  have hdirs := (Cuda.Layout.isDirectory_of_discover hlayout).2.2
  exact World.not_isPassedOver_iff hdirs hname.whole hname.literal

/-- A toolkit that is resolved is sound if that directory is not passed over. -/
theorem isSound_of_resolve {t : CudaToolkit} (ht : (resolve home reader w).result = .ok t)
    (hnot : ∀ place, IsPlace home reader w place → ∀ layout,
      (Cuda.Layout.discover place reader w).result = .ok layout →
        ¬ w.IsPassedOver "cudart" layout.libDirs) : t.IsSound reader w := by
  obtain ⟨place, hplace, layout, hlayout, file, hfile, rfl⟩ := resolve_eq_ok_iff.1 ht
  have hname := isLinkName_toolchain "cudart" (by simp)
  have hdirs := (Cuda.Layout.isDirectory_of_discover hlayout).2.2
  have hdecides := (not_isPassedOver_libDirs_iff hlayout).1 (hnot place hplace layout hlayout)
  refine
    { wellFormed := Cuda.Layout.wellFormed_of_discover hlayout
      held := World.exists_holds_of_findLibrary hdirs hname.whole hname.literal hfile
      runtime_denotes := fun before dir after heq hbefore hholds => ?_ }
  obtain ⟨file', hfile', hdenotes⟩ := hdecides before dir after heq hbefore hholds
  obtain rfl := Except.ok.inj (hfile.symm.trans hfile')
  exact ⟨file, rfl, hdenotes⟩

/-- A toolkit is resolved if one of its directories holds the runtime and is not passed over. -/
theorem exists_resolve (hplace : IsPlace home reader w place)
    (hlayout : (Cuda.Layout.discover place reader w).result = .ok layout)
    (hnot : ¬ w.IsPassedOver "cudart" layout.libDirs)
    (hheld : ∃ dir ∈ layout.libDirs, w.Holds "cudart".toList dir) :
    ∃ t, (resolve home reader w).result = .ok t := by
  obtain ⟨before, dir, after, heq, hbefore, hholds⟩ := World.exists_first_holds hheld
  obtain ⟨file, hfile, -⟩ :=
    (not_isPassedOver_libDirs_iff hlayout).1 hnot before dir after heq hbefore hholds
  exact ⟨_, resolve_eq_ok_iff.2 ⟨place, hplace, layout, hlayout, file, hfile, rfl⟩⟩

/-- No directory that should decide is passed over where toolkits are resolved as they should be. -/
theorem ResolvesSoundly.not_isPassedOver (h : ResolvesSoundly home reader w)
    (hplace : IsPlace home reader w place)
    (hlayout : (Cuda.Layout.discover place reader w).result = .ok layout) :
    ¬ w.IsPassedOver "cudart" layout.libDirs := by
  obtain ⟨hsound, hresolves⟩ := h
  refine (not_isPassedOver_libDirs_iff hlayout).2 fun before dir after heq hbefore hholds => ?_
  obtain ⟨hhome, hheaders, -⟩ := Cuda.Layout.discover_eq_ok_iff.1 hlayout
  obtain ⟨layout', hlayout', hresolved⟩ := hresolves place hplace hhome hheaders
  obtain rfl := Except.ok.inj (hlayout.symm.trans hlayout')
  obtain ⟨t, ht⟩ := hresolved ⟨dir, by simp [heq], hholds⟩
  have hruntime := (hsound t ht).runtime_denotes
  -- what was resolved has the directories that were found
  obtain ⟨place', hplace', layout', hlayout', file, hfile, rfl⟩ := resolve_eq_ok_iff.1 ht
  obtain rfl := hplace.unique hplace'
  obtain rfl := Except.ok.inj (hlayout.symm.trans hlayout')
  obtain ⟨file', hfiles, hdenotes⟩ := hruntime before dir after heq hbefore hholds
  obtain rfl : file = file' := List.singleton_inj.1 hfiles
  exact ⟨file, hfile, hdenotes⟩

end Resolution

/-- **When a toolkit is resolved as it should be.** It is exactly where the library directories of
the place that is looked at are such that the first one to hold the runtime is not passed over. -/
theorem resolvesSoundly_iff (home : Option Path) (reader : Reader) (w : World) :
    ResolvesSoundly home reader w ↔ ∀ place, IsPlace home reader w place →
      ∀ layout, (Cuda.Layout.discover place reader w).result = .ok layout →
        ¬ w.IsPassedOver "cudart" layout.libDirs := by
  constructor
  · intro h place hplace layout hlayout
    exact h.not_isPassedOver hplace hlayout
  · intro hnot
    refine ⟨fun t ht => isSound_of_resolve ht hnot, fun place hplace hhome hheaders => ?_⟩
    obtain ⟨layout, hlayout⟩ :
        ∃ layout, (Cuda.Layout.discover place reader w).result = .ok layout :=
      ⟨_, Cuda.Layout.discover_eq_ok_iff.2 ⟨hhome, hheaders, rfl⟩⟩
    exact ⟨layout, hlayout, exists_resolve hplace hlayout (hnot place hplace layout hlayout)⟩

end CudaToolkit

/-! ### A directory that is missed -/

namespace Sample

theorem isPlainName_include : isPlainName "include".toList = true := by rfl

/-- A toolkit with headers only, and a directory with a versioned runtime. -/
def runtimeTree : Tree where
  children :=
    [(⟨"cuda".toList, by rfl⟩,
        .directory [(⟨"include".toList, isPlainName_include⟩, .directory [])]),
      (⟨"runtime".toList, by rfl⟩, .directory [(⟨"libcudart.so.12".toList, by rfl⟩, emptyFile)])]
  proper := by rfl

/-- The directory with the runtime is the working directory, and the library directory is named. -/
def runtimeWorld (libDir : String) : World :=
  { World.ofTree runtimeTree [⟨"runtime".toList, by rfl⟩] with
    table := fun name => [("CUDA_LIB_DIR", libDir)].lookup name }

/-- The only library directory is the one that is named. -/
theorem discover_runtimeWorld {libDir : String} (h : libDir = "." ∨ libDir = "./") :
    (Cuda.Layout.discover "/cuda" .table (runtimeWorld libDir)).result =
      .ok ⟨"/cuda", ["/cuda/include"], [.ofString libDir]⟩ := by
  rw [← toOption_eq_some_iff]
  rcases h with rfl | rfl
  · decide +kernel
  · decide +kernel

/-- With a separator behind the dot the runtime is not found. -/
theorem not_resolvesSoundly :
    ¬ CudaToolkit.ResolvesSoundly (some "/cuda") .table (runtimeWorld "./") := by
  intro ⟨_, hresolves⟩
  obtain ⟨layout, hlayout, hresolved⟩ := hresolves "/cuda" (Or.inl rfl) (by decide +kernel)
    ⟨"include", by decide, by decide +kernel⟩
  obtain rfl := Except.ok.inj ((discover_runtimeWorld (Or.inr rfl)).symm.trans hlayout)
  have hplace : (runtimeWorld "./").find "./" =
      .ok (.directory [(⟨"libcudart.so.12".toList, by rfl⟩, emptyFile)]) := by rfl
  have hversion : (runtimeWorld "./").HasVersion "cudart".toList "./"
      ⟨"libcudart.so.12".toList, by rfl⟩ := by
    refine ⟨World.hasEntry_iff.2 ⟨_, hplace, ?_⟩, by decide⟩
    simp
  obtain ⟨t, ht⟩ := hresolved ⟨"./", List.mem_singleton_self _, Or.inr ⟨_, hversion⟩⟩
  have hmissed :
      (CudaToolkit.resolve (some "/cuda") .table (runtimeWorld "./")).result.isOk = false := by
    decide +kernel
  rw [ht] at hmissed
  cases hmissed

/-- Without it the runtime is found. -/
theorem resolvesSoundly_iff_dot :
    CudaToolkit.ResolvesSoundly (some "/cuda") .table (runtimeWorld ".") ∧
    ∃ t, (CudaToolkit.resolve (some "/cuda") .table (runtimeWorld ".")).result = .ok t ∧
      t.IsSound .table (runtimeWorld ".") ∧
      t.runtime.files = (["libcudart.so.12"] : List Path) := by
  have hsound : CudaToolkit.ResolvesSoundly (some "/cuda") .table (runtimeWorld ".") := by
    refine (CudaToolkit.resolvesSoundly_iff _ _ _).2 fun place hplace layout hlayout => ?_
    obtain rfl := CudaToolkit.IsPlace.unique (Or.inl rfl) hplace
    obtain rfl := Except.ok.inj ((discover_runtimeWorld (Or.inl rfl)).symm.trans hlayout)
    intro ⟨before, directory, after, heq, _, hoverlooks, _⟩
    have hdot : directory = "." := by
      have hmem : directory ∈ before ++ directory :: after := by simp
      rw [← heq] at hmem
      exact List.mem_singleton.1 hmem
    rw [hdot] at hoverlooks
    exact hoverlooks.2.1 (by decide)
  have h : (CudaToolkit.resolve (some "/cuda") .table (runtimeWorld ".")).result.toOption.map
      (fun t => t.runtime.files) = some (["libcudart.so.12"] : List Path) := by
    decide +kernel
  obtain ⟨t, ht, hfiles⟩ := Option.map_eq_some_iff.1 h
  have ht := toOption_eq_some_iff.1 ht
  exact ⟨hsound, t, ht, hsound.1 t ht, hfiles⟩

end Sample

end ExtensionPlan
