import ExtensionPlan.Artifact.Compilation
import ExtensionPlan.Artifact.Directive
import ExtensionPlan.Proofs.Artifact.Growth

/-!
# ExtensionPlan.Proofs.Artifact.Compilation

**From sources to compilers.** An artifact keeps its sources as one list, each with the collection
it came from, and everything that is told a compiler or the build tool is taken out of that list
again. `Artifact.Compiles` says what has to come out for given sources; it looks at nothing but the
units (`Artifact.compiles_of_units`), so it holds as long as those stay
(`Artifact.compiles_afterAll`).

The files to watch are the first directives, because linking only adds at the end
(`Artifact.prefix_directives`).
-/

namespace ExtensionPlan

/-! ### Adding directives -/

namespace Directive

theorem prefix_addOnce (directives : List Directive) (d : Directive) :
    directives <+: addOnce directives d := by
  unfold addOnce
  split
  · exact List.prefix_refl directives
  · exact List.prefix_append directives [d]

theorem prefix_addFile (kind : LinkKind) (directives : List Directive) (file : Path) :
    directives <+: addFile kind directives file := by
  unfold addFile
  refine List.IsPrefix.trans ?_ (List.prefix_append _ _)
  cases file.parent? with
  | none => exact List.prefix_refl directives
  | some dir => exact prefix_addOnce directives (.search dir)

/-- What only adds at the end does so any number of times. -/
theorem prefix_foldl {α : Type} {add : List Directive → α → List Directive}
    (h : ∀ directives x, directives <+: add directives x) (xs : List α)
    (directives : List Directive) : directives <+: xs.foldl add directives := by
  induction xs generalizing directives with
  | nil => exact List.prefix_refl directives
  | cons x xs ih => exact (h directives x).trans (ih (add directives x))

theorem prefix_addLibrary (directives : List Directive) (library : LibraryHandle) :
    directives <+: addLibrary directives library := by
  unfold addLibrary
  split
  · exact List.prefix_append directives _
  · exact prefix_foldl (prefix_addFile _) library.files directives

end Directive

namespace Artifact

/-- The files to watch come first, and as many of them as there are units. -/
theorem prefix_directives (a : Artifact) :
    a.units.map (fun unit => .watch unit.path) <+: a.directives := by
  have hlinked := Directive.prefix_foldl Directive.prefix_addLibrary a.libraries
    (a.units.map (fun unit => .watch unit.path) ++ a.linkDirs.map .search)
  exact ((List.prefix_append _ _).trans hlinked).trans (List.prefix_append _ _)

/-! ### Taking the units apart -/

/-- The units of one kind are those that were made of its collection. -/
theorem map_path_filter_kind (paths : List Path) (made kind : UnitKind) :
    ((paths.map fun p => CompilationUnit.mk p made).filter fun u => decide (u.kind = kind)).map
      (·.path) = if made = kind then paths else [] := by
  induction paths with
  | nil => simp
  | cons p paths ih =>
      rw [List.map_cons, List.filter_cons]
      by_cases h : made = kind
      · simpa [h] using ih
      · simp [h]

theorem pathsOf_of_units {a : Artifact} {s : SourceSet} (h : a.units = unitsOf s)
    (kind : UnitKind) : a.pathsOf kind =
      match kind with
      | .native => s.native
      | .binding => s.bindings
      | .kernel => s.kernels := by
  rw [pathsOf, h, unitsOf]
  simp only [List.filter_append, List.map_append, map_path_filter_kind]
  cases kind <;> simp

theorem map_path_unitsOf (s : SourceSet) :
    (unitsOf s).map (·.path) = s.native ++ s.bindings ++ s.kernels := by
  simp [unitsOf, Function.comp_def]

/-! ### What is compiled -/

/-- Exactly the sources are compiled, each by the compiler of its collection and in its order, and
they are the first files that the build tool is told to watch. -/
structure Compiles (a : Artifact) (s : SourceSet) : Prop where
  native : a.pathsOf .native = s.native
  binding : a.pathsOf .binding = s.bindings
  kernel : a.pathsOf .kernel = s.kernels
  hostFiles : a.hostCompilation.files = s.native ++ s.bindings
  hostIncludeDirs : a.hostCompilation.includeDirs = a.includeDirs
  /-- Without kernels there is no second compiler. -/
  kernelCompilation?_eq_none_iff : a.kernelCompilation? = none ↔ s.kernels = []
  kernelFiles : ∀ k ∈ a.kernelCompilation?, k.files = s.kernels
  kernelIncludeDirs : ∀ k ∈ a.kernelCompilation?, k.includeDirs = a.includeDirs
  /-- The flags for kernels are those for C++ that define something, in their order. -/
  kernelFlags : ∀ k ∈ a.kernelCompilation?,
    k.flags = a.hostCompilation.flags.filter fun flag => decide ("-D".toList <+: flag.toList)
  length_units : a.units.length = (s.native ++ s.bindings ++ s.kernels).length
  watched : a.directives.take a.units.length = (s.native ++ s.bindings ++ s.kernels).map .watch
  watchLines : a.directiveLines.take a.units.length =
    (s.native ++ s.bindings ++ s.kernels).map fun p => "cargo:rerun-if-changed=" ++ p.text

/-- The second compiler is told the kernels, if there are any. -/
theorem mem_kernelCompilation?_iff {a : Artifact} {k : Compilation} :
    k ∈ a.kernelCompilation? ↔ a.pathsOf .kernel ≠ [] ∧ k =
      { files := a.pathsOf .kernel
        includeDirs := a.includeDirs
        flags := a.compileFlags.flags.filter fun flag => "-D".toList.isPrefixOf flag.toList
        cpp := true
        cuda := true
        pic := true
        cpp17 := false } := by
  unfold kernelCompilation?
  cases a.pathsOf .kernel with
  | nil => simp
  | cons p paths => simp [eq_comm]

/-- Only the units matter to what is compiled. -/
theorem compiles_of_units {a : Artifact} {s : SourceSet} (h : a.units = unitsOf s) :
    a.Compiles s := by
  have hpaths : a.units.map (·.path) = s.native ++ s.bindings ++ s.kernels := by
    rw [h, map_path_unitsOf]
  have hlength : a.units.length = (s.native ++ s.bindings ++ s.kernels).length := by
    rw [← hpaths, List.length_map]
  have hwatched : a.directives.take a.units.length =
      (s.native ++ s.bindings ++ s.kernels).map .watch := by
    have hprefix := List.prefix_iff_eq_take.1 a.prefix_directives
    rw [List.length_map] at hprefix
    rw [← hprefix, ← hpaths, List.map_map]
    rfl
  have hkernel : a.pathsOf .kernel = s.kernels := pathsOf_of_units h .kernel
  constructor
  case native => exact pathsOf_of_units h .native
  case binding => exact pathsOf_of_units h .binding
  case kernel => exact hkernel
  case hostFiles =>
    show a.pathsOf .native ++ a.pathsOf .binding = _
    rw [pathsOf_of_units h .native, pathsOf_of_units h .binding]
  case hostIncludeDirs => rfl
  case kernelCompilation?_eq_none_iff =>
    rw [← hkernel, kernelCompilation?]
    cases a.pathsOf .kernel <;> simp
  case kernelFiles =>
    intro k hk
    rw [(mem_kernelCompilation?_iff.1 hk).2, hkernel]
  case kernelIncludeDirs =>
    intro k hk
    rw [(mem_kernelCompilation?_iff.1 hk).2]
  case kernelFlags =>
    intro k hk
    rw [(mem_kernelCompilation?_iff.1 hk).2]
    refine List.filter_congr fun flag _ => ?_
    rw [Bool.eq_iff_iff, List.isPrefixOf_iff_prefix, decide_eq_true_iff]
  case length_units => exact hlength
  case watched => exact hwatched
  case watchLines =>
    rw [directiveLines, ← List.map_take, hwatched, List.map_map]
    rfl

/-- **No source is lost.** What an assembled artifact compiles are the sources it was assembled
from, also after any changes; these leave alone what the sources are compiled with. -/
theorem compiles_afterAll {c : Configuration} {t : Toolchain} {s : SourceSet} {w : World}
    {a : Artifact} (h : assemble c t s w = .ok a) (changes : List Change) :
    (a.afterAll changes).Compiles s ∧ (a.afterAll changes).includeDirs = a.includeDirs := by
  obtain ⟨-, dir, -, parent, -, bindings, -, ha⟩ := assemble_eq_ok_iff.1 h
  have grown : Grown a _ _ _ := Grown.afterAll (by rw [ha]) (by rw [ha]) changes
  refine ⟨compiles_of_units (grown.units.trans (by rw [ha])), ?_⟩
  rw [includeDirs, includeDirs, grown.includeRules, grown.interfaceIncludes]

/-- Sources that come twice, or in two collections, are compiled as often and by both compilers. -/
theorem compiles_afterAll_plain :
    ∃ a, assemble (.ofSourceDir "/s" .table) plainToolchain
        ⟨["/s/a.cc", "/s/a.cc"], ["/s/k.cu"], ["/s/k.cu"]⟩ plainWorld = .ok a ∧
      let b := a.afterAll [.link plainWorld .enabled ⟨"k", ["/k"]⟩, .embed]
      b.hostCompilation.files = ["/s/a.cc", "/s/a.cc", "/s/k.cu"] ∧
      ∃ k, b.kernelCompilation? = some k ∧ k.files = ["/s/k.cu"] := by
  obtain ⟨a, h⟩ : ∃ a, assemble (.ofSourceDir "/s" .table) plainToolchain
      ⟨["/s/a.cc", "/s/a.cc"], ["/s/k.cu"], ["/s/k.cu"]⟩ plainWorld = .ok a := ⟨_, rfl⟩
  refine ⟨a, h, ?_⟩
  obtain ⟨compiles, -⟩ := compiles_afterAll h [.link plainWorld .enabled ⟨"k", ["/k"]⟩, .embed]
  refine ⟨by simpa using compiles.hostFiles, ?_⟩
  obtain ⟨k, hk⟩ := Option.ne_none_iff_exists'.1 fun hnone =>
    absurd (compiles.kernelCompilation?_eq_none_iff.1 hnone) (by decide)
  exact ⟨k, hk, compiles.kernelFiles k hk⟩

end Artifact

end ExtensionPlan
