import ExtensionPlan.PathForm
import ExtensionPlan.Proofs.Library.Denoted
import ExtensionPlan.Proofs.Path.Octets
import ExtensionPlan.Proofs.Plan.Directives

/-!
# ExtensionPlan.Proofs.Toolchain.Populated

**No part of a toolchain is missing.** A toolchain that is resolved has its directories, its headers
and its libraries, and every library file is in one of the directories that go with it
(`Toolchain.Populated`, `Toolchain.populated_of_resolve`).

That a library file is in a directory is said by where its path leads (`World.Denotes`). It rests on
the paths being texts: a versioned file is searched in a directory as it is shown, which is another
one if the directory is no text.
-/

namespace ExtensionPlan

/-! ### Parts -/

/-- The layout of a toolkit lists directories that exist, and some for headers. -/
theorem Cuda.Layout.isDirectory_of_discover {home : Path} {reader : Reader} {w : World}
    {layout : Cuda.Layout} (h : (discover home reader w).result = .ok layout) :
    layout.includeDirs ≠ [] ∧ (∀ dir ∈ layout.includeDirs, w.isDirectory dir = true) ∧
      ∀ dir ∈ layout.libDirs, w.isDirectory dir = true := by
  obtain ⟨-, ⟨place, hplace, hexists⟩, rfl⟩ := discover_eq_ok_iff.1 h
  have hmem := List.mem_filter.2 ⟨List.mem_map_of_mem hplace, hexists⟩
  refine ⟨List.ne_nil_of_mem hmem, fun dir hdir => (List.mem_filter.1 hdir).2, fun dir hdir => ?_⟩
  rcases Path.mem_foldl_register hdir with hdir | hdir
  · exact (List.mem_filter.1 hdir).2
  · exact (List.mem_filter.1 hdir).2

namespace SearchHints

/-- A second directory is a hint of its own unless it is the first one again. -/
theorem dirs_register_register (first second : Path) :
    ((empty.register first).register second).dirs =
      if first.same second then [first] else [first, second] := by
  have hfirst : (empty.register first).dirs = [first] := by
    rw [dirs_register]
    exact Path.register_of_not_isIn rfl
  have hin : second.isIn [first] = first.same second := by
    rw [Path.isIn, List.any_cons, List.any_nil, Bool.or_false, Path.same]
  rw [dirs_register, hfirst, Path.register, hin]
  rfl

end SearchHints

/-! ### The whole -/

namespace Toolchain

/-- Nothing is missing from the toolchain: its directories exist, its packages have their headers,
and its libraries have their files. -/
structure Populated (t : Toolchain) (locator : Locator) (w : World) : Prop where
  includeDirs_exist : ∀ dir ∈ t.binding.includeDirs ++ t.tensor.includeDirs ++ t.cuda.includeDirs,
    w.isDirectory dir = true
  libDirs_exist : ∀ dir ∈ t.tensor.libDirs ++ t.cuda.libDirs, w.isDirectory dir = true
  /-- The generator's headers and those of the interpreter. -/
  binding_includeDirs : ∃ headers, (locator.locate .pythonHeaders w).result = .ok headers ∧
    t.binding.includeDirs = [t.binding.installDir.join "include", Path.ofString headers]
  tensor_includeDirs : [t.tensor.installDir.join "include"] <+: t.tensor.includeDirs
  cuda_includeDirs : t.cuda.includeDirs ≠ []
  tensor_files : ∃ torch c10 others, t.tensor.library.files = torch :: c10 :: others ∧
    w.findLibrary "torch" t.tensor.libDirs = .ok torch ∧
    w.findLibrary "c10" t.tensor.libDirs = .ok c10
  binding_file : ∃ file, t.tensor.bindingLibrary.files = [file]
  cuda_file : ∃ file, t.cuda.runtime.files = [file]
  /-- The files of the tensor runtime are in its library directories. -/
  tensor_denotes : ∀ file ∈ t.tensor.library.files ++ t.tensor.bindingLibrary.files,
    ∃ dir ∈ t.tensor.libDirs, w.Denotes file dir
  cuda_denotes : ∀ file ∈ t.cuda.runtime.files, ∃ dir ∈ t.cuda.libDirs, w.Denotes file dir
  hints_dirs : t.hints.dirs =
    if t.binding.dir.same t.tensor.dir then [t.binding.dir] else [t.binding.dir, t.tensor.dir]

/-- The files of libraries that are found are in the directories that exist. -/
theorem FoundLibraries.denotes {t : Toolchain} {w : World} (l : t.FoundLibraries w)
    (htensor : ∀ dir ∈ t.tensor.libDirs, w.isDirectory dir = true)
    (hcuda : ∀ dir ∈ t.cuda.libDirs, w.isDirectory dir = true) :
    (∀ file ∈ t.tensor.library.files ++ t.tensor.bindingLibrary.files,
      ∃ dir ∈ t.tensor.libDirs, w.Denotes file dir) ∧
    ∀ file ∈ t.cuda.runtime.files, ∃ dir ∈ t.cuda.libDirs, w.Denotes file dir := by
  have named := isLinkName_toolchain
  rw [l.tensor_library, l.binding_library, l.cuda_library]
  constructor
  · intro file hfile
    simp only [LibraryHandle.ofFiles, List.cons_append, List.mem_cons, List.mem_append,
      List.not_mem_nil, or_false] at hfile
    rcases hfile with rfl | rfl | hfile | rfl
    · exact World.exists_denotes_of_findLibrary (named "torch" (by simp)) htensor l.torch_found
    · exact World.exists_denotes_of_findLibrary (named "c10" (by simp)) htensor l.c10_found
    · obtain ⟨name, hname, hfound⟩ := World.exists_of_mem_foundFiles hfile
      exact World.exists_denotes_of_findLibrary (isLinkName_optional name hname) htensor hfound
    · exact World.exists_denotes_of_findLibrary (named "torch_python" (by simp)) htensor
        l.binding_found
  · intro file hfile
    obtain rfl : file = l.cuda := by simpa [LibraryHandle.ofFiles] using hfile
    exact World.exists_denotes_of_findLibrary (named "cudart" (by simp)) hcuda l.cuda_found

/-- **Nothing is missing.** A toolchain that is resolved is populated. -/
theorem populated_of_resolve {locator : Locator} {cudaHome : Option Path} {reader : Reader}
    {w : World} {t : Toolchain} (h : (resolve locator cudaHome reader w).result = .ok t) :
    t.Populated locator w := by
  obtain ⟨l⟩ := foundLibraries_of_resolve h
  obtain ⟨bindingDir, -, binding, hbinding, tensorDir, -, tensor, htensor, cuda, hcuda, rfl⟩ :=
    resolve_eq_ok_iff.1 h
  obtain ⟨generator, hgenerator, headers, hlocated, hheaders, suffix, -, rfl⟩ :=
    BindingLibrary.resolve_eq_ok_iff.1 hbinding
  obtain ⟨package, hpackage, file, -, rfl⟩ := TensorRuntime.resolve_eq_ok_iff.1 htensor
  obtain ⟨place, layout, hlayout, runtime, -, rfl⟩ := CudaToolkit.exists_layout_of_resolve hcuda
  have hgeneratorDirs := PackageSpec.isDirectory_of_mem_find hgenerator
  have hpackageDirs := PackageSpec.isDirectory_of_mem_find hpackage
  have hlayoutDirs := Cuda.Layout.isDirectory_of_discover hlayout
  have hdenotes := l.denotes hpackageDirs.2 hlayoutDirs.2.2
  constructor
  case includeDirs_exist =>
    intro dir hdir
    simp only [List.mem_append, List.mem_singleton] at hdir
    rcases hdir with ((hdir | rfl) | hdir) | hdir
    · exact hgeneratorDirs.1 dir hdir
    · exact hheaders
    · exact hpackageDirs.1 dir hdir
    · exact hlayoutDirs.2.1 dir hdir
  case libDirs_exist =>
    intro dir hdir
    rcases List.mem_append.1 hdir with hdir | hdir
    · exact hpackageDirs.2 dir hdir
    · exact hlayoutDirs.2.2 dir hdir
  case binding_includeDirs =>
    have hinclude := PackageSpec.exists_includeDirs_of_find hgenerator rfl
    refine ⟨headers, hlocated, ?_⟩
    show generator.includeDirs ++ [Path.ofString headers] = _
    rw [hinclude]
    rfl
  case tensor_includeDirs =>
    show [package.installDir.join "include"] <+: package.includeDirs
    rw [PackageSpec.exists_includeDirs_of_find hpackage rfl]
    exact List.prefix_append _ _
  case cuda_includeDirs => exact hlayoutDirs.1
  case tensor_files =>
    exact ⟨l.torch, l.c10, _, by rw [l.tensor_library]; rfl, l.torch_found, l.c10_found⟩
  case binding_file => exact ⟨file, rfl⟩
  case cuda_file => exact ⟨runtime, rfl⟩
  case tensor_denotes => exact hdenotes.1
  case cuda_denotes => exact hdenotes.2
  case hints_dirs => exact SearchHints.dirs_register_register bindingDir tensorDir

end Toolchain

namespace Sample

/-- The toolchain of the installation is resolved, with the hints in the order in which the packages
are located. -/
theorem populated_of_resolve_sample :
    ∃ t, (Toolchain.resolve locator (some "/c") .table world).result = .ok t ∧
      t.Populated locator world ∧ t.hints.dirs = ["/b", "/t"] ∧
      t.tensor.library.files = ["/t/lib/libtorch.so", "/t/lib/libc10.a"] := by
  have h : (Toolchain.resolve locator (some "/c") .table world).result.toOption.map
      (fun t => (t.hints.dirs, t.tensor.library.files)) =
        some ((["/b", "/t"] : List Path),
          (["/t/lib/libtorch.so", "/t/lib/libc10.a"] : List Path)) := by
    decide +kernel
  obtain ⟨t, ht, heq⟩ := Option.map_eq_some_iff.1 h
  obtain ⟨hhints, hfiles⟩ := Prod.mk.inj heq
  have ht := toOption_eq_some_iff.1 ht
  exact ⟨t, ht, Toolchain.populated_of_resolve ht, hhints, hfiles⟩

/-- The toolkit's directory, which is no text. -/
def strayHome : OctetPath := ⟨[0x2F, 0x63, 0xFF]⟩

/-- What there is in the toolkit's directory: directories for headers and for libraries, and no file
in them. -/
def strays : StrayPaths where
  files := []
  directories := [strayHome, strayHome.join (.ofPath "include"), strayHome.join (.ofPath "lib")]

theorem isPlainName_shownHome : isPlainName "c\uFFFD".toList = true := by rfl

theorem isPlainName_lib : isPlainName "lib".toList = true := by rfl

theorem isPlainName_runtime : isPlainName "libcudart.so.12".toList = true := by rfl

/-- The installation with another toolkit, below the path by which that directory is shown. -/
def shownTree : Tree where
  children :=
    (⟨"c\uFFFD".toList, isPlainName_shownHome⟩, .directory [
      (⟨"lib".toList, isPlainName_lib⟩, .directory [
        (⟨"libcudart.so.12".toList, isPlainName_runtime⟩, emptyFile)])]) ::
      tree.children.filter fun entry => entry.1.chars != ['c']
  proper := by decide +kernel

/-- That installation with nothing else around. -/
def shownWorld : World := .ofTree shownTree []

/-- **A library from elsewhere.** A toolkit whose directory is no text is resolved with a file that
is in none of its library directories: they hold no file at all. -/
theorem exists_file_elsewhere :
    ∃ t, (PathForm.octets strays).toolchain? locator strayHome .table shownWorld = some t ∧
      ∃ file ∈ t.cuda.runtime.files, (PathForm.octets strays).isFile shownWorld file = true ∧
        ∀ dir ∈ t.cuda.libDirs, ∀ name : OctetPath, name.isAbsolute = false →
          (PathForm.octets strays).isFile shownWorld (dir.join name) = false := by
  have h : ((PathForm.octets strays).toolchain? locator strayHome .table shownWorld).map
      (fun t => (t.cuda.runtime.files, t.cuda.libDirs)) =
        some ([OctetPath.ofPath "/c\uFFFD/lib/libcudart.so.12"],
          [strayHome.join (.ofPath "lib")]) := by
    decide +kernel
  obtain ⟨t, ht, heq⟩ := Option.map_eq_some_iff.1 h
  obtain ⟨hfiles, hdirs⟩ := Prod.mk.inj heq
  refine ⟨t, ht, _, hfiles ▸ List.mem_singleton_self _, by decide +kernel, ?_⟩
  intro dir hdir name hname
  rw [hdirs, List.mem_singleton] at hdir
  subst hdir
  -- whatever is in the directory has a path that is no text
  have hoctet : (0xFF : UInt8) ∈ (strayHome.join (.ofPath "lib")).octets := by decide
  have hnone := OctetPath.path?_of_mem (OctetPath.mem_octets_join hname hoctet) (by decide)
  show ((strayHome.join (.ofPath "lib")).join name).path?.elim _ _ = false
  rw [hnone]
  rfl

end Sample

end ExtensionPlan
