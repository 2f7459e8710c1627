import ExtensionPlan.PathForm
import ExtensionPlan.Proofs.Path.Octets
import ExtensionPlan.Proofs.Plan.Archive

/-!
# ExtensionPlan.Proofs.PathForm

**Two forms of paths.** What is written once for paths of any form goes along with every map
between forms that keeps what is asked of paths (`PathForm.Hom`). Spelling a text by octets is such
a map (`PathForm.hom_octets`). In the form of texts it is what the planner does
(`PathForm.toolchain?_text`, `PathForm.plan?_text`). So for texts it does not matter in which form
they are handed over (`PathForm.toolchain?_octets`, `PathForm.plan?_octets`).
-/

namespace ExtensionPlan

/-! ### Paths in another form -/

/-- The handle with its paths in another form. -/
def LibraryHandle.map {π ρ : Type} (f : π → ρ) (l : LibraryHandle π) : LibraryHandle ρ :=
  ⟨l.name, l.kind, l.files.map f⟩

/-- The layout with its paths in another form. -/
def Cuda.Layout.map {π ρ : Type} (f : π → ρ) (l : Cuda.Layout π) : Cuda.Layout ρ :=
  ⟨f l.home, l.includeDirs.map f, l.libDirs.map f⟩

/-- The toolkit with its paths in another form. -/
def CudaToolkit.map {π ρ : Type} (f : π → ρ) (t : CudaToolkit π) : CudaToolkit ρ :=
  ⟨f t.home, t.includeDirs.map f, t.libDirs.map f, t.runtime.map f⟩

namespace PathForm

variable {π ρ : Type}

/-- The map keeps what is asked of paths. -/
structure Hom (F : PathForm π) (G : PathForm ρ) (f : π → ρ) : Prop where
  ofPath : ∀ p, f (F.ofPath p) = G.ofPath p
  shown : ∀ p, G.shown (f p) = F.shown p
  isAbsolute : ∀ p, G.isAbsolute (f p) = F.isAbsolute p
  hasArchiveExtension : ∀ p, G.hasArchiveExtension (f p) = F.hasArchiveExtension p
  join : ∀ p q, G.join (f p) (f q) = f (F.join p q)
  register : ∀ ps p, G.register (ps.map f) (f p) = (F.register ps p).map f
  isFile : ∀ w p, G.isFile w (f p) = F.isFile w p
  isDirectory : ∀ w p, G.isDirectory w (f p) = F.isDirectory w p

/-- Spelling a text by octets keeps what is asked of it. -/
theorem hom_octets (strays : StrayPaths) : Hom text (octets strays) OctetPath.ofPath where
  ofPath _ := rfl
  shown := OctetPath.shown_ofPath
  isAbsolute := OctetPath.isAbsolute_ofPath
  hasArchiveExtension p := by
    have hending (name : List Char) (h : OctetPath.respell name = name) :
        (p.extension?.map OctetPath.respell == some name) = (p.extension? == some name) := by
      rw [Bool.eq_iff_iff, beq_iff_eq, beq_iff_eq, Option.map_eq_some_iff]
      constructor
      · rintro ⟨e, he, heq⟩
        rw [he, OctetPath.respell_injective (heq.trans h.symm)]
      · exact fun he => ⟨name, he, h⟩
    show (OctetPath.ofPath p).spelling.hasArchiveExtension = p.hasArchiveExtension
    rw [Path.hasArchiveExtension, OctetPath.extension?_spelling_ofPath, hending _ rfl,
      hending _ rfl, Path.hasArchiveExtension]
  join := OctetPath.join_ofPath
  register := OctetPath.register_map_ofPath
  isFile w p := by
    show (OctetPath.ofPath p).path?.elim _ w.isFile = w.isFile p
    rw [OctetPath.path?_ofPath, Option.elim_some]
  isDirectory w p := by
    show (OctetPath.ofPath p).path?.elim _ w.isDirectory = w.isDirectory p
    rw [OctetPath.path?_ofPath, Option.elim_some]

/-! ### From one form to another -/

theorem filter_map_eq {f : π → ρ} {holds : ρ → Bool} {holds' : π → Bool}
    (h : ∀ p, holds (f p) = holds' p) (ps : List π) :
    (ps.map f).filter holds = (ps.filter holds').map f := by
  rw [List.filter_map]
  exact congrArg _ (List.filter_congr fun p _ => h p)

namespace Hom

variable {F : PathForm π} {G : PathForm ρ} {f : π → ρ} (h : Hom F G f)

include h

theorem foldl_register (ps start : List π) :
    (ps.map f).foldl G.register (start.map f) = (ps.foldl F.register start).map f := by
  induction ps generalizing start with
  | nil => rfl
  | cons p ps ih => rw [List.map_cons, List.foldl_cons, h.register, ih, List.foldl_cons]

/-- What is spelled by texts. -/
theorem map_ofPath {α : Type} (spelled : α → Path) (as : List α) :
    (as.map fun a => G.ofPath (spelled a)) = (as.map fun a => F.ofPath (spelled a)).map f := by
  rw [List.map_map]
  exact List.map_congr_left fun a _ => (h.ofPath (spelled a)).symm

/-- What is below a directory by names that texts spell. -/
theorem map_join {α : Type} (directory : π) (spelled : α → Path) (as : List α) :
    (as.map fun a => G.join (f directory) (G.ofPath (spelled a))) =
      (as.map fun a => F.join directory (F.ofPath (spelled a))).map f := by
  rw [List.map_map]
  refine List.map_congr_left fun a _ => ?_
  rw [← h.ofPath, h.join, Function.comp_apply]

theorem placesIn (w : World) (home : π) (places : List Path) :
    G.placesIn w (f home) places = (F.placesIn w home places).map f := by
  rw [PathForm.placesIn, h.map_join home (fun place => place), filter_map_eq (h.isDirectory w),
    PathForm.placesIn]

theorem layout? (home : π) (reader : Reader) (w : World) :
    G.layout? (f home) reader w = (F.layout? home reader w).map (Cuda.Layout.map f) := by
  rw [PathForm.layout?, PathForm.layout?]
  simp only [h.placesIn, h.isDirectory, h.map_ofPath, filter_map_eq (h.isDirectory w),
    h.foldl_register, List.isEmpty_map]
  split <;> rfl

theorem findLibraryIn (w : World) (name : List Char) (directory : π) :
    G.findLibraryIn w name (f directory) = (F.findLibraryIn w name directory).map f := by
  have hfile : G.isFile w ∘ f = F.isFile w := funext (h.isFile w)
  have hversioned : ∀ found : Option Path, found.map G.ofPath = (found.map F.ofPath).map f := by
    intro found
    rw [Option.map_map]
    exact congrArg (found.map ·) (funext fun p => (h.ofPath p).symm)
  rw [PathForm.findLibraryIn, h.map_join directory Path.mk, List.find?_map, hfile, h.shown,
    hversioned, PathForm.findLibraryIn]
  cases ((libraryFileNames name).map fun file => F.join directory (F.ofPath ⟨file⟩)).find?
    (F.isFile w) <;> rfl

theorem toolkit? (home : π) (reader : Reader) (w : World) :
    G.toolkit? (f home) reader w = (F.toolkit? home reader w).map (CudaToolkit.map f) := by
  rw [PathForm.toolkit?, h.layout?, PathForm.toolkit?]
  cases F.layout? home reader w with
  | none => rfl
  | some layout =>
      have hfound : (layout.map f).libDirs.findSome? (G.findLibraryIn w "cudart".toList) =
          (layout.libDirs.findSome? (F.findLibraryIn w "cudart".toList)).map f := by
        show (layout.libDirs.map f).findSome? _ = _
        rw [List.findSome?_map, List.map_findSome?]
        exact congrArg (layout.libDirs.findSome? ·) (funext (h.findLibraryIn w _))
      have hhandle (file : π) : G.handle "cudart" (f file) = (F.handle "cudart" file).map f := by
        rw [handle, h.hasArchiveExtension]
        rfl
      simp only [Option.map_some, Option.bind_eq_bind, Option.bind_some, hfound]
      cases layout.libDirs.findSome? (F.findLibraryIn w "cudart".toList) with
      | none => rfl
      | some file =>
          rw [Option.map_some, Option.bind_some, hhandle]
          rfl

theorem toolchain? (locator : Locator) (home : π) (reader : Reader) (w : World) :
    G.toolchain? locator (f home) reader w =
      (F.toolchain? locator home reader w).map fun t => { t with cuda := t.cuda.map f } := by
  rw [PathForm.toolchain?, h.toolkit?, PathForm.toolchain?]
  cases (Toolchain.resolveWith locator (pure ()) w).result.toOption with
  | none => rfl
  | some packages => cases F.toolkit? home reader w <;> rfl

theorem link? (a : Artifact) (archive : String) (dirs : List π) :
    G.link? a archive (dirs.map f) = F.link? a archive dirs := by
  have hstart : a.linkDirs.map G.ofPath = (a.linkDirs.map F.ofPath).map f :=
    h.map_ofPath (fun p => p) a.linkDirs
  have hshown : ∀ ps : List π, (ps.map f).map G.shown = ps.map F.shown := by
    intro ps
    rw [List.map_map]
    exact List.map_congr_left fun p _ => h.shown p
  rw [PathForm.link?, PathForm.link?]
  simp only [hstart, h.foldl_register, filter_map_eq h.isAbsolute, hshown, List.isEmpty_map]

theorem plan? (c : Configuration) (dirs : List π) (locator : Locator) (w : World) :
    G.plan? c (dirs.map f) locator w = F.plan? c dirs locator w := by
  simp only [PathForm.plan?, h.link?]

end Hom

/-! ### Texts -/

theorem layout?_text (home : Path) (reader : Reader) (w : World) :
    text.layout? home reader w = (Cuda.Layout.discover home reader w).result.toOption := by
  refine Option.ext fun layout => ?_
  rw [toOption_eq_some_iff, Cuda.Layout.discover_eq_ok_iff, Cuda.Layout.exists_place_iff, layout?]
  simp [text, placesIn, and_assoc, eq_comm (b := layout)]

theorem findLibraryIn_text (w : World) (name : List Char) (directory : Path) :
    text.findLibraryIn w name directory = w.findLibraryIn name directory := by
  show (_ <|> (w.findVersioned name directory).map fun p => p) = _
  rw [Option.map_id']
  rfl

theorem handle_text (name : String) (file : Path) :
    text.handle name file = .ofFiles name [file] := by
  have hkind : text.hasArchiveExtension file = file.hasArchiveExtension := rfl
  rw [handle, hkind, Path.hasArchiveExtension, LibraryHandle.ofFiles, List.head?_cons,
    Option.bind_some]
  split <;> split <;> simp_all

theorem toolkit?_text (home : Path) (reader : Reader) (w : World) :
    text.toolkit? home reader w = (CudaToolkit.resolve (some home) reader w).result.toOption := by
  rw [toolkit?, layout?_text, CudaToolkit.resolve_eq, pure_bind, CudaToolkit.resolveAt]
  simp only [Run.result_bind, Run.result_mapError, Run.result_look, Run.result_pure]
  cases (Cuda.Layout.discover home reader w).result with
  | error e => rfl
  | ok layout =>
      have hsearch : text.findLibraryIn w "cudart".toList = w.findLibraryIn "cudart".toList :=
        funext (findLibraryIn_text w _)
      simp only [Except.toOption, Except.mapError, Option.bind_eq_bind, Option.bind_some, hsearch,
        World.findLibrary, ok_bind]
      cases layout.libDirs.findSome? (w.findLibraryIn "cudart".toList) with
      | none => rfl
      | some file =>
          rw [Option.bind_some, handle_text]
          rfl

/-- In the form of texts, the toolchain is the one that is resolved. -/
theorem toolchain?_text (locator : Locator) (home : Path) (reader : Reader) (w : World) :
    text.toolchain? locator home reader w =
      (Toolchain.resolve locator (some home) reader w).result.toOption := by
  rw [toolchain?, toolkit?_text, Toolchain.resolve,
    Toolchain.result_resolveWith locator (CudaToolkit.resolve (some home) reader)]
  cases (Toolchain.resolveWith locator (pure ()) w).result with
  | error e => rfl
  | ok packages => cases (CudaToolkit.resolve (some home) reader w).result <;> rfl

theorem link?_text (a : Artifact) (archive : KernelArchive) :
    text.link? a archive.name archive.libDirs =
      (a.withArchive archive).embedRuntimePath.toOption := by
  have hmap : ∀ ps : List Path, ps.map (fun p => p) = ps := fun ps => List.map_id' ps
  rw [link?, Artifact.withArchive_eq, Artifact.embedRuntimePath]
  simp only [text, hmap]
  split <;> rfl

/-- In the form of texts, the artifact is the planned one, the directories being those that the
configuration names. -/
theorem plan?_text {c : Configuration} {w : World} {dirs : List Path} (locator : Locator)
    (hwanted : c.aot.isEnabled = true) (hdirs : c.archiveDirectories w = .ok dirs) :
    text.plan? c dirs locator w = (c.planWith locator w).result.toOption := by
  have harchive : KernelArchive.ofConfiguration c w = .ok ⟨c.archive, dirs⟩ :=
    map_eq_ok_iff.2 ⟨dirs, hdirs, rfl⟩
  have hassembled : ({ c with aot := .disabled }.planWith locator w).result =
      c.assembled locator w := by
    rw [Configuration.result_planWith_eq]
    exact bind_pure _
  rw [plan?, hassembled, Configuration.result_planWith_eq]
  cases c.assembled locator w with
  | error e => rfl
  | ok a =>
      rw [ok_bind, if_pos hwanted, harchive]
      exact link?_text a ⟨c.archive, dirs⟩

/-! ### Texts as octets -/

/-- A toolkit's directory that is a text may be handed over as octets. -/
theorem toolchain?_octets (strays : StrayPaths) (locator : Locator) (home : Path)
    (reader : Reader) (w : World) :
    (octets strays).toolchain? locator (.ofPath home) reader w =
      (Toolchain.resolve locator (some home) reader w).result.toOption.map
        fun t => { t with cuda := t.cuda.map .ofPath } := by
  rw [(hom_octets strays).toolchain?, toolchain?_text]

/-- Directories of the archive that are texts may be handed over as octets. -/
theorem plan?_octets (strays : StrayPaths) {c : Configuration} {w : World} {dirs : List Path}
    (locator : Locator) (hwanted : c.aot.isEnabled = true)
    (hdirs : c.archiveDirectories w = .ok dirs) :
    (octets strays).plan? c (dirs.map .ofPath) locator w =
      (c.planWith locator w).result.toOption := by
  rw [(hom_octets strays).plan?, plan?_text locator hwanted hdirs]

end PathForm

end ExtensionPlan
