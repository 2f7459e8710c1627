import ExtensionPlan.Proofs.Configuration
import ExtensionPlan.Proofs.Glob.Entries
import ExtensionPlan.Proofs.Path.Order
import ExtensionPlan.SourceSet

/-!
# ExtensionPlan.Proofs.SourceSet

**Which sources are found.** The sources of a collection are the entries of one directory whose
names end in the extension and that lead to regular files, links followed; they are in the order of
paths, each once (`ListsFiles`). The kernel is the one file of its name (`ListsKernel`). Nothing of
this depends on what the directory is called or in which order its entries come
(`SourceSet.exists_discover`).

A directory is shown in the spelling in which the search comes to it (`World.searched`), which is
its own but for separators that stand twice.
-/

namespace ExtensionPlan

namespace SourceSet

variable {w : World} {dir : Path}

/-! ### What a collection holds -/

/-- Text that can be a part of a name and stands for itself in a pattern. -/
structure IsPlain (text : String) : Prop where
  whole : '/' ∉ text.toList
  literal : ∀ c ∈ text.toList, Glob.isMeta c = false

instance (text : String) : Decidable (IsPlain text) :=
  decidable_of_iff ('/' ∉ text.toList ∧ (text.toList.all fun c => !Glob.isMeta c) = true)
    ⟨fun h => ⟨h.1, by simpa using h.2⟩, fun h => ⟨h.whole, by simpa using h.literal⟩⟩

/-- The paths are those of the regular files in the directory whose names end so. -/
structure ListsFiles (w : World) (dir : Path) (ending : List Char) (files : List Path) :
    Prop where
  /-- Each path stands strictly above those before it. -/
  increasing : Path.Increasing files
  mem_iff : ∀ p, p ∈ files ↔ ∃ name : FileName, w.HasEntry dir name ∧ ending <:+ name.chars ∧
    p = (World.searched dir).join name.path ∧ w.isFile p = true
  /-- The path that is shown for an entry is that of the entry in the directory. -/
  respells : ∀ name : FileName,
    w.Respells ((World.searched dir).join name.path) (dir.join name.path)

/-- The path is that of the file of this name in the directory, if there is one. -/
structure ListsKernel (w : World) (dir : Path) (name : List Char) (kernels : List Path) :
    Prop where
  eq_ite : kernels =
    if w.isDirectory dir && w.isFile ((World.searched dir).join ⟨name⟩) then
      [(World.searched dir).join ⟨name⟩]
    else []
  respells : w.Respells ((World.searched dir).join ⟨name⟩) (dir.join ⟨name⟩)

namespace ListsFiles

variable {ending : List Char} {files : List Path}

/-- A directory that is missing has no files. -/
theorem eq_nil (h : ListsFiles w dir ending files) (hmissing : w.isDirectory dir = false) :
    files = [] := by
  rw [List.eq_nil_iff_forall_not_mem]
  intro p hp
  obtain ⟨name, hname, -⟩ := (h.mem_iff p).1 hp
  obtain ⟨children, hchildren, -⟩ := World.hasEntry_iff.1 hname
  rw [World.isDirectory_iff.2 ⟨children, hchildren⟩] at hmissing
  cases hmissing

end ListsFiles

/-! ### Searching a directory -/

theorem respells_join (habsolute : dir.isAbsolute = true) {name : List Char}
    (whole : '/' ∉ name) :
    w.Respells ((World.searched dir).join ⟨name⟩) (dir.join ⟨name⟩) :=
  (World.respells_searched habsolute).join (World.isAbsolute_searched habsolute) habsolute whole

/-- What is found in a directory by a search that finds no fault, in order. -/
theorem findIn_of_glob {pattern : String} {setting : Setting} {paths : List Path}
    (hdirectory : w.isDirectory dir = true)
    (h : w.glob (Glob.escape dir.chars ++ '/' :: pattern.toList) = .ok (paths.map .ok)) :
    findIn w dir pattern setting = .ok (Sorted.ofList Path.le (paths.filter w.isFile)) := by
  have hall : (paths.map Except.ok).mapM id = (.ok paths : Except Glob.Unlisted (List Path)) := by
    rw [mapM_eq_ok_iff, List.forall₂_map_left_iff, List.forall₂_same]
    exact fun p _ => rfl
  rw [findIn, if_pos hdirectory, h]
  show ((paths.map Except.ok).mapM id).mapError _ >>= _ = _
  rw [hall]
  rfl

theorem findIn_of_missing {pattern : String} {setting : Setting}
    (hmissing : w.isDirectory dir = false) : findIn w dir pattern setting = .ok [] := by
  rw [findIn, hmissing, if_neg Bool.false_ne_true]

/-- A star and a plain extension find the entries that have it. -/
theorem exists_glob_star (habsolute : dir.isAbsolute = true)
    (hdirectory : w.isDirectory dir = true) {extension : String} (hplain : IsPlain extension) :
    ∃ names : List FileName, names.Nodup ∧
      (∀ name, name ∈ names ↔ w.HasEntry dir name ∧ '.' :: extension.toList <:+ name.chars) ∧
      w.glob (Glob.escape dir.chars ++ '/' :: ("*." ++ extension).toList) =
        .ok ((names.map fun name => (World.searched dir).join name.path).map .ok) := by
  have hpattern : ("*." ++ extension).toList = '*' :: '.' :: extension.toList := by
    rw [String.toList_append]
    rfl
  have hliteral : ∀ c ∈ '.' :: extension.toList, Glob.isMeta c = false := by
    intro c hc
    rcases List.mem_cons.1 hc with rfl | hc
    · decide
    · exact hplain.literal c hc
  have hwhole : '/' ∉ '*' :: '.' :: extension.toList := by
    simpa using hplain.whole
  obtain ⟨children, hchildren⟩ := World.isDirectory_iff.1 hdirectory
  have hsearched := World.find_searched habsolute hchildren
  have hdots : World.PassDots
      (.anySequence :: ('.' :: extension.toList).map Glob.escapeToken) :=
    fun hhead => by cases hhead
  obtain ⟨names, hnodup, hnames, hfound⟩ :=
    World.expand_entries hdots (World.isDirectory_iff.2 ⟨children, hsearched⟩)
  refine ⟨names, hnodup, fun name => ?_, ?_⟩
  · rw [hnames, Glob.covers_star, World.hasEntry_iff, World.hasEntry_iff, hsearched, hchildren]
  · have hpaths : ∀ name : FileName, World.entryPath (World.searched dir) name.path =
        (World.searched dir).join name.path :=
      fun name => World.entryPath_of_isAbsolute (World.isAbsolute_searched habsolute) name.path
    rw [hpattern, World.glob_below habsolute hdirectory hwhole (List.cons_ne_nil _ _)
      (Glob.tokens_star hliteral), Glob.Segment.ofTokens_star, hfound]
    simp only [hpaths]

/-- **The files with an ending.** A directory is searched for the files that have the extension,
and a directory that is missing has none. -/
theorem exists_findIn_star (habsolute : dir.isAbsolute = true) {extension : String}
    (hplain : IsPlain extension) (setting : Setting) :
    ∃ files, findIn w dir ("*." ++ extension) setting = .ok files ∧
      ListsFiles w dir ('.' :: extension.toList) files := by
  have hrespells : ∀ name : FileName,
      w.Respells ((World.searched dir).join name.path) (dir.join name.path) :=
    fun name => respells_join habsolute name.isName.whole
  by_cases hdirectory : w.isDirectory dir = true
  · obtain ⟨names, hnodup, hnames, hglob⟩ := exists_glob_star habsolute hdirectory hplain
    have hdistinct := Path.pairwise_join
      (Path.filled_of_isAbsolute (World.isAbsolute_searched habsolute)) hnodup
    refine ⟨_, findIn_of_glob hdirectory hglob, Path.increasing_ofList (hdistinct.filter _),
      fun p => ?_, hrespells⟩
    rw [Sorted.mem_ofList, List.mem_filter, List.mem_map]
    constructor
    · rintro ⟨⟨name, hname, rfl⟩, hfile⟩
      obtain ⟨hentry, hending⟩ := (hnames name).1 hname
      exact ⟨name, hentry, hending, rfl, hfile⟩
    · rintro ⟨name, hentry, hending, rfl, hfile⟩
      exact ⟨⟨name, (hnames name).2 ⟨hentry, hending⟩, rfl⟩, hfile⟩
  · rw [Bool.not_eq_true] at hdirectory
    refine ⟨[], findIn_of_missing hdirectory, List.Pairwise.nil, fun p => ?_, hrespells⟩
    constructor
    · exact fun hp => absurd hp List.not_mem_nil
    · rintro ⟨name, hentry, -⟩
      obtain ⟨children, hchildren, -⟩ := World.hasEntry_iff.1 hentry
      rw [World.isDirectory_iff.2 ⟨children, hchildren⟩] at hdirectory
      cases hdirectory

/-- A directory is no file, and neither is it with a separator behind it. -/
theorem isFile_join_nil {place : Path} (h : w.isDirectory place = true) :
    w.isFile place = false ∧ w.isFile (place.join ⟨[]⟩) = false := by
  obtain ⟨children, hchildren⟩ := World.isDirectory_iff.1 h
  refine ⟨by rw [World.isFile, hchildren], ?_⟩
  rw [← Bool.not_eq_true, World.isFile_iff]
  rintro ⟨file, hfile⟩
  have hwalk := (World.find_eq_ok_iff.1 hchildren).2
  have hempty : Path.isIdle [] = true := rfl
  have hidle := World.walk_idle_of_directory hwalk hempty []
  have hjoin : w.walk (place.join ⟨[]⟩) (Tree.piecesOf (place.join ⟨[]⟩) ++ []) =
      w.walk place (Tree.piecesOf place ++ [[]]) := World.walk_join List.not_mem_nil place []
  rw [List.append_nil, (World.find_eq_ok_iff.1 hfile).2, hidle, List.append_nil, hwalk] at hjoin
  cases hjoin

/-- A plain name finds the file that has it. -/
theorem exists_glob_name (habsolute : dir.isAbsolute = true)
    (hdirectory : w.isDirectory dir = true) {name : String} (hplain : IsPlain name) :
    ∃ paths : List Path,
      w.glob (Glob.escape dir.chars ++ '/' :: name.toList) = .ok (paths.map .ok) ∧
      paths.filter w.isFile =
        [(World.searched dir).join ⟨name.toList⟩].filter w.isFile := by
  obtain ⟨children, hchildren⟩ := World.isDirectory_iff.1 hdirectory
  have hsearched := World.isDirectory_iff.2 ⟨children, World.find_searched habsolute hchildren⟩
  by_cases hempty : name.toList = []
  · -- without a name the directory itself is found, which is no file
    obtain ⟨hplace, hjoin⟩ := isFile_join_nil hsearched
    refine ⟨[World.searched dir], ?_, ?_⟩
    · rw [hempty]
      exact World.glob_separator habsolute hdirectory
    · simp [hempty, hplace, hjoin]
  · have htokens : Glob.tokens name.toList = .ok (name.toList.map Glob.escapeToken) := by
      rw [← Glob.tokens_escape, Glob.escape_eq_self hplain.literal]
    have hsegment : Glob.Segment.ofTokens (name.toList.map Glob.escapeToken) =
        .literal name.toList := Glob.Segment.ofPiece_of_plain hplain.literal
    have hpath : World.entryPath (World.searched dir) ⟨name.toList⟩ =
        (World.searched dir).join ⟨name.toList⟩ :=
      World.entryPath_of_isAbsolute (World.isAbsolute_searched habsolute) _
    obtain ⟨found, hfound, hfile⟩ := World.expand_name (w := w) (q := World.searched dir)
      name.toList
    rw [hpath] at hfound hfile
    refine ⟨if found then [(World.searched dir).join ⟨name.toList⟩] else [], ?_, ?_⟩
    · rw [World.glob_below habsolute hdirectory hplain.whole hempty htokens, hsegment, hfound]
      cases found <;> rfl
    · cases found with
      | true => rfl
      | false =>
          have hnone : w.isFile ((World.searched dir).join ⟨name.toList⟩) = false := by
            rw [← Bool.not_eq_true]
            exact fun h => Bool.false_ne_true (hfile h)
          simp [hnone]

/-- **The kernel.** A directory is searched for the one file of the name. -/
theorem exists_findIn_name (habsolute : dir.isAbsolute = true) {name : String}
    (hplain : IsPlain name) (setting : Setting) :
    ∃ kernels, findIn w dir name setting = .ok kernels ∧
      ListsKernel w dir name.toList kernels := by
  have hrespells := respells_join (w := w) habsolute hplain.whole
  by_cases hdirectory : w.isDirectory dir = true
  · obtain ⟨paths, hglob, hpaths⟩ := exists_glob_name habsolute hdirectory hplain
    refine ⟨_, findIn_of_glob hdirectory hglob, ?_, hrespells⟩
    rw [hpaths, hdirectory, Bool.true_and, List.filter_cons, List.filter_nil]
    split <;> rfl
  · rw [Bool.not_eq_true] at hdirectory
    refine ⟨[], findIn_of_missing hdirectory, ?_, hrespells⟩
    rw [hdirectory, Bool.false_and, if_neg Bool.false_ne_true]

/-! ### The sources of a configuration -/

variable {c : Configuration}

/-- A path that is not empty can be seen from the root, at least if it need not be seen from the
working directory or there is one. -/
theorem exists_sourceDirectory (filled : c.sourceDir ≠ ⟨[]⟩)
    (located : c.sourceDir.isAbsolute = true ∨ ∃ cwd, w.currentDirectory = .ok cwd) :
    ∃ dir, c.sourceDirectory w = .ok dir := by
  have hempty : c.sourceDir.isEmpty = false := by
    rw [← Bool.not_eq_true, Path.isEmpty, List.isEmpty_iff]
    intro h
    exact filled (by rw [← h])
  unfold Configuration.sourceDirectory Configuration.absolute World.absolute
  rw [hempty, if_neg Bool.false_ne_true]
  by_cases habsolute : c.sourceDir.isAbsolute = true
  · rw [if_pos habsolute]
    exact ⟨_, rfl⟩
  · obtain ⟨cwd, hcwd⟩ := located.resolve_left habsolute
    rw [if_neg habsolute, hcwd]
    exact ⟨_, rfl⟩

/-- **The sources of a module.** A configuration with a plain extension and a plain kernel name has
its sources found, whatever there is on the machine. -/
theorem exists_discover (filled : c.sourceDir ≠ ⟨[]⟩)
    (located : c.sourceDir.isAbsolute = true ∨ ∃ cwd, w.currentDirectory = .ok cwd)
    (extension : IsPlain c.sourceExtension) (kernel : IsPlain c.kernelFile) :
    ∃ dir bindingsDir s, c.sourceDirectory w = .ok dir ∧
      c.bindingsDirectory w = .ok bindingsDir ∧ discover c w = .ok s ∧
      ListsFiles w dir ('.' :: c.sourceExtension.toList) s.native ∧
      ListsFiles w bindingsDir ('.' :: c.sourceExtension.toList) s.bindings ∧
      ListsKernel w dir c.kernelFile.toList s.kernels := by
  obtain ⟨dir, hdir⟩ := exists_sourceDirectory filled located
  have habsolute := Configuration.isAbsolute_of_sourceDirectory hdir
  have hbindings : c.bindingsDirectory w =
      .ok ((dir.parent?.getD dir).join c.bindingsDirName) := by
    rw [Configuration.bindingsDirectory, Configuration.parentDirectory, hdir]
    rfl
  have hbeside := Configuration.isAbsolute_of_bindingsDirectory hbindings
  obtain ⟨native, hnative, hnativeFiles⟩ :=
    exists_findIn_star (w := w) habsolute extension .sourceExtension
  obtain ⟨bindings, hfound, hbindingFiles⟩ :=
    exists_findIn_star (w := w) hbeside extension .sourceExtension
  obtain ⟨kernels, hkernels, hkernelFile⟩ :=
    exists_findIn_name (w := w) habsolute kernel .kernelFile
  refine ⟨dir, _, ⟨native, bindings, kernels⟩, hdir, hbindings, ?_, hnativeFiles, hbindingFiles,
    hkernelFile⟩
  unfold discover
  rw [hdir, hbindings]
  show (findIn w dir ("*." ++ c.sourceExtension) .sourceExtension >>= fun _ => _) = _
  rw [hnative]
  show (findIn w _ ("*." ++ c.sourceExtension) .sourceExtension >>= fun _ => _) = _
  rw [hfound]
  show (findIn w dir c.kernelFile .kernelFile >>= fun _ => _) = _
  rw [hkernels]
  rfl

/-- A source directory whose name is a pattern for other names as well, next to one of those. In it
are a file, links to a file and to a directory, and a directory that is named like a file. -/
def patternTree : Tree where
  children :=
    [(⟨"s[ab]*".toList, by rfl⟩, .directory [
        (⟨"z.cc".toList, by rfl⟩, .link "../sa/k.cc"),
        (⟨"k.cc".toList, by rfl⟩, .file ⟨[], false, none⟩),
        (⟨"d.cc".toList, by rfl⟩, .directory []),
        (⟨"kernel.cu".toList, by rfl⟩, .link "k.cc"),
        (⟨"l.cc".toList, by rfl⟩, .link "d.cc")]),
      (⟨"sa".toList, by rfl⟩, .directory [(⟨"k.cc".toList, by rfl⟩, .file ⟨[], false, none⟩)])]
  proper := by rfl

/-- The working directory is the root, from which the source directory is seen. -/
def patternWorld : World := .ofTree patternTree []

/-- A link to a file is a source and a link to a directory is none; the directory of the bindings is
missing. -/
theorem exists_discover_pattern :
    ∃ s, discover (.ofSourceDir "s[ab]*" .table) patternWorld = .ok s ∧
      Path.ofString "/s[ab]*/z.cc" ∈ s.native ∧ Path.ofString "/s[ab]*/l.cc" ∉ s.native ∧
      s.bindings = [] ∧ s.kernels = ["/s[ab]*/kernel.cu"] := by
  obtain ⟨dir, bindingsDir, s, hdir, hbindingsDir, hs, hnative, hbindings, hkernel⟩ :=
    exists_discover (c := .ofSourceDir "s[ab]*" .table) (w := patternWorld) (by decide)
      (Or.inr ⟨"/", by rfl⟩) (by decide) (by decide)
  obtain rfl : Path.ofString "/s[ab]*" = dir := by
    have h : Configuration.sourceDirectory (.ofSourceDir "s[ab]*" .table) patternWorld =
        .ok "/s[ab]*" := by rfl
    exact Except.ok.inj (h.symm.trans hdir)
  obtain rfl : Path.ofString "/pybind" = bindingsDir := by
    have h : Configuration.bindingsDirectory (.ofSourceDir "s[ab]*" .table) patternWorld =
        .ok "/pybind" := by rfl
    exact Except.ok.inj (h.symm.trans hbindingsDir)
  refine ⟨s, hs, ?_, ?_, hbindings.eq_nil (by decide +kernel), ?_⟩
  · rw [hnative.mem_iff]
    exact ⟨⟨"z.cc".toList, by rfl⟩, ⟨_, rfl, by decide +kernel⟩, by decide, by decide,
      by decide +kernel⟩
  · rw [hnative.mem_iff]
    rintro ⟨name, -, -, -, hfile⟩
    exact absurd hfile (by decide +kernel)
  · rw [hkernel.eq_ite]
    decide +kernel

end SourceSet

end ExtensionPlan
