import ExtensionPlan.Proofs.Artifact.Shown
import ExtensionPlan.Proofs.Plan.Directives

/-!
# ExtensionPlan.Proofs.Plan.ReadBack

**Reading directives back.** The lines that are printed for a plan carry paths and names as they
are. So they are read back as they were exactly if no such text has a line break
(`Artifact.IsOnOneLine`), and the arguments of the linker are cut at their commas as they were put
together exactly if no link directory has one (`Configuration.readBack_planWith`).
-/

namespace ExtensionPlan

/-- None of the texts that are shown has a line break: the sources, the link directories, the
directories of the library files and the names of the libraries that have no files. -/
structure Artifact.IsOnOneLine (a : Artifact) : Prop where
  units : ∀ unit ∈ a.units, '\n' ∉ unit.path.chars
  linkDirs : ∀ dir ∈ a.linkDirs, '\n' ∉ dir.chars
  files : ∀ kind file, .file kind file ∈ a.linkables →
    ∀ dir, file.parent? = some dir → '\n' ∉ dir.chars
  names : ∀ name, .named name ∈ a.linkables → '\n' ∉ name.toList

/-- The words that a compiler driver cuts an argument of the linker into. -/
def linkerWords (arg : List Char) : List (List Char) := Text.pieces (· == ',') arg

/-- An entry of the search path is the rest of the argument, and is cut as well. -/
theorem linkerWords_entry (entry : String) :
    linkerWords ("-Wl,-rpath," ++ entry).toList =
      "-Wl".toList :: "-rpath".toList :: linkerWords entry.toList := by
  have hargument : ("-Wl,-rpath," ++ entry).toList =
      "-Wl".toList ++ ',' :: ("-rpath".toList ++ ',' :: entry.toList) := by
    rw [String.toList_append]
    rfl
  unfold linkerWords
  rw [hargument, Text.pieces_append_cons rfl, Text.pieces_append_cons rfl]
  rfl

theorem linkerWords_eq_singleton_iff {text : List Char} :
    linkerWords text = [text] ↔ ',' ∉ text := by
  constructor
  · intro h hcomma
    have hmem : text ∈ Text.pieces (· == ',') text := by
      rw [linkerWords] at h
      rw [h]
      exact List.mem_singleton_self text
    have hnot := Text.not_isSeparator_of_mem_pieces hmem ',' hcomma
    cases hnot
  · exact Text.pieces_of_not_mem

/-! ### Names -/

/-- A library file of a toolchain was found by the name of one of its libraries. -/
theorem Toolchain.FoundLibraries.exists_findLibrary {t : Toolchain} {w : World}
    (l : t.FoundLibraries w) {kind : LinkKind} {file : Path}
    (h : .file kind file ∈ l.linkables) :
    ∃ name ∈ ["torch", "c10", "torch_cpu", "torch_cuda", "c10_cuda", "torch_python", "cudart"],
      ∃ dirs, w.findLibrary name dirs = .ok file := by
  unfold linkables tensorFiles at h
  simp only [List.map_cons, List.cons_append, List.mem_cons, List.mem_append, List.mem_map,
    List.not_mem_nil, or_false, Linkable.file.injEq] at h
  rcases h with ⟨-, rfl⟩ | ⟨-, rfl⟩ | ⟨other, hother, -, rfl⟩ | ⟨-, rfl⟩ | ⟨-, rfl⟩
  · exact ⟨"torch", by simp, _, l.torch_found⟩
  · exact ⟨"c10", by simp, _, l.c10_found⟩
  · obtain ⟨name, hname, hfound⟩ := World.exists_of_mem_foundFiles hother
    refine ⟨name, ?_, _, hfound⟩
    simp only [List.mem_cons, List.not_mem_nil, or_false] at hname ⊢
    tauto
  · exact ⟨"torch_python", by simp, _, l.binding_found⟩
  · exact ⟨"cudart", by simp, _, l.cuda_found⟩

namespace Configuration

variable {c : Configuration} {locator : Locator} {w : World} {a : Artifact}

/-- The name that a library file of a plan is linked by has no line break. -/
theorem break_not_mem_linkName? (h : (c.planWith locator w).result = .ok a) {kind : LinkKind}
    {file : Path} (hfile : .file kind file ∈ a.linkables) {name : String}
    (hname : linkName? file = some name) : '\n' ∉ name.toList := by
  have hplain : ∀ title ∈ ["torch", "c10", "torch_cpu", "torch_cuda", "c10_cuda", "torch_python",
      "cudart"], '\n' ∉ title.toList ∧ '\n' ∉ (title ++ "_static").toList := by decide
  obtain ⟨t, ht, hlibraries, -⟩ := libraries_planWith h
  obtain ⟨l⟩ := Toolchain.foundLibraries_of_resolve ht
  rw [linkables_of_libraries l hlibraries] at hfile
  have hfile : .file kind file ∈ l.linkables := by
    rcases List.mem_append.1 hfile with hfile | hfile
    · exact hfile
    · split at hfile
      · cases List.mem_singleton.1 hfile
      · cases hfile
  obtain ⟨title, htitle, dirs, hfound⟩ := l.exists_findLibrary hfile
  have hlinked := linkName?_of_findLibrary (isLinkName_toolchain title htitle) hfound
  obtain ⟨hbare, hstatic⟩ := hplain title htitle
  rw [hlinked, linkedName] at hname
  split at hname
  · cases hname
    exact hstatic
  · cases hname
    exact hbare

/-- The entries of the search path of a plan are the loaded object's own directory and the link
directories, or there are neither. -/
theorem entries_planWith (h : (c.planWith locator w).result = .ok a) :
    (a.entries = [] ∧ a.linkDirs = []) ∨
      a.entries = RuntimePath.originToken :: a.linkDirs.map (·.text) := by
  obtain ⟨hplan, -, -⟩ := linking_planWith c locator w
  obtain ⟨t, -, henabled, hdisabled⟩ := hplan a h
  rw [Artifact.entries]
  cases haot : c.aot with
  | enabled =>
      obtain ⟨-, -, -, hpath, -⟩ := henabled haot
      rw [hpath]
      exact Or.inr rfl
  | disabled =>
      obtain ⟨-, hdirs, hpath⟩ := hdisabled haot
      rw [hpath]
      exact Or.inl ⟨rfl, hdirs⟩

/-- **Lines.** What is printed for a plan is read back as its lines exactly if none of the texts
that are shown has a line break. -/
theorem break_not_mem_line_iff (h : (c.planWith locator w).result = .ok a) :
    (∀ d ∈ a.directives, '\n' ∉ d.line.toList) ↔ a.IsOnOneLine := by
  simp only [Directive.break_mem_line_iff]
  constructor
  · intro hlines
    have hmem := fun d => @Artifact.mem_directives_iff a d
    refine ⟨fun unit hunit => ?_, fun dir hdir => ?_, fun kind file hfile dir hdir => ?_,
      fun name hname => ?_⟩
    · have hshown := hlines (.watch unit.path) ((hmem _).2 (.inl ⟨unit, hunit, rfl⟩))
      simpa [Directive.shown, Path.text] using hshown
    · have hshown := hlines (.search dir) ((hmem _).2 (.inr (.inl ⟨dir, hdir, rfl⟩)))
      simpa [Directive.shown, Path.text] using hshown
    · have htakes : (Linkable.file kind file).Takes (.search dir) := .inl ⟨dir, hdir, rfl⟩
      have hshown := hlines _ ((hmem _).2 (.inr (.inr (.inl ⟨_, hfile, htakes⟩))))
      simpa [Directive.shown, Path.text] using hshown
    · have htakes : (Linkable.named name).Takes (.linkNamed name) := rfl
      exact hlines _ ((hmem _).2 (.inr (.inr (.inl ⟨_, hname, htakes⟩))))
  · intro hline d hd
    rcases Artifact.mem_directives_iff.1 hd with ⟨unit, hunit, rfl⟩ | ⟨dir, hdir, rfl⟩ |
      ⟨item, hitem, htakes⟩ | ⟨entry, hentry, rfl⟩
    · simpa [Directive.shown, Path.text] using hline.units unit hunit
    · simpa [Directive.shown, Path.text] using hline.linkDirs dir hdir
    · cases item with
      | named name =>
          cases htakes
          exact hline.names name hitem
      | file kind file =>
          rcases htakes with ⟨dir, hdir, rfl⟩ | hlink
          · simpa [Directive.shown, Path.text] using hline.files kind file hitem dir hdir
          · obtain ⟨name, hname, rfl⟩ := Option.map_eq_some_iff.1 hlink
            have hbreak := break_not_mem_linkName? h hitem hname
            split <;> exact hbreak
    · have hdirs : '\n' ∉ entry.toList := by
        rcases entries_planWith h with ⟨hnone, -⟩ | hentries
        · rw [hnone] at hentry
          cases hentry
        · rw [hentries, List.mem_cons, List.mem_map] at hentry
          rcases hentry with rfl | ⟨dir, hdir, rfl⟩
          · decide
          · simpa [Path.text] using hline.linkDirs dir hdir
      have hflag : '\n' ∉ "-Wl,-rpath,".toList := by decide
      rw [Directive.shown, String.toList_append, List.mem_append]
      exact not_or.2 ⟨hflag, hdirs⟩

/-- The values of the lines that hand an argument on to the linker are those of the entries of the
search path. -/
theorem filterMap_linkerValue?_planWith (h : (c.planWith locator w).result = .ok a) :
    (a.directiveLines.map String.toList).filterMap linkerValue? =
      a.entries.map fun entry => ("-Wl,-rpath," ++ entry).toList := by
  obtain ⟨t, -, l, links, hdirectives, hlinks, -⟩ := directives_planWith h
  have hentries : (a.runtimePath.elim [] fun r => r.entries.map fun entry =>
      Directive.linkerArg ("-Wl,-rpath," ++ entry)) =
        a.entries.map fun entry => .linkerArg ("-Wl,-rpath," ++ entry) := by
    rw [Artifact.entries]
    cases a.runtimePath <;> rfl
  have hwatches : (a.units.map fun unit => Directive.watch unit.path).filterMap
      Directive.linkerArg? = [] := by
    simp [List.filterMap_map, Directive.linkerArg?, Function.comp_def]
  have hnone : links.filterMap Directive.linkerArg? = [] := by
    rw [List.filterMap_eq_nil_iff]
    intro d hd
    cases d with
    | linkerArg arg => rcases hlinks _ hd with hfalse | hfalse <;> cases hfalse
    | _ => rfl
  have hargs : a.directives.filterMap Directive.linkerArg? =
      a.entries.map ("-Wl,-rpath," ++ ·) := by
    rw [hdirectives, hentries, List.filterMap_append, List.filterMap_append, hwatches, hnone,
      List.filterMap_map, List.append_nil, List.nil_append]
    exact congrFun List.filterMap_eq_map a.entries
  calc (a.directiveLines.map String.toList).filterMap linkerValue?
      = a.directives.filterMap fun d => d.linkerArg?.map String.toList := by
        rw [Artifact.directiveLines, List.map_map, List.filterMap_map]
        exact List.filterMap_congr fun d _ => linkerValue?_line d
    _ = (a.directives.filterMap Directive.linkerArg?).map String.toList :=
        (List.map_filterMap ..).symm
    _ = a.entries.map fun entry => ("-Wl,-rpath," ++ entry).toList := by
        rw [hargs, List.map_map]
        rfl

/-- What is printed is read back exactly if no text that is shown has a line break. -/
theorem pieces_planWith_iff (h : (c.planWith locator w).result = .ok a) :
    Text.pieces (· == '\n') (CommandLine.unlines a.directiveLines).toList =
      a.directiveLines.map String.toList ++ [[]] ↔ a.IsOnOneLine := by
  rw [CommandLine.pieces_unlines_iff, Artifact.directiveLines, List.forall_mem_map,
    break_not_mem_line_iff h]

/-- The arguments of the linker are cut into the two words of the option and what the entries are
cut into. -/
theorem map_linkerWords_planWith (h : (c.planWith locator w).result = .ok a) :
    ((a.directiveLines.map String.toList).filterMap linkerValue?).map linkerWords =
      a.entries.map fun entry =>
        "-Wl".toList :: "-rpath".toList :: linkerWords entry.toList := by
  rw [filterMap_linkerValue?_planWith h, List.map_map]
  exact List.map_congr_left fun entry _ => linkerWords_entry entry

/-- The entries stay whole exactly if no link directory has a comma. -/
theorem map_linkerWords_planWith_iff (h : (c.planWith locator w).result = .ok a) :
    ((a.directiveLines.map String.toList).filterMap linkerValue?).map linkerWords =
        (a.entries.map fun entry => ["-Wl".toList, "-rpath".toList, entry.toList]) ↔
      ∀ dir ∈ a.linkDirs, ',' ∉ dir.chars := by
  rw [map_linkerWords_planWith h, List.map_inj_left]
  simp only [List.cons.injEq, true_and, linkerWords_eq_singleton_iff]
  rcases entries_planWith h with ⟨hnone, hdirs⟩ | hentries
  · simp [hnone, hdirs]
  · have horigin : ',' ∉ RuntimePath.originToken.toList := by decide
    simp [hentries, horigin, Path.text]

/-- **Reading directives back.** Every line of a plan's directives begins with the build tool's
mark. What is printed is read back as these lines exactly if no text that is shown has a line break.
The arguments of the linker are those of the entries of the search path, in their order, and are cut
at commas into the two words of the option and the entry exactly if no link directory has a comma;
else the entry is cut as well. -/
theorem readBack_planWith (h : (c.planWith locator w).result = .ok a) :
    (∀ line ∈ a.directiveLines, "cargo:".toList <+: line.toList) ∧
    (Text.pieces (· == '\n') (CommandLine.unlines a.directiveLines).toList =
        a.directiveLines.map String.toList ++ [[]] ↔ a.IsOnOneLine) ∧
    ((a.directiveLines.map String.toList).filterMap linkerValue?).map linkerWords =
      (a.entries.map fun entry =>
        "-Wl".toList :: "-rpath".toList :: linkerWords entry.toList) ∧
    (((a.directiveLines.map String.toList).filterMap linkerValue?).map linkerWords =
        (a.entries.map fun entry => ["-Wl".toList, "-rpath".toList, entry.toList]) ↔
      ∀ dir ∈ a.linkDirs, ',' ∉ dir.chars) := by
  refine ⟨?_, pieces_planWith_iff h, map_linkerWords_planWith h, map_linkerWords_planWith_iff h⟩
  intro line hline
  obtain ⟨d, -, rfl⟩ := List.mem_map.1 hline
  exact d.cargo_prefix_line

end Configuration

/-! ### A break and a comma -/

namespace Sample

/-- The name of a source that goes on in a second line, which looks like one of a build script. -/
def brokenName : String := "a\ncargo:rerun-if-env-changed=X.cc"

/-- The installation and a directory with a source of that name. -/
def brokenTree : Tree where
  children :=
    (⟨"r".toList, by rfl⟩, .directory [(⟨brokenName.toList, by rfl⟩, emptyFile)]) ::
      tree.children
  proper := by rfl

/-- The installation with nothing else around. -/
def brokenWorld : World := { world with tree := brokenTree }

/-- The configuration with that source, and with an archive in a directory whose name has a
comma. -/
def commaConfiguration : Configuration :=
  { configuration with sourceDir := "/r", archiveDirs := ["/k,l"] }

/-- There is a plan. -/
theorem exists_broken_plan :
    ∃ a, (commaConfiguration.planWith locator brokenWorld).result = .ok a ∧
      a.units = [⟨.ofString ("/r/" ++ brokenName), .native⟩] ∧ .ofString "/k,l" ∈ a.linkDirs := by
  have h : (commaConfiguration.planWith locator brokenWorld).result.toOption.map
      (fun a => (a.units, decide (.ofString "/k,l" ∈ a.linkDirs))) =
        some ([⟨.ofString ("/r/" ++ brokenName), .native⟩], true) := by
    decide +kernel
  obtain ⟨a, ha, heq⟩ := Option.map_eq_some_iff.1 h
  obtain ⟨hunits, hdir⟩ := Prod.mk.inj heq
  exact ⟨a, toOption_eq_some_iff.1 ha, hunits, of_decide_eq_true hdir⟩

/-- Neither its lines nor its arguments of the linker are read back. -/
theorem not_readBack :
    ∃ a, (commaConfiguration.planWith locator brokenWorld).result = .ok a ∧
      Text.pieces (· == '\n') (CommandLine.unlines a.directiveLines).toList ≠
        a.directiveLines.map String.toList ++ [[]] ∧
      ((a.directiveLines.map String.toList).filterMap linkerValue?).map linkerWords ≠
        (a.entries.map fun entry => ["-Wl".toList, "-rpath".toList, entry.toList]) := by
  obtain ⟨a, ha, hunits, hdir⟩ := exists_broken_plan
  refine ⟨a, ha, ?_, ?_⟩
  · rw [ne_eq, Configuration.pieces_planWith_iff ha]
    intro hline
    have hbreak := hline.units ⟨.ofString ("/r/" ++ brokenName), .native⟩ (by simp [hunits])
    exact hbreak (by decide)
  · rw [ne_eq, Configuration.map_linkerWords_planWith_iff ha]
    intro hcommas
    exact hcommas _ hdir (by decide)

/-- The directives of the installation are read back. -/
theorem readBack_planWith_sample :
    ∃ a, (configuration.planWith locator world).result = .ok a ∧
      (∀ line ∈ a.directiveLines, "cargo:".toList <+: line.toList) ∧
      Text.pieces (· == '\n') (CommandLine.unlines a.directiveLines).toList =
        a.directiveLines.map String.toList ++ [[]] ∧
      ((a.directiveLines.map String.toList).filterMap linkerValue?).map linkerWords =
        [["-Wl".toList, "-rpath".toList, "$ORIGIN".toList],
          ["-Wl".toList, "-rpath".toList, "/s/build/lib".toList]] := by
  have h : (configuration.planWith locator world).result.toOption.map
      (fun a => (decide (∀ d ∈ a.directives, '\n' ∉ d.line.toList), a.entries, a.linkDirs)) =
        some (true, ["$ORIGIN", "/s/build/lib"], [.ofString "/s/build/lib"]) := by
    decide +kernel
  obtain ⟨a, ha, heq⟩ := Option.map_eq_some_iff.1 h
  have ha := toOption_eq_some_iff.1 ha
  obtain ⟨hlines, heq⟩ := Prod.mk.inj heq
  obtain ⟨hentries, hdirs⟩ := Prod.mk.inj heq
  obtain ⟨hcargo, hreadBack, -, hwords⟩ := Configuration.readBack_planWith ha
  refine ⟨a, ha, hcargo, ?_, ?_⟩
  · exact hreadBack.2 ((Configuration.break_not_mem_line_iff ha).1 (of_decide_eq_true hlines))
  · have hcommas : ∀ dir ∈ a.linkDirs, ',' ∉ dir.chars := by
      rw [hdirs]
      decide
    rw [hwords.2 hcommas, hentries]
    rfl

end Sample

end ExtensionPlan
