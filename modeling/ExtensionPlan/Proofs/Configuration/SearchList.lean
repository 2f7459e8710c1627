import ExtensionPlan.Proofs.Configuration
import ExtensionPlan.Proofs.Path.Ancestors
import ExtensionPlan.Proofs.Plan.Trace

/-!
# ExtensionPlan.Proofs.Configuration.SearchList

**Where the kernel archive is searched.** The directories of the kernel archive are named by one
variable, with colons between them. Texts without a colon are read back from there, except that the
empty ones do not count: what is searched is the directories that are named by the others, in their
order and seen from the root, or if there are none the one below the source directory
(`Configuration.read_withArchiveDirs`). So colons in front, at the end or next to each other change
neither these directories nor the plan.
-/

namespace ExtensionPlan

namespace Path

/-- The texts with a colon between each two. -/
def searchList (texts : List String) : String := ":".intercalate texts

/-- The paths that the texts spell. An empty text spells none. -/
def named (texts : List String) : List Path := (texts.filter (· ≠ "")).map ofString

theorem isEmpty_ofString (text : String) : (ofString text).isEmpty = true ↔ text = "" := by
  simp [ofString, isEmpty]

theorem filled_of_mem_named {texts : List String} {p : Path} (h : p ∈ named texts) :
    p.chars ≠ [] := by
  obtain ⟨text, htext, rfl⟩ := List.mem_map.1 h
  have hfilled := (List.mem_filter.1 htext).2
  simpa [ofString] using hfilled

/-- Texts without a colon are read back, unless there are none. -/
theorem ofSearchList_searchList {texts : List String} (hne : texts ≠ [])
    (whole : ∀ text ∈ texts, ':' ∉ text.toList) :
    ofSearchList (searchList texts) = texts.map ofString := by
  have hchars : (searchList texts).toList = [':'].intercalate (texts.map String.toList) :=
    String.toList_intercalate
  have hpieces : Text.pieces (· == ':') (searchList texts).toList = texts.map String.toList := by
    rw [hchars, Text.pieces_intercalate (by simpa using hne) (by simpa using whole)]
  rw [ofSearchList, hpieces, List.map_map]
  rfl

/-- No text and one empty text are written alike, and neither spells a path. -/
theorem filter_ofSearchList_searchList {texts : List String}
    (whole : ∀ text ∈ texts, ':' ∉ text.toList) :
    (ofSearchList (searchList texts)).filter (!·.isEmpty) = named texts := by
  by_cases hne : texts = []
  · subst hne
    rfl
  · rw [ofSearchList_searchList hne whole, List.filter_map, named]
    congr 1
    refine List.filter_congr fun text _ => ?_
    rw [Function.comp_apply, Bool.eq_iff_iff, Bool.not_eq_true', ← Bool.not_eq_true,
      isEmpty_ofString, decide_eq_true_iff]

end Path

namespace World

/-- The surroundings with a search list of the texts for the directories of the kernel archive. -/
def withArchiveDirs (w : World) (reader : Reader) (texts : List String) : World :=
  w.withVariable reader Setting.archiveDirs.key (some (Path.searchList texts))

end World

namespace Configuration

variable {reader after : Reader} {w later : World} {c : Configuration} {texts : List String}
  {cwd : Path}

/-! ### Reading the variable -/

section

variable (whole : ∀ text ∈ texts, ':' ∉ text.toList)

include whole

/-- An empty search list is the same as none, since it spells no path either. -/
theorem getD_searchList :
    (((some (Path.searchList texts)).filter (· ≠ "")).map fun text =>
      (Path.ofSearchList text).filter (!·.isEmpty)).getD [] = Path.named texts := by
  rw [← Path.filter_ofSearchList_searchList whole]
  by_cases hempty : Path.searchList texts = ""
  · rw [hempty]
    rfl
  · rw [Option.filter_some_pos (by simpa using hempty)]
    rfl

theorem ofParts_withArchiveDirs (sourceDir : Path) (strict : Bool) (aot : Toggle)
    (kind : LocatorKind) :
    ofParts reader (w.withArchiveDirs reader texts) sourceDir strict aot kind =
      { ofParts reader w sourceDir strict aot kind with archiveDirs := Path.named texts } := by
  have hfilled : ∀ s : Setting, s ≠ .archiveDirs →
      (w.withArchiveDirs reader texts).filled? reader s.key = w.filled? reader s.key := by
    intro s hs
    refine w.filled?_withVariable_of_ne reader _ _ reader ?_
    revert hs
    cases s <;> decide
  have hcuda : (w.withArchiveDirs reader texts).filled? reader "CUDA_PATH" =
      w.filled? reader "CUDA_PATH" := w.filled?_withVariable_of_ne reader _ _ reader (by decide)
  have hdirs : (w.withArchiveDirs reader texts).filled? reader Setting.archiveDirs.key =
      (some (Path.searchList texts)).filter (· ≠ "") := by
    rw [World.filled?, World.withArchiveDirs, World.value?_withVariable, if_pos rfl]
  simp [ofParts, hfilled, hcuda, hdirs, ← getD_searchList whole]

/-- Nothing but the directories is read of that variable. -/
theorem result_readFor_withArchiveDirs (after : Reader) :
    (readFor reader after (w.withArchiveDirs reader texts)).result =
      (fun c : Configuration => { c with archiveDirs := Path.named texts }) <$>
        (readFor reader after w).result := by
  have hfilled : ∀ {name : String}, name ≠ Setting.archiveDirs.key →
      (w.withArchiveDirs reader texts).filled? reader name = w.filled? reader name := by
    intro name hname
    exact w.filled?_withVariable_of_ne reader _ _ reader hname
  have htoggle : (w.withArchiveDirs reader texts).value? reader Setting.aot.key =
      w.value? reader Setting.aot.key := w.value?_withVariable_of_ne reader _ _ reader (by decide)
  have hdir : (readSourceDir reader (w.withArchiveDirs reader texts)).result =
      (readSourceDir reader w).result := by
    rw [result_readSourceDir, result_readSourceDir, hfilled (by decide), World.withArchiveDirs,
      World.currentDirectory_withVariable]
  have hparsed : ∀ {α : Type} (s : Setting) (parse : String → Except PlanError α) (unset : α),
      s.key ≠ Setting.archiveDirs.key →
      (readParsed reader s parse unset (w.withArchiveDirs reader texts)).result =
        (readParsed reader s parse unset w).result := by
    intro α s parse unset hs
    rw [result_readParsed, result_readParsed, hfilled hs]
  rw [result_readFor, result_readFor, hdir, hparsed _ _ _ (by decide), hparsed _ _ _ (by decide),
    htoggle]
  simp only [ofParts_withArchiveDirs whole, map_bind, map_pure]

end

/-! ### Using the directories -/

/-- The source directory is never the empty path: that counts as unset. -/
theorem filled_sourceDir_of_readFor (h : (readFor reader after w).result = .ok c) :
    c.sourceDir.chars ≠ [] := by
  rw [result_readFor] at h
  simp only [bind_eq_ok_iff, pure_eq_ok_iff] at h
  obtain ⟨dir, hdir, strict, -, aot, -, kind, -, rfl⟩ := h
  change dir.chars ≠ []
  rw [result_readSourceDir] at hdir
  split at hdir
  · next text htext =>
    cases hdir
    have hne := (Option.filter_eq_some_iff.1 htext).2
    simpa [Path.ofString] using hne
  · exact Path.filled_of_isAbsolute (World.isAbsolute_of_currentDirectory (mapError_eq_ok_iff.1 hdir))

/-- Named directories are all that is looked at, if there are any. -/
theorem archiveDirectories_of_named (h : c.archiveDirs = Path.named texts) (later : World) :
    c.archiveDirectories later =
      if Path.named texts = [] then
        (c.sourceDirectory later).map fun dir => [(dir.join "build").join "lib"]
      else (Path.named texts).mapM (absolute later) := by
  have hfilter : (Path.named texts).filter (!·.isEmpty) = Path.named texts := by
    refine List.filter_eq_self.2 fun p hp => ?_
    simpa [Path.isEmpty] using Path.filled_of_mem_named hp
  rw [archiveDirectories, h, hfilter]
  simp only [List.isEmpty_iff]

/-- Where the working directory can be told, so can they. -/
theorem archiveDirectories_eq_ok_of_named (h : c.archiveDirs = Path.named texts)
    (hsource : c.sourceDir.chars ≠ []) (hcwd : later.currentDirectory = .ok cwd) :
    c.archiveDirectories later = .ok
      (if Path.named texts = [] then [((c.sourceDir.absoluteFrom cwd).join "build").join "lib"]
      else (Path.named texts).map fun p => p.absoluteFrom cwd) := by
  have habsolute : ∀ p : Path, p.chars ≠ [] → absolute later p = .ok (p.absoluteFrom cwd) :=
    fun p hp => absolute_eq_ok_of_filled (by simpa [Path.isEmpty] using hp) hcwd
  rw [archiveDirectories_of_named h]
  split
  · rw [sourceDirectory, habsolute _ hsource]
    rfl
  · refine mapM_eq_ok_iff.2 (List.forall₂_map_right_iff.2 (List.forall₂_same.2 fun p hp => ?_))
    exact habsolute p (Path.filled_of_mem_named hp)

/-- **Where the kernel archive is searched.** A search list of texts without colons is read as the
paths that are spelled by those of them that are not empty, and whatever else is read, failures
included, is read as with any other search list. What is searched later on is these paths in their
order as seen from the root, or if there are none the directory below the source directory. So two
lists that differ in empty texts only have the same plan. -/
theorem read_withArchiveDirs (reader after : Reader) (w : World) (texts : List String)
    (whole : ∀ text ∈ texts, ':' ∉ text.toList) :
    (readFor reader after (w.withArchiveDirs reader texts)).result =
      (fun c : Configuration => { c with archiveDirs := Path.named texts }) <$>
        (readFor reader after w).result ∧
    (∀ c, (readFor reader after (w.withArchiveDirs reader texts)).result = .ok c → ∀ later,
      (c.archiveDirectories later =
        if Path.named texts = [] then
          (c.sourceDirectory later).map fun dir => [(dir.join "build").join "lib"]
        else (Path.named texts).mapM (absolute later)) ∧
      ∀ cwd, later.currentDirectory = .ok cwd →
        c.archiveDirectories later = .ok
          (if Path.named texts = [] then [((c.sourceDir.absoluteFrom cwd).join "build").join "lib"]
          else (Path.named texts).map fun p => p.absoluteFrom cwd)) ∧
    ∀ others : List String, (∀ text ∈ others, ':' ∉ text.toList) →
      others.filter (· ≠ "") = texts.filter (· ≠ "") →
      ((readFor reader after >>= plan) (w.withArchiveDirs reader others)).result =
        ((readFor reader after >>= plan) (w.withArchiveDirs reader texts)).result := by
  refine ⟨result_readFor_withArchiveDirs whole after, fun c hread later => ?_,
    fun others hothers hsame => ?_⟩
  · have hdirs : c.archiveDirs = Path.named texts := by
      rw [result_readFor_withArchiveDirs whole] at hread
      obtain ⟨before, -, rfl⟩ := map_eq_ok_iff.1 hread
      rfl
    exact ⟨archiveDirectories_of_named hdirs later, fun cwd hcwd =>
      archiveDirectories_eq_ok_of_named hdirs (filled_sourceDir_of_readFor hread) hcwd⟩
  · have hnamed : Path.named others = Path.named texts := by
      rw [Path.named, hsame, Path.named]
    have hplan : ∀ (c : Configuration) (texts : List String),
        c.plan (w.withArchiveDirs reader texts) = c.plan w := by
      intro c texts
      exact c.plan_withVariable w (by decide) reader _
    rw [Run.result_bind, Run.result_bind, result_readFor_withArchiveDirs hothers,
      result_readFor_withArchiveDirs whole, hnamed]
    simp only [hplan]

end Configuration

namespace Sample

/-- The installation, with its places in the table and the kernel archive wanted. -/
def archiveWorld : World :=
  { world with
    table := fun name =>
      [("EXT_SOURCE_DIR", "/s"), ("EXT_LOCATOR", "env"), ("EXT_PYBIND11_DIR", "/b"),
        ("EXT_PYTHON_INCLUDE", "/b"), ("EXT_TORCH_PREFIX", "/t"), ("CUDA_HOME", "/c"),
        ("TRITON_DIST_AOT", "on")].lookup name }

/-- Two directories are named among empty texts, one of them as it is seen from the root, and these
are the link directories of the plan as they are without the empty texts. -/
theorem read_withArchiveDirs_gaps :
    (∃ c, (Configuration.readFor .table .table
        (archiveWorld.withArchiveDirs .table ["", "/k", "", "l"])).result = .ok c ∧
      c.archiveDirectories archiveWorld = .ok ["/k", "/l"]) ∧
    ((Configuration.readFor .table .table >>= Configuration.plan)
        (archiveWorld.withArchiveDirs .table ["/k", "l"])).result =
      ((Configuration.readFor .table .table >>= Configuration.plan)
        (archiveWorld.withArchiveDirs .table ["", "/k", "", "l"])).result ∧
    (((Configuration.readFor .table .table >>= Configuration.plan)
      (archiveWorld.withArchiveDirs .table ["", "/k", "", "l"])).result.map (·.linkDirs)) =
        .ok ["/k", "/l"] := by
  obtain ⟨hread, hdirs, hplan⟩ := Configuration.read_withArchiveDirs .table .table archiveWorld
    ["", "/k", "", "l"] (by decide)
  have hunset : (Configuration.readFor .table .table archiveWorld).result.isOk = true := by
    decide +kernel
  have hlinked : (((Configuration.readFor .table .table >>= Configuration.plan)
      (archiveWorld.withArchiveDirs .table ["", "/k", "", "l"])).result.map (·.linkDirs)) =
        .ok ["/k", "/l"] := by
    decide +kernel
  refine ⟨?_, hplan ["/k", "l"] (by decide) (by decide), hlinked⟩
  cases hworld : (Configuration.readFor .table .table archiveWorld).result with
  | error e =>
      rw [hworld] at hunset
      cases hunset
  | ok c =>
      rw [hworld] at hread
      have hseen : (Path.named ["", "/k", "", "l"]).map (fun p => p.absoluteFrom "/") =
        (["/k", "/l"] : List Path) := by decide
      refine ⟨_, hread, ?_⟩
      rw [(hdirs _ hread archiveWorld).2 "/" (by decide), if_neg (by decide), hseen]

end Sample

end ExtensionPlan
