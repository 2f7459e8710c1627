import ExtensionPlan.Plan
import ExtensionPlan.Proofs.Configuration.Reading
import ExtensionPlan.Proofs.Plan.Directives

/-!
# ExtensionPlan.Proofs.Configuration.Strictness

**What strictness refuses.** Reading toggles strictly refuses the texts that are no toggle and
changes nothing else: where the kernel toggle is understood, an environment is read strictly as it
is read leniently, failures included, and the plans are the same, whichever reader they are made
with (`Configuration.read_withStrictness`).

Reading stops at its first failure, and the source directory comes before the toggle. Where that
cannot be told, it is what is reported, however the toggle is read.
-/

namespace ExtensionPlan

/-! ### Texts that are no toggle -/

namespace Toggle

/-- The text is not empty and, without regard to capitals, none of the words for a toggle. -/
def IsUnclear (text : String) : Prop :=
  text ≠ "" ∧ text.asciiLower ∉ ["on", "1", "true", "off", "0", "false"]

theorem isUnclear_iff {text : String} :
    IsUnclear text ↔ text ≠ "" ∧ isOn text = false ∧ isOff text = false := by
  simp [IsUnclear, isOn, isOff, and_assoc]

theorem parseStrict_of_isUnclear (key : String) {text : String} (h : IsUnclear text) :
    parseStrict key (some text) = .error (.rejected key text .notToggle) := by
  obtain ⟨hfilled, hon, hoff⟩ := isUnclear_iff.1 h
  simp [parseStrict, hfilled, hon, hoff]

/-- What is understood means the same to both readers. -/
theorem parseStrict_of_not_isUnclear (key : String) {text : Option String}
    (h : ∀ t, text = some t → ¬ IsUnclear t) : parseStrict key text = .ok (parse text) := by
  cases text with
  | none => rfl
  | some text =>
      have hclear := h text rfl
      by_cases hempty : text = ""
      · rw [hempty]
        rfl
      · cases hon : isOn text with
        | true => simp [parseStrict, parse, hempty, hon]
        | false =>
            have hoff : isOff text = true := by
              by_contra hoff
              exact hclear (isUnclear_iff.2 ⟨hempty, hon, by simpa using hoff⟩)
            simp [parseStrict, parse, hempty, hon, hoff]

end Toggle

/-! ### One variable -/

namespace World

/-- The surroundings with another value for the variable, as the reader reads it. -/
def withVariable (w : World) (reader : Reader) (name : String) (value : Option String) : World :=
  match reader with
  | .table => { w with table := fun other => if other = name then value else w.table other }
  | .process | .announcing =>
    { w with process := fun other => if other = name then value else w.process other }

/-- The surroundings in which toggles are read strictly, or else leniently because nothing asks for
strictness. -/
def withStrictness (w : World) (reader : Reader) (strict : Bool) : World :=
  w.withVariable reader Setting.strictToggles.key (if strict then some "1" else none)

variable (w : World) (reader : Reader)

theorem value?_withVariable (name : String) (value : Option String) (other : String) :
    (w.withVariable reader name value).value? reader other =
      if other = name then value else w.value? reader other := by
  cases reader <;> rfl

theorem currentDirectory_withStrictness (strict : Bool) :
    (w.withStrictness reader strict).currentDirectory = w.currentDirectory := by
  cases reader <;> rfl

theorem value?_withStrictness (strict : Bool) {name : String}
    (h : name ≠ Setting.strictToggles.key) :
    (w.withStrictness reader strict).value? reader name = w.value? reader name := by
  rw [withStrictness, value?_withVariable, if_neg h]

theorem filled?_withStrictness (strict : Bool) {name : String}
    (h : name ≠ Setting.strictToggles.key) :
    (w.withStrictness reader strict).filled? reader name = w.filled? reader name := by
  rw [filled?, value?_withStrictness w reader strict h, filled?]

end World

namespace Configuration

variable (reader : Reader) (w : World) (strict : Bool)

/-! ### Reading strictly and leniently -/

theorem result_readSourceDir_withStrictness :
    (readSourceDir reader (w.withStrictness reader strict)).result =
      (readSourceDir reader w).result := by
  rw [result_readSourceDir, result_readSourceDir, World.currentDirectory_withStrictness,
    World.filled?_withStrictness _ _ _ (by decide)]

theorem result_readLocator_withStrictness :
    (readParsed reader .locator LocatorKind.parse .interpreter
        (w.withStrictness reader strict)).result =
      (readParsed reader .locator LocatorKind.parse .interpreter w).result := by
  rw [result_readParsed, result_readParsed, World.filled?_withStrictness _ _ _ (by decide)]

theorem result_readStrict_withStrictness :
    (readParsed reader .strictToggles (parseBoolean .strictToggles) false
      (w.withStrictness reader strict)).result = .ok strict := by
  rw [result_readParsed, World.filled?, World.withStrictness, World.value?_withVariable, if_pos rfl]
  cases strict with
  | false => rfl
  | true => decide

/-- The strictness itself is all that is read of the variable for it. -/
theorem ofParts_withStrictness (sourceDir : Path) (aot : Toggle) (kind : LocatorKind) :
    ofParts reader (w.withStrictness reader strict) sourceDir strict aot kind =
      { ofParts reader w sourceDir false aot kind with strictToggles := strict } := by
  have hfilled : ∀ s : Setting, s ≠ .strictToggles →
      (w.withStrictness reader strict).filled? reader s.key = w.filled? reader s.key := by
    intro s hs
    refine World.filled?_withStrictness w reader strict ?_
    revert hs
    cases s <;> decide
  have hcuda : (w.withStrictness reader strict).filled? reader "CUDA_PATH" =
      w.filled? reader "CUDA_PATH" := World.filled?_withStrictness w reader strict (by decide)
  simp [ofParts, hfilled, hcuda]

theorem result_read_withStrictness :
    (read reader (w.withStrictness reader strict)).result = (do
      let sourceDir ← (readSourceDir reader w).result
      let aot ← toggleOf strict (w.value? reader Setting.aot.key)
      let kind ← (readParsed reader .locator LocatorKind.parse .interpreter w).result
      return { ofParts reader w sourceDir false aot kind with strictToggles := strict }) := by
  rw [result_read, result_readSourceDir_withStrictness, result_readStrict_withStrictness,
    World.value?_withStrictness _ _ _ (by decide), result_readLocator_withStrictness]
  simp only [ok_bind, ofParts_withStrictness]

/-- An environment whose kernel toggle is understood is read strictly as it is read leniently. -/
theorem result_read_strict_of_clear {reader : Reader} {w : World}
    (h : ∀ text, w.value? reader Setting.aot.key = some text → ¬ Toggle.IsUnclear text) :
    (read reader (w.withStrictness reader true)).result =
      (fun c : Configuration => { c with strictToggles := true }) <$>
        (read reader (w.withStrictness reader false)).result := by
  have htoggle : toggleOf true (w.value? reader Setting.aot.key) =
      toggleOf false (w.value? reader Setting.aot.key) :=
    Toggle.parseStrict_of_not_isUnclear _ h
  simp only [result_read_withStrictness, htoggle, map_bind, map_pure]

/-- The source directory can be told if it is named, and otherwise if the working directory can. -/
theorem exists_readSourceDir {reader : Reader} {w : World}
    (h : (w.filled? reader Setting.sourceDir.key).isSome = true ∨
      ∃ cwd, w.currentDirectory = .ok cwd) :
    ∃ dir, (readSourceDir reader w).result = .ok dir := by
  rw [result_readSourceDir]
  cases hdir : w.filled? reader Setting.sourceDir.key with
  | some dir => exact ⟨_, rfl⟩
  | none =>
      rcases h with h | ⟨cwd, hcwd⟩
      · rw [hdir] at h
        cases h
      · exact ⟨cwd, by rw [hcwd]; rfl⟩

/-- The toggles have been read when a plan is made. -/
theorem plan_withStrictToggles (c : Configuration) (strict : Bool) :
    ({ c with strictToggles := strict } : Configuration).plan = c.plan := rfl

/-- **What strictness refuses.** A kernel toggle that is no toggle is refused when it is read
strictly, unless the source directory cannot be told, which is refused before it and however toggles
are read. Otherwise an environment is refused strictly as it is leniently, or the configurations
differ in the strictness only and have the same plan, however later steps read the environment. -/
theorem read_withStrictness (reader : Reader) (w : World) :
    (∀ text, w.value? reader Setting.aot.key = some text → Toggle.IsUnclear text →
      (((w.filled? reader Setting.sourceDir.key).isSome = true ∨
          ∃ cwd, w.currentDirectory = .ok cwd) →
        (read reader (w.withStrictness reader true)).result =
          .error (.rejected Setting.aot.key text .notToggle)) ∧
      (w.filled? reader Setting.sourceDir.key = none →
        ∀ cause, w.currentDirectory = .error cause → ∀ strict,
          (read reader (w.withStrictness reader strict)).result = .error (.system "." cause))) ∧
    ((∀ text, w.value? reader Setting.aot.key = some text → ¬ Toggle.IsUnclear text) →
      (∃ e, (read reader (w.withStrictness reader false)).result = .error e ∧
        (read reader (w.withStrictness reader true)).result = .error e) ∨
      ∃ c, (read reader (w.withStrictness reader false)).result = .ok c ∧
        c.strictToggles = false ∧
        (read reader (w.withStrictness reader true)).result =
          .ok { c with strictToggles := true } ∧
        ∀ later, ({ c with strictToggles := true, reader := later } : Configuration).plan =
          ({ c with reader := later } : Configuration).plan) := by
  refine ⟨fun text htext hunclear => ⟨fun htold => ?_, fun hunset cause hcause strict => ?_⟩,
    fun hclear => ?_⟩
  · obtain ⟨dir, hdir⟩ := exists_readSourceDir htold
    have hrefused : toggleOf true (some text) =
        .error (.rejected Setting.aot.key text .notToggle) :=
      Toggle.parseStrict_of_isUnclear _ hunclear
    rw [result_read_withStrictness, hdir, ok_bind, htext, hrefused]
    rfl
  · rw [result_read_withStrictness, result_readSourceDir, hunset, hcause]
    rfl
  · have hstrict := result_read_strict_of_clear hclear
    cases hlenient : (read reader (w.withStrictness reader false)).result with
    | error e =>
        rw [hlenient] at hstrict
        exact Or.inl ⟨e, rfl, hstrict⟩
    | ok c =>
        rw [hlenient] at hstrict
        refine Or.inr ⟨c, rfl, ?_, hstrict, fun later =>
          plan_withStrictToggles { c with reader := later } true⟩
        rw [result_read_withStrictness] at hlenient
        simp only [bind_eq_ok_iff, pure_eq_ok_iff] at hlenient
        obtain ⟨dir, -, aot, -, kind, -, rfl⟩ := hlenient
        rfl

end Configuration

namespace Sample

/-- The installation, with a table that names the source directory and sets the kernel toggle. -/
def toggledWorld (toggle : String) : World :=
  { world with
    table := fun name => [("EXT_SOURCE_DIR", "/s"), ("TRITON_DIST_AOT", toggle)].lookup name }

/-- A working directory that was removed, with a table that sets the kernel toggle only. -/
def removedWorld (toggle : String) : World :=
  { world with
    here := ⟨[], 1⟩
    table := fun name => [("TRITON_DIST_AOT", toggle)].lookup name }

theorem isUnclear_maybe : Toggle.IsUnclear "maybe" := by
  unfold Toggle.IsUnclear
  decide

/-- One toggle is refused, one is hidden by the source directory, and one is understood. -/
theorem read_withStrictness_sample :
    (Configuration.read .table ((toggledWorld "maybe").withStrictness .table true)).result =
      .error (.rejected "TRITON_DIST_AOT" "maybe" .notToggle) ∧
    (Configuration.read .table ((removedWorld "maybe").withStrictness .table true)).result =
      .error (.system "." .notFound) ∧
    ∃ c, (Configuration.read .table ((toggledWorld "OFF").withStrictness .table false)).result =
        .ok c ∧
      (Configuration.read .table ((toggledWorld "OFF").withStrictness .table true)).result =
        .ok { c with strictToggles := true } := by
  obtain ⟨hrefused, -⟩ := Configuration.read_withStrictness .table (toggledWorld "maybe")
  obtain ⟨hhidden, -⟩ := Configuration.read_withStrictness .table (removedWorld "maybe")
  obtain ⟨-, hclear⟩ := Configuration.read_withStrictness .table (toggledWorld "OFF")
  refine ⟨(hrefused "maybe" (by decide) isUnclear_maybe).1 (Or.inl (by decide)),
    (hhidden "maybe" (by decide) isUnclear_maybe).2 (by decide) .notFound (by rfl) true, ?_⟩
  have hoff : ∀ text, (toggledWorld "OFF").value? .table Setting.aot.key = some text →
      ¬ Toggle.IsUnclear text := by
    intro text htext
    cases htext
    unfold Toggle.IsUnclear
    decide
  rcases hclear hoff with ⟨e, he, -⟩ | ⟨c, hc, -, hstrict, -⟩
  · have hread : (Configuration.read .table
        ((toggledWorld "OFF").withStrictness .table false)).result.isOk = true := by
      decide +kernel
    rw [he] at hread
    cases hread
  · exact ⟨c, hc, hstrict⟩

/-- Where the working directory is removed and no source directory is named, a toggle that is none
is not what is reported. -/
theorem read_strict_ne_rejected :
    Toggle.IsUnclear "maybe" ∧
    (removedWorld "maybe").value? .table "TRITON_DIST_AOT" = some "maybe" ∧
    (Configuration.read .table ((removedWorld "maybe").withStrictness .table true)).result ≠
      .error (.rejected "TRITON_DIST_AOT" "maybe" .notToggle) := by
  refine ⟨isUnclear_maybe, by decide, ?_⟩
  have hread : (Configuration.read .table
      ((removedWorld "maybe").withStrictness .table true)).result =
        .error (.system "." .notFound) := by rfl
  rw [hread]
  decide

end Sample

end ExtensionPlan
