import ExtensionPlan.Proofs.Plan.Trace

/-!
# ExtensionPlan.Proofs.Configuration.Listing

**What the list of variables tells.** Every setting is listed with its variable, and those are all
the variables that a configuration is read from, but for one: where the variable for the directory
of the GPU toolkit names none, a second one may, and that one belongs to no setting. So
environments that agree in what is listed are read alike exactly if nothing hangs on the second
variable (`Configuration.result_read_eq_iff_of_agreesOnListed`).
-/

namespace ExtensionPlan

/-- The two surroundings have the same values for the variables that are listed. -/
def World.AgreesOnListed (w other : World) (reader : Reader) : Prop :=
  ∀ s ∈ Setting.all, w.value? reader s.key = other.value? reader s.key

namespace Configuration

variable {reader : Reader} {w other : World}

/-- The directory of the GPU toolkit that the environment names. -/
def toolkitHome (reader : Reader) (w : World) : Option Path :=
  (w.filled? reader Setting.cudaHome.key <|> w.filled? reader "CUDA_PATH").map Path.ofString

/-- If the first variable is the same, the directories are if and only if the second one is the same
too, or does not count. -/
theorem toolkitHome_eq_iff
    (h : w.filled? reader Setting.cudaHome.key = other.filled? reader Setting.cudaHome.key) :
    toolkitHome reader w = toolkitHome reader other ↔
      (w.filled? reader Setting.cudaHome.key).isSome = true ∨
        w.filled? reader "CUDA_PATH" = other.filled? reader "CUDA_PATH" := by
  have hinjective : Function.Injective (Option.map Path.ofString) := by
    refine Option.map_injective fun s t hst => ?_
    rw [← Path.text_ofString s, hst, Path.text_ofString]
  unfold toolkitHome
  rw [← h, hinjective.eq_iff]
  cases w.filled? reader Setting.cudaHome.key with
  | some home => simp
  | none => simp

section Agreeing

variable (h : w.AgreesOnListed other reader)

include h

theorem value?_of_agreesOnListed (s : Setting) :
    w.value? reader s.key = other.value? reader s.key :=
  h s (by cases s <;> decide)

theorem filled?_of_agreesOnListed (s : Setting) :
    w.filled? reader s.key = other.filled? reader s.key := by
  rw [World.filled?, value?_of_agreesOnListed h, World.filled?]

/-- Of all that is taken over as it stands, only the directory of the GPU toolkit may differ. -/
theorem ofParts_of_agreesOnListed (sourceDir : Path) (strict : Bool) (aot : Toggle)
    (locator : LocatorKind) :
    ofParts reader other sourceDir strict aot locator =
      { ofParts reader w sourceDir strict aot locator with
        cudaHome := toolkitHome reader other } := by
  simp only [ofParts, filled?_of_agreesOnListed h, toolkitHome]

/-- What is read is the same but for that directory. -/
theorem result_read_of_agreesOnListed (hcwd : w.currentDirectory = other.currentDirectory) :
    (read reader other).result =
      (fun c : Configuration => { c with cudaHome := toolkitHome reader other }) <$>
        (read reader w).result := by
  have hdir : (readSourceDir reader other).result = (readSourceDir reader w).result := by
    rw [result_readSourceDir, result_readSourceDir, filled?_of_agreesOnListed h, hcwd]
  have hparsed : ∀ {α : Type} (s : Setting) (parse : String → Except PlanError α) (unset : α),
      (readParsed reader s parse unset other).result =
        (readParsed reader s parse unset w).result := by
    intro α s parse unset
    rw [result_readParsed, result_readParsed, filled?_of_agreesOnListed h]
  rw [result_read, result_read, hdir, hparsed, hparsed, value?_of_agreesOnListed h]
  simp only [ofParts_of_agreesOnListed h, map_bind, map_pure]

end Agreeing

/-- **What the list of variables tells.** Environments with the same working directory that agree in
what is listed are read alike, configuration or failure, exactly if reading fails, the first variable
for the GPU toolkit names its directory, or the second one says the same in both. That second
variable is the only one that is looked up without being listed. -/
theorem result_read_eq_iff_of_agreesOnListed (h : w.AgreesOnListed other reader)
    (hcwd : w.currentDirectory = other.currentDirectory) :
    ((read reader w).result = (read reader other).result ↔
      (∃ e, (read reader w).result = .error e) ∨
        (w.filled? reader Setting.cudaHome.key).isSome = true ∨
        w.filled? reader "CUDA_PATH" = other.filled? reader "CUDA_PATH") ∧
    ∀ event ∈ (read reader w).events,
      event = .read reader "CUDA_PATH" ∨ ∃ s ∈ Setting.all, event = .read reader s.key := by
  constructor
  · rw [result_read_of_agreesOnListed h hcwd,
      ← toolkitHome_eq_iff (filled?_of_agreesOnListed h .cudaHome)]
    cases hread : (read reader w).result with
    | error e => exact ⟨fun _ => Or.inl ⟨e, rfl⟩, fun _ => rfl⟩
    | ok c =>
        have hhome : c.cudaHome = toolkitHome reader w := by
          obtain ⟨dir, -, strict, -, aot, -, kind, -, rfl⟩ := read_eq_ok_iff.1 hread
          rfl
        rw [← hhome]
        constructor
        · intro heq
          exact Or.inr (congrArg cudaHome (Except.ok.inj heq))
        · rintro (⟨e, he⟩ | heq)
          · cases he
          · rw [← heq]
            rfl
  · intro event hevent
    obtain ⟨name, hname, rfl⟩ := exists_of_mem_events_read hevent
    rcases List.mem_append.1 hname with hlisted | hpath
    · obtain ⟨s, hs, rfl⟩ := List.mem_map.1 hlisted
      exact Or.inr ⟨s, hs, rfl⟩
    · exact Or.inl (by rw [List.mem_singleton.1 hpath])

end Configuration

namespace Sample

/-- The installation, with a table that names the source directory and may name directories of a GPU
toolkit. -/
def toolkitWorld (home path : String) : World :=
  { world with
    table := fun name =>
      [("EXT_SOURCE_DIR", "/s"), ("CUDA_HOME", home), ("CUDA_PATH", path)].lookup name }

theorem agreesOnListed_toolkitWorld (home path other : String) :
    (toolkitWorld home path).AgreesOnListed (toolkitWorld home other) .table := by
  intro s _
  cases s <;> rfl

/-- Where the first variable names a toolkit, the second one makes no difference. -/
theorem result_read_eq_iff_toolkit :
    (toolkitWorld "/c" "/d").AgreesOnListed (toolkitWorld "/c" "/e") .table ∧
    (Configuration.read .table (toolkitWorld "/c" "/d")).result =
      (Configuration.read .table (toolkitWorld "/c" "/e")).result ∧
    (Configuration.read .table (toolkitWorld "/c" "/d")).result.isOk = true := by
  have hlisted := agreesOnListed_toolkitWorld "/c" "/d" "/e"
  obtain ⟨halike, -⟩ := Configuration.result_read_eq_iff_of_agreesOnListed hlisted rfl
  exact ⟨hlisted, halike.2 (Or.inr (Or.inl (by decide))), by decide +kernel⟩

/-- Where it does not, environments that agree in all that is listed are not read alike. -/
theorem result_read_ne_of_agreesOnListed :
    (toolkitWorld "" "/d").AgreesOnListed (toolkitWorld "" "") .table ∧
    (toolkitWorld "" "/d").currentDirectory = (toolkitWorld "" "").currentDirectory ∧
    (Configuration.read .table (toolkitWorld "" "/d")).result ≠
      (Configuration.read .table (toolkitWorld "" "")).result := by
  refine ⟨agreesOnListed_toolkitWorld "" "/d" "", rfl, fun heq => ?_⟩
  have hhome := congrArg (fun read => read.toOption.map Configuration.cudaHome) heq
  revert hhome
  decide +kernel

end Sample

end ExtensionPlan
