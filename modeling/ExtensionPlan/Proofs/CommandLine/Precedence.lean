import ExtensionPlan.Proofs.CommandLine.Overrides
import ExtensionPlan.Proofs.Plan.Directives

/-!
# ExtensionPlan.Proofs.CommandLine.Precedence

**What overrides the environment.** The environment is read and checked before anything is
overridden. So a variable whose setting is overridden can still be refused, and then the overrides
count for nothing; but as far as the environment is accepted, such a variable has no influence
(`Overrides.result_load_of_agreesOutside`).

The two environments are read side by side. `Alike` says of two steps that they fail in the same way,
or that their values come to the same with the overrides.
-/

namespace ExtensionPlan.CommandLine.Overrides

open ExtensionPlan.Configuration (readSourceDir readParsed toggleOf ofParts)

/-! ### Environments that differ in what is overridden -/

/-- Is the setting overridden? -/
def overridden (o : Overrides) : Setting → Bool
  | .sourceDir => o.sourceDir.isSome
  | .python => o.python.isSome
  | .aot => o.aot.isSome
  | .locator => o.locator.isSome
  | .manifest => o.manifest.isSome
  | .cudaHome => o.cudaHome.isSome
  | .strictToggles => o.strictToggles
  | _ => false

/-- The environments have the same variables, those of overridden settings apart. -/
def AgreesOutside (o : Overrides) (env other : String → Option String) : Prop :=
  ∀ name, (∀ s, o.overridden s = true → s.key ≠ name) → env name = other name

/-- Reading the environment does not stumble over what is overridden. The kernel toggle is read as
strictly as the environment asks for, so it matters as soon as either of the two is overridden. -/
structure Accepts (o : Overrides) (w : World) : Prop where
  sourceDir : o.overridden .sourceDir = true →
    ∃ dir, (readSourceDir .process w).result = .ok dir
  strictToggles : o.overridden .strictToggles = true → ∃ strict,
    (readParsed .process .strictToggles (parseBoolean .strictToggles) false w).result = .ok strict
  aot : o.overridden .aot = true ∨ o.overridden .strictToggles = true → ∀ strict,
    (readParsed .process .strictToggles (parseBoolean .strictToggles) false w).result =
      .ok strict → ∃ aot, toggleOf strict (w.process Setting.aot.key) = .ok aot
  locator : o.overridden .locator = true → ∃ kind,
    (readParsed .process .locator LocatorKind.parse .interpreter w).result = .ok kind

/-- An environment from which a configuration is read is accepted in all settings. -/
theorem accepts_of_read (o : Overrides) {w : World} {c : Configuration}
    (h : (Configuration.read .process w).result = .ok c) : o.Accepts w := by
  obtain ⟨dir, hdir, strict, hstrict, aot, haot, kind, hkind, -⟩ :=
    Configuration.read_eq_ok_iff.1 h
  refine ⟨fun _ => ⟨dir, hdir⟩, fun _ => ⟨strict, hstrict⟩, fun _ strict' hstrict' => ?_,
    fun _ => ⟨kind, hkind⟩⟩
  rw [hstrict] at hstrict'
  cases hstrict'
  exact ⟨aot, haot⟩

/-! ### Steps side by side -/

/-- Both fail in the same way, or both have values, of which the relation holds. -/
def Alike {ε α : Type} (R : α → α → Prop) (x y : Except ε α) : Prop :=
  (∃ e, x = .error e ∧ y = .error e) ∨ ∃ a b, x = .ok a ∧ y = .ok b ∧ R a b

namespace Alike

variable {ε α β : Type} {R : α → α → Prop} {S : β → β → Prop} {x y : Except ε α}

theorem of_eq (hR : ∀ a, R a a) (h : x = y) : Alike R x y := by
  subst h
  cases x with
  | error e => exact Or.inl ⟨e, rfl, rfl⟩
  | ok a => exact Or.inr ⟨a, a, rfl, rfl, hR a⟩

theorem of_ok (hR : ∀ a b, R a b) (hx : ∃ a, x = .ok a) (hy : ∃ b, y = .ok b) : Alike R x y := by
  obtain ⟨a, rfl⟩ := hx
  obtain ⟨b, rfl⟩ := hy
  exact Or.inr ⟨a, b, rfl, rfl, hR a b⟩

/-- What is given replaces both values, and where nothing is given they are the same. -/
theorem getD {given : Option α} (hsome : given.isSome = true → (∃ a, x = .ok a) ∧ ∃ b, y = .ok b)
    (hnone : given.isSome = false → x = y) :
    Alike (fun a b => given.getD a = given.getD b) x y := by
  cases given with
  | none => exact of_eq (fun _ => rfl) (hnone rfl)
  | some a => exact of_ok (fun _ _ => rfl) (hsome rfl).1 (hsome rfl).2

theorem bind {f g : α → Except ε β} (h : Alike R x y)
    (hfg : ∀ a b, x = .ok a → y = .ok b → R a b → Alike S (f a) (g b)) :
    Alike S (x >>= f) (y >>= g) := by
  rcases h with ⟨e, rfl, rfl⟩ | ⟨a, b, rfl, rfl, hab⟩
  · exact Or.inl ⟨e, rfl, rfl⟩
  · exact hfg a b rfl rfl hab

end Alike

section

variable {o : Overrides} {w : World} {env other : String → Option String}

/-! ### What is not overridden -/

theorem AgreesOutside.eq (h : o.AgreesOutside env other) {s : Setting}
    (hs : o.overridden s = false) : env s.key = other s.key := by
  refine h s.key fun t ht hts => ?_
  rw [Setting.key_injective hts, hs] at ht
  cases ht

theorem AgreesOutside.filled? (h : o.AgreesOutside env other) {s : Setting}
    (hs : o.overridden s = false) :
    (w.withProcess env).filled? .process s.key = (w.withProcess other).filled? .process s.key := by
  show (env s.key).filter (· ≠ "") = (other s.key).filter (· ≠ "")
  rw [h.eq hs]

/-- The second variable for the GPU toolkit belongs to no setting, so nothing overrides it. -/
theorem AgreesOutside.filled?_cudaPath (h : o.AgreesOutside env other) :
    (w.withProcess env).filled? .process "CUDA_PATH" =
      (w.withProcess other).filled? .process "CUDA_PATH" := by
  have heq : env "CUDA_PATH" = other "CUDA_PATH" :=
    h "CUDA_PATH" fun s _ => by cases s <;> decide
  show (env "CUDA_PATH").filter (· ≠ "") = (other "CUDA_PATH").filter (· ≠ "")
  rw [heq]

theorem AgreesOutside.result_readParsed (h : o.AgreesOutside env other) {s : Setting}
    (hs : o.overridden s = false) {α : Type} (parse : String → Except PlanError α) (unset : α) :
    (readParsed .process s parse unset (w.withProcess env)).result =
      (readParsed .process s parse unset (w.withProcess other)).result := by
  rw [Configuration.result_readParsed, Configuration.result_readParsed, h.filled? hs]

/-- A path that may be overridden comes to the same, whether it is given or read. -/
theorem AgreesOutside.given_or_filled? (h : o.AgreesOutside env other) {s : Setting}
    (given : Option Path) (hs : o.overridden s = given.isSome) :
    (given <|> ((w.withProcess env).filled? .process s.key).map Path.ofString) =
      (given <|> ((w.withProcess other).filled? .process s.key).map Path.ofString) := by
  cases given with
  | some p => rfl
  | none => rw [h.filled? hs]

theorem AgreesOutside.given_or_cudaHome (h : o.AgreesOutside env other) :
    (o.cudaHome <|> ((w.withProcess env).filled? .process Setting.cudaHome.key <|>
        (w.withProcess env).filled? .process "CUDA_PATH").map Path.ofString) =
      (o.cudaHome <|> ((w.withProcess other).filled? .process Setting.cudaHome.key <|>
        (w.withProcess other).filled? .process "CUDA_PATH").map Path.ofString) := by
  cases hgiven : o.cudaHome with
  | some p => rfl
  | none =>
      have hs : o.overridden .cudaHome = false := by simp [overridden, hgiven]
      rw [h.filled? hs, h.filled?_cudaPath]

/-- With the overrides, what was taken over as it stood is the same. -/
theorem AgreesOutside.patch_ofParts (h : o.AgreesOutside env other) {dir dir' : Path}
    {strict strict' : Bool} {kind kind' : LocatorKind} (aot aot' toggle : Toggle)
    (hdir : o.sourceDir.getD dir = o.sourceDir.getD dir')
    (hstrict : (strict || o.strictToggles) = (strict' || o.strictToggles))
    (hkind : o.locator.getD kind = o.locator.getD kind') :
    { o.patch (ofParts .process (w.withProcess env) dir strict aot kind) with aot := toggle } =
      { o.patch (ofParts .process (w.withProcess other) dir' strict' aot' kind') with
        aot := toggle } := by
  have hpython := h.given_or_filled? (w := w) (s := .python) o.python rfl
  have hmanifest := h.given_or_filled? (w := w) (s := .manifest) o.manifest rfl
  -- the settings for which there is no override
  have hfilled : ∀ s : Setting, o.overridden s = false →
      (w.withProcess env).filled? .process s.key = (w.withProcess other).filled? .process s.key := by
    intro s hs
    exact h.filled? hs
  simp only [ofParts, patch, given, hdir, hstrict, hkind, hpython, hmanifest, h.given_or_cudaHome,
    hfilled .bindingsDirName rfl, hfilled .kernelFile rfl, hfilled .sourceExtension rfl,
    hfilled .moduleName rfl, hfilled .archive rfl, hfilled .archiveDirs rfl, hfilled .flags rfl]

/-! ### Reading side by side -/

variable (h : o.AgreesOutside env other) (henv : o.Accepts (w.withProcess env))
  (hother : o.Accepts (w.withProcess other))

include h henv hother

theorem alike_readSourceDir :
    Alike (fun dir dir' => o.sourceDir.getD dir = o.sourceDir.getD dir')
      (readSourceDir .process (w.withProcess env)).result
      (readSourceDir .process (w.withProcess other)).result := by
  refine .getD (fun hs => ⟨henv.sourceDir hs, hother.sourceDir hs⟩) fun hs => ?_
  have hs : o.overridden .sourceDir = false := hs
  rw [Configuration.result_readSourceDir, Configuration.result_readSourceDir, h.filled? hs,
    World.currentDirectory_withProcess, World.currentDirectory_withProcess]

theorem alike_readStrict :
    Alike (fun strict strict' => (strict || o.strictToggles) = (strict' || o.strictToggles))
      (readParsed .process .strictToggles (parseBoolean .strictToggles) false
        (w.withProcess env)).result
      (readParsed .process .strictToggles (parseBoolean .strictToggles) false
        (w.withProcess other)).result := by
  cases hs : o.strictToggles with
  | true =>
      refine .of_ok (fun strict strict' => ?_) (henv.strictToggles hs) (hother.strictToggles hs)
      rw [Bool.or_true, Bool.or_true]
  | false =>
      have hs : o.overridden .strictToggles = false := hs
      exact .of_eq (fun _ => rfl) (h.result_readParsed hs _ _)

theorem alike_readLocator :
    Alike (fun kind kind' => o.locator.getD kind = o.locator.getD kind')
      (readParsed .process .locator LocatorKind.parse .interpreter (w.withProcess env)).result
      (readParsed .process .locator LocatorKind.parse .interpreter
        (w.withProcess other)).result := by
  refine .getD (fun hs => ⟨henv.locator hs, hother.locator hs⟩) fun hs => ?_
  have hs : o.overridden .locator = false := hs
  exact h.result_readParsed hs _ _

/-- What is read of the kernel toggle is given up later if it or its strictness is overridden, and
is the same otherwise. -/
theorem alike_toggleOf {strict strict' : Bool}
    (hstrict : (readParsed .process .strictToggles (parseBoolean .strictToggles) false
      (w.withProcess env)).result = .ok strict)
    (hstrict' : (readParsed .process .strictToggles (parseBoolean .strictToggles) false
      (w.withProcess other)).result = .ok strict') :
    Alike (fun _ _ => True) (toggleOf strict (env Setting.aot.key))
      (toggleOf strict' (other Setting.aot.key)) := by
  by_cases hs : o.overridden .aot = true ∨ o.overridden .strictToggles = true
  · exact .of_ok (fun _ _ => trivial) (henv.aot hs strict hstrict) (hother.aot hs strict' hstrict')
  · simp only [not_or, Bool.not_eq_true] at hs
    refine .of_eq (fun _ => trivial) ?_
    rw [h.result_readParsed hs.2, hstrict'] at hstrict
    rw [h.eq hs.1, Except.ok.inj hstrict]

/-- The configurations that are read come to the same with the overrides. -/
theorem alike_read :
    Alike (fun c c' => (o.apply c (w.withProcess env)).result =
        (o.apply c' (w.withProcess other)).result)
      (Configuration.read .process (w.withProcess env)).result
      (Configuration.read .process (w.withProcess other)).result := by
  rw [Configuration.result_read, Configuration.result_read]
  refine (alike_readSourceDir h henv hother).bind fun dir dir' _ _ hdir => ?_
  refine (alike_readStrict h henv hother).bind fun strict strict' hread hread' hstrict => ?_
  refine (alike_toggleOf h henv hother hread hread').bind fun aot aot' haot haot' _ => ?_
  refine (alike_readLocator h henv hother).bind fun kind kind' _ _ hkind => ?_
  refine Or.inr ⟨_, _, rfl, rfl, ?_⟩
  have htext : (o.aot <|> env Setting.aot.key) = (o.aot <|> other Setting.aot.key) := by
    cases hgiven : o.aot with
    | some text => rfl
    | none =>
        have hs : o.overridden .aot = false := by simp [overridden, hgiven]
        rw [h.eq hs]
  calc (o.apply (ofParts .process (w.withProcess env) dir strict aot kind)
        (w.withProcess env)).result
      = (toggleOf (strict || o.strictToggles) (o.aot <|> env Setting.aot.key)).map fun toggle =>
          { o.patch (ofParts .process (w.withProcess env) dir strict aot kind) with
            aot := toggle } := result_apply_ofParts o haot
    _ = (toggleOf (strict' || o.strictToggles) (o.aot <|> other Setting.aot.key)).map fun toggle =>
          { o.patch (ofParts .process (w.withProcess other) dir' strict' aot' kind') with
            aot := toggle } := by
        rw [hstrict, htext]
        congr 1
        funext toggle
        exact h.patch_ofParts aot aot' toggle hdir hstrict hkind
    _ = (o.apply (ofParts .process (w.withProcess other) dir' strict' aot' kind')
          (w.withProcess other)).result := (result_apply_ofParts o haot').symm

end

/-! ### Loading -/

/-- Nothing is overridden in an environment that describes no configuration. -/
theorem result_load_of_error (o : Overrides) {w : World} {e : PlanError}
    (h : (Configuration.read .process w).result = .error e) :
    (o.load w).result = .error (.configuration e) := by
  unfold load
  rw [Run.result_bind, Run.result_mapError, h]
  rfl

theorem result_load_of_ok (o : Overrides) {w : World} {c : Configuration}
    (h : (Configuration.read .process w).result = .ok c) :
    (o.load w).result = (o.apply c w).result.mapError .plan := by
  unfold load
  rw [Run.result_bind, Run.result_mapError, h]
  rfl

/-- **What overrides the environment.** Of two environments that differ in overridden settings only,
the same comes with the overrides, whether a configuration or a failure, if both are accepted in
those settings. An environment that is refused is refused whatever the overrides are. -/
theorem result_load_of_agreesOutside {o : Overrides} {w : World}
    {env other : String → Option String} (h : o.AgreesOutside env other) :
    (o.Accepts (w.withProcess env) → o.Accepts (w.withProcess other) →
      (o.load (w.withProcess env)).result = (o.load (w.withProcess other)).result) ∧
    ∀ e, (Configuration.read .process (w.withProcess env)).result = .error e →
      (o.load (w.withProcess env)).result = .error (.configuration e) := by
  refine ⟨fun henv hother => ?_, fun e => result_load_of_error o⟩
  rcases alike_read h henv hother with ⟨e, hread, hread'⟩ | ⟨c, c', hread, hread', happly⟩
  · rw [result_load_of_error o hread, result_load_of_error o hread']
  · rw [result_load_of_ok o hread, result_load_of_ok o hread', happly]

end ExtensionPlan.CommandLine.Overrides

namespace ExtensionPlan.Sample

open CommandLine (Overrides)

/-- An environment with a kind of locator, in which toggles are strict. -/
def strictProcess (name : String) : Option String :=
  [("EXT_SOURCE_DIR", "/s"), ("EXT_LOCATOR", "manifest"), ("EXT_STRICT_FEATURE_FLAGS", "1"),
    ("TRITON_DIST_AOT", "on")].lookup name

/-- An environment with another source directory and little else. -/
def lenientProcess (name : String) : Option String :=
  [("EXT_SOURCE_DIR", "/elsewhere"), ("TRITON_DIST_AOT", "on")].lookup name

/-- Overrides of all settings in which the two environments differ. -/
def fullOverrides : Overrides :=
  { Overrides.empty with sourceDir := some "/t", locator := some .environment, strictToggles := true }

/-- The kind of locator, the source directory and the strictness differ and are all overridden. -/
theorem result_load_of_agreesOutside_sample :
    fullOverrides.AgreesOutside strictProcess lenientProcess ∧
    fullOverrides.Accepts (world.withProcess strictProcess) ∧
    fullOverrides.Accepts (world.withProcess lenientProcess) ∧
    (fullOverrides.load (world.withProcess strictProcess)).result =
      (fullOverrides.load (world.withProcess lenientProcess)).result ∧
    (fullOverrides.load (world.withProcess strictProcess)).result.isOk = true := by
  have hagrees : fullOverrides.AgreesOutside strictProcess lenientProcess := by
    intro name h
    have hdir : name ≠ "EXT_SOURCE_DIR" := (h .sourceDir rfl).symm
    have hlocator : name ≠ "EXT_LOCATOR" := (h .locator rfl).symm
    have hstrict : name ≠ "EXT_STRICT_FEATURE_FLAGS" := (h .strictToggles rfl).symm
    simp only [strictProcess, lenientProcess, List.lookup_cons, beq_false_of_ne hdir,
      beq_false_of_ne hlocator, beq_false_of_ne hstrict]
  have hread : ∀ w, (Configuration.read .process w).result.isOk = true → fullOverrides.Accepts w := by
    intro w hw
    cases hc : (Configuration.read .process w).result with
    | error e =>
        rw [hc] at hw
        cases hw
    | ok c => exact Overrides.accepts_of_read _ hc
  have hstrict := hread (world.withProcess strictProcess) (by decide +kernel)
  have hlenient := hread (world.withProcess lenientProcess) (by decide +kernel)
  exact ⟨hagrees, hstrict, hlenient,
    (Overrides.result_load_of_agreesOutside hagrees).1 hstrict hlenient, by decide +kernel⟩

/-- An environment with a kind of locator that there is not. -/
def misspeltProcess (name : String) : Option String :=
  [("EXT_SOURCE_DIR", "/s"), ("EXT_LOCATOR", "conda")].lookup name

/-- The environment without it. -/
def plainProcess (name : String) : Option String := [("EXT_SOURCE_DIR", "/s")].lookup name

/-- An override of the kind of locator. -/
def locatorOverride : Overrides := { Overrides.empty with locator := some .environment }

/-- A kind of locator that there is not is refused, though it is overridden. -/
theorem result_load_ne_of_misspelt :
    locatorOverride.AgreesOutside misspeltProcess plainProcess ∧
    (locatorOverride.load (world.withProcess misspeltProcess)).result =
      .error (.configuration (.rejected "EXT_LOCATOR" "conda" .notLocator)) ∧
    (locatorOverride.load (world.withProcess plainProcess)).result ≠
      (locatorOverride.load (world.withProcess misspeltProcess)).result := by
  have hagrees : locatorOverride.AgreesOutside misspeltProcess plainProcess := by
    intro name h
    have hlocator : name ≠ "EXT_LOCATOR" := (h .locator rfl).symm
    simp only [misspeltProcess, plainProcess, List.lookup_cons, beq_false_of_ne hlocator]
  refine ⟨hagrees, by rfl, ?_⟩
  intro heq
  have hisOk := congrArg Except.isOk heq
  revert hisOk
  decide +kernel

end ExtensionPlan.Sample
