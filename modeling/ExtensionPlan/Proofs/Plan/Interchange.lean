import ExtensionPlan.Proofs.Plan.Suffix
import ExtensionPlan.Proofs.Text.Lines

/-!
# ExtensionPlan.Proofs.Plan.Interchange

**Locators can be exchanged.** An interpreter, a manifest and the environment that know the same
places lead to the same plan or to the same failure (`Configuration.planWith_interchange`). Of a
locator nothing counts but what it answers (`Configuration.result_planWith_congr`), so it is enough
that each of the three gives a place back as it was put in.

For that the places have to be texts that every one of them can tell: an interpreter prints a line
and trims it, a manifest completes a path that is not absolute, and nothing is located by a blank
text.
-/

namespace ExtensionPlan

/-! ### Places that can be told -/

/-- Places that are told alike by a line, by a field and by a variable. -/
structure Dependency.AreTellable (place : Dependency → String) : Prop where
  filled : ∀ d, place d ≠ ""
  trimmed : ∀ d, (place d).trimBlank = place d
  oneLine : ∀ d, '\n' ∉ (place d).toList
  ne_none : ∀ d, place d ≠ "None"
  isAbsolute : ∀ d, d.isPath = true → (Path.ofString (place d)).isAbsolute = true

namespace Dependency.AreTellable

variable {place : Dependency → String} (h : AreTellable place) (d : Dependency)

include h

theorem trim_toList : Text.trim (place d).toList = (place d).toList := by
  have htrimmed := congrArg String.toList (h.trimmed d)
  rwa [String.trimBlank, String.toList_ofList] at htrimmed

/-- A place that is told is not left out for being blank. -/
theorem filter_blank :
    (some (place d)).filter (fun text => decide (text.trimBlank ≠ "")) = some (place d) := by
  refine Option.filter_some_pos ?_
  rw [h.trimmed d]
  exact decide_eq_true (h.filled d)

end Dependency.AreTellable

/-! ### What each locator answers -/

/-- The interpreter answers for each dependency by lines of any kind and the place after them, with
nothing but white space behind it, and ends as it has to. -/
def Interpreter.Prints (i : Interpreter) (w : World) (successCode : Int)
    (place : Dependency → String) : Prop :=
  ∀ d : Dependency, ∃ (reply : Reply) (noise : List (List Char)) (blank : List Char),
    i.evaluate d.expression w = .ok reply ∧ reply.status = some successCode ∧
      reply.stdout.toList = noise.flatMap (· ++ ['\n']) ++ (place d).toList ++ blank ∧
      ∀ c ∈ blank, Text.isBlank c = true

section

variable {place : Dependency → String} (h : Dependency.AreTellable place) {w : World}

include h

/-- Of all that an interpreter prints, the place is what counts. -/
theorem Interpreter.result_ask_of_prints {i : Interpreter} {successCode : Int}
    (hi : i.Prints w successCode place) (d : Dependency) :
    (i.ask (.ofDependency d successCode) w).result = .ok (place d) := by
  obtain ⟨reply, noise, blank, hreply, hstatus, hstdout, hblank⟩ := hi d
  have hne : (place d).toList ≠ [] := by
    intro hnil
    exact h.filled d (String.toList_inj.1 hnil)
  have hlast : (Text.filledLines reply.stdout.toList).getLast? = some (place d).toList := by
    rw [hstdout]
    exact Text.getLast?_filledLines noise (h.oneLine d) (h.trim_toList d) hne hblank
  have hnone : (place d).toList ≠ "None".toList := by
    intro heq
    exact h.ne_none d (String.toList_inj.1 heq)
  have hanswer : (Query.ofDependency d successCode).answer reply = .ok (place d) := by
    rw [Query.answer_eq_ok hstatus hlast hnone, String.ofList_toList]
  have hevaluate : i.evaluate (Query.ofDependency d successCode).expression w = .ok reply := hreply
  unfold ask
  simp only [Run.result_bind, Run.result_log, Run.result_look, hevaluate]
  exact hanswer

/-- A manifest gives its fields as they are, paths being absolute. -/
theorem Manifest.locate_of_get? {m : Manifest} (hm : ∀ d, m.get? d.manifestKey = some (place d))
    (path : Path) (d : Dependency) : m.locate path d = .ok (place d) := by
  unfold locate
  rw [hm d, h.filter_blank d]
  cases hpath : d.isPath with
  | false => rfl
  | true => simp [h.isAbsolute d hpath]

theorem Locator.result_locate_environment {reader : Reader}
    (hreader : ∀ d : Dependency, w.value? reader d.key = some (place d)) (d : Dependency) :
    ((Locator.environment reader).locate d w).result = .ok (place d) := by
  unfold locate
  simp only [Run.result_bind, Run.result_read, ok_bind, hreader d, h.filter_blank d]
  rfl

end

/-! ### The plan -/

namespace Configuration

/-- Locators that give the same answers lead to the same plan. -/
theorem result_planWith_congr (c : Configuration) {l₁ l₂ : Locator} {w : World}
    (h : ∀ d, (l₁.locate d w).result = (l₂.locate d w).result) :
    (c.planWith l₁ w).result = (c.planWith l₂ w).result := by
  have hagrees : l₁.AgreesWith l₂ w := fun d _ => h d
  have hsuffix : l₁.suffix w = l₂.suffix w := by
    unfold Locator.suffix
    rw [h]
  rw [result_planWith_of_agreesWith c hagrees, ← hsuffix]
  exact result_planWith_of_agreesWith c (.refl l₁ w)

/-- **Locators can be exchanged.** An interpreter that prints places, a manifest with them in its
fields and an environment with them in its variables lead to the same plan or to the same
failure. -/
theorem planWith_interchange (c : Configuration) {w : World} {place : Dependency → String}
    (h : Dependency.AreTellable place) {i : Interpreter} {successCode : Int}
    (hi : i.Prints w successCode place) {m : Manifest}
    (hm : ∀ d : Dependency, m.get? d.manifestKey = some (place d)) (path : Path) {reader : Reader}
    (hreader : ∀ d : Dependency, w.value? reader d.key = some (place d)) :
    (c.planWith (.interpreter i successCode) w).result =
        (c.planWith (.manifest path m) w).result ∧
      (c.planWith (.environment reader) w).result = (c.planWith (.manifest path m) w).result := by
  have hmanifest : ∀ d, ((Locator.manifest path m).locate d w).result = .ok (place d) :=
    Manifest.locate_of_get? h hm path
  refine ⟨result_planWith_congr c fun d => ?_, result_planWith_congr c fun d => ?_⟩
  · exact (Interpreter.result_ask_of_prints h hi d).trans (hmanifest d).symm
  · exact (Locator.result_locate_environment h hreader d).trans (hmanifest d).symm

end Configuration

namespace Sample

/-- The places of the installation, and a suffix. -/
def place : Dependency → String
  | .tensorRuntime => "/t"
  | .extensionSuffix => ".abi3.so"
  | .bindingLibrary | .pythonHeaders => "/b"

/-- An interpreter that warns before it prints a place, and ends with a code of its own. -/
def warningInterpreter : Interpreter :=
  .answers fun expression =>
    match Dependency.all.find? fun d => d.expression == expression with
    | some d => .ok ⟨some 3, "None\n a warning\n\n" ++ place d ++ " \r\n", "complaint"⟩
    | none => .error .notFound

/-- The manifest of the installation with all places in it, the suffix twice. -/
def fullManifest : Manifest :=
  ⟨[("ext_suffix", ".so"), ("pybind11", "/b"), ("torch", "/t"), ("python_include", "/b"),
    ("ext_suffix", ".abi3.so")]⟩

/-- The installation, with the places in the variables of the process. -/
def placesWorld : World :=
  { world with
    process := fun name => (Dependency.all.find? fun d => d.key == name).map place }

/-- All three find the installation. -/
theorem planWith_interchange_sample :
    Dependency.AreTellable place ∧ warningInterpreter.Prints placesWorld 3 place ∧
    (configuration.planWith (.interpreter warningInterpreter 3) placesWorld).result =
      (configuration.planWith (.manifest "m" fullManifest) placesWorld).result ∧
    (configuration.planWith (.environment .process) placesWorld).result =
      (configuration.planWith (.manifest "m" fullManifest) placesWorld).result ∧
    (configuration.planWith (.environment .process) placesWorld).result.isOk = true := by
  have htellable : Dependency.AreTellable place := by
    constructor
    all_goals
      intro d
      cases d <;> decide
  have hprints : warningInterpreter.Prints placesWorld 3 place := by
    intro d
    refine ⟨⟨some 3, "None\n a warning\n\n" ++ place d ++ " \r\n", "complaint"⟩,
      ["None".toList, " a warning".toList, []], [' ', '\r', '\n'], ?_, rfl, ?_, ?_⟩
    · cases d <;> rfl
    · cases d <;> decide
    · simp [Text.isBlank]
  have hmanifest : ∀ d : Dependency, fullManifest.get? d.manifestKey = some (place d) := by
    intro d
    cases d <;> decide
  have hprocess : ∀ d : Dependency, placesWorld.value? .process d.key = some (place d) := by
    intro d
    cases d <;> decide
  obtain ⟨hinterpreter, henvironment⟩ :=
    Configuration.planWith_interchange configuration htellable hprints hmanifest "m" hprocess
  exact ⟨htellable, hprints, hinterpreter, henvironment, by decide +kernel⟩

end Sample

end ExtensionPlan
