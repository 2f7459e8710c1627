import ExtensionPlan.Proofs.Configuration.Strictness
import ExtensionPlan.Proofs.Plan.Dependence
import ExtensionPlan.Proofs.Toolchain.Inquiry

/-!
# ExtensionPlan.Proofs.Plan.Trace

**Which variables are looked up.** Reading a configuration looks up the variables of settings, and
one more (`Configuration.leavesNo_read`). All that is done with the configuration afterwards looks
up other variables, those of dependencies and of the GPU toolkit, and again the one that names the
interpreter (`Configuration.leavesNo_plan`). Both are said for events of any kind, so that they tell
what is announced to the build tool as well as what a plan depends on: a variable that it never
looks up may change (`Configuration.plan_withVariable`).
-/

namespace ExtensionPlan

namespace Event

/-! ### Kinds of events -/

/-- The event, unless the reader looked up one of the variables. -/
def besides? (reader : Reader) (names : List String) (event : Event) : Option Event :=
  if event ∈ names.map (.read reader) then none else some event

theorem besides?_eq_none_iff {reader : Reader} {names : List String} {event : Event} :
    event.besides? reader names = none ↔ event ∈ names.map (.read reader) := by
  simp [besides?]

/-- The reader of an event that looked up the variable. -/
def readerOf? (name : String) : Event → Option Reader
  | .read reader other => if other = name then some reader else none
  | _ => none

end Event

variable {γ : Type} {kind : Event → Option γ}

/-! ### Reading a configuration -/

namespace Configuration

/-- The variables that a configuration is read from. -/
def readVariables : List String := Setting.all.map Setting.key ++ ["CUDA_PATH"]

theorem key_mem_readVariables (s : Setting) : s.key ∈ readVariables := by
  cases s <;> decide

section

variable {reader : Reader} (hread : ∀ name ∈ readVariables, kind (.read reader name) = none)

include hread

theorem leavesNo_readFilled (s : Setting) :
    (Run.readFilled reader s.key : Run PlanError _).LeavesNo kind :=
  .readFilled (hread s.key (key_mem_readVariables s))

theorem leavesNo_readSourceDir : (readSourceDir reader).LeavesNo kind := by
  refine (leavesNo_readFilled hread .sourceDir).bind fun dir => ?_
  cases dir with
  | some dir => exact .pure _
  | none => exact .look _

theorem leavesNo_readParsed {α : Type} (s : Setting) (parse : String → Except PlanError α)
    (unset : α) : (readParsed reader s parse unset).LeavesNo kind := by
  refine (leavesNo_readFilled hread s).bind fun text => ?_
  cases text with
  | some text => exact .look _
  | none => exact .pure _

theorem leavesNo_readCudaHome : (readCudaHome reader).LeavesNo kind := by
  refine (leavesNo_readFilled hread .cudaHome).bind fun home => ?_
  cases home with
  | some home => exact .pure _
  | none => exact .readFilled (hread "CUDA_PATH" (by decide))

/-- Reading a configuration looks up those variables and leaves nothing else. -/
theorem leavesNo_read : (read reader).LeavesNo kind := by
  have hsetting := leavesNo_readFilled hread
  refine (leavesNo_readSourceDir hread).bind fun _ => ?_
  refine (hsetting .python).bind fun _ => ?_
  refine (hsetting .bindingsDirName).bind fun _ => ?_
  refine (hsetting .kernelFile).bind fun _ => ?_
  refine (hsetting .sourceExtension).bind fun _ => ?_
  refine (hsetting .moduleName).bind fun _ => ?_
  refine (leavesNo_readParsed hread _ _ _).bind fun _ => ?_
  refine (Run.LeavesNo.read (hread _ (key_mem_readVariables .aot))).bind fun _ => ?_
  refine (Run.LeavesNo.look _).bind fun _ => ?_
  refine (hsetting .archive).bind fun _ => ?_
  refine (hsetting .archiveDirs).bind fun _ => ?_
  refine (leavesNo_readCudaHome hread).bind fun _ => ?_
  refine (leavesNo_readParsed hread _ _ _).bind fun _ => ?_
  refine (hsetting .manifest).bind fun _ => ?_
  exact (hsetting .flags).bind fun _ => .pure _

end

/-- Every event of reading is the look-up of one of those variables. -/
theorem exists_of_mem_events_read {reader : Reader} {w : World} {event : Event}
    (h : event ∈ (read reader w).events) :
    ∃ name ∈ readVariables, event = .read reader name := by
  have hquiet : (read reader).LeavesNo (Event.besides? reader readVariables) := by
    refine leavesNo_read fun name hname => if_pos ?_
    exact List.mem_map_of_mem hname
  have hnone := List.filterMap_eq_nil_iff.1 (hquiet w) event h
  obtain ⟨name, hname, rfl⟩ := List.mem_map.1 (Event.besides?_eq_none_iff.1 hnone)
  exact ⟨name, hname, rfl⟩

end Configuration

/-! ### Planning -/

/-- The variables that are looked up once a configuration is read: the one that names the
interpreter, those of the GPU toolkit and those of dependencies. -/
def planVariables : List String :=
  Setting.python.key :: (CudaToolkit.searchVariables ++ Dependency.all.map Dependency.key)

/-- Neither a question nor a warning is of the kind, nor the look-up of one of those variables by
one of the readers. -/
structure Overhears (kind : Event → Option γ) (readers : Reader → Prop) : Prop where
  asked : ∀ expression, kind (.asked expression) = none
  warned : ∀ text, kind (.warned text) = none
  read : ∀ reader, readers reader → ∀ name ∈ planVariables, kind (.read reader name) = none

section

variable {readers : Reader → Prop} (hkind : Overhears kind readers)

include hkind

theorem leavesNo_findInterpreter {reader : Reader} (hreader : readers reader) :
    (findInterpreter reader).LeavesNo kind := by
  refine (Run.LeavesNo.readFilled (hkind.read reader hreader _ (by decide))).bind fun python => ?_
  cases python with
  | some python => exact .pure _
  | none => exact .look _

theorem Interpreter.leavesNo_ask (i : Interpreter) (q : Query) : (i.ask q).LeavesNo kind := by
  intro w
  rw [events_ask, List.filterMap_cons_none (hkind.asked q.expression), List.filterMap_nil]

namespace Locator

variable {l : Locator}

theorem leavesNo_locate (hl : l.ReadsThrough readers) (d : Dependency) :
    (l.locate d).LeavesNo kind := by
  cases l with
  | interpreter i successCode => exact i.leavesNo_ask hkind _
  | manifest path m => exact .look _
  | environment reader =>
      have hname : d.key ∈ planVariables := by cases d <;> decide
      refine (Run.LeavesNo.read (hkind.read reader (hl reader rfl) _ hname)).bind fun value => ?_
      split
      · exact .pure _
      · exact .fail _

theorem leavesNo_ofConfiguration {c : Configuration} (hc : readers c.reader) :
    (ofConfiguration c).LeavesNo kind := by
  unfold ofConfiguration
  split
  · split
    · exact (Run.LeavesNo.pure _).bind fun _ => .pure _
    · exact ((leavesNo_findInterpreter hkind hc).mapError _).bind fun _ => .pure _
  · split
    · exact .look _
    · exact .fail _
  · exact .pure _

end Locator

theorem Toolchain.leavesNo_resolve {l : Locator} (hl : l.ReadsThrough readers) {reader : Reader}
    (hreader : readers reader) (cudaHome : Option Path) :
    (resolve l cudaHome reader).LeavesNo kind := by
  have hlocate : ∀ d, (l.locate d).LeavesNo kind := Locator.leavesNo_locate hkind hl
  have hcuda : ∀ name ∈ CudaToolkit.searchVariables, kind (.read reader name) = none := by
    intro name hname
    exact hkind.read reader hreader name (List.mem_cons_of_mem _ (List.mem_append_left _ hname))
  refine (hlocate _).bind fun _ => ?_
  refine (BindingLibrary.leavesNo_resolve hkind.warned hlocate _ _).bind fun _ => ?_
  refine (hlocate _).bind fun _ => ?_
  refine (TensorRuntime.leavesNo_resolve _ _).bind fun _ => ?_
  exact (CudaToolkit.leavesNo_resolve hcuda _).bind fun _ => .pure _

theorem Artifact.leavesNo_linkArchive (a : Artifact) (wanted : Toggle) (archive : KernelArchive) :
    (a.linkArchive wanted archive).LeavesNo kind := by
  unfold linkArchive
  split
  · refine (Run.LeavesNo.look _).bind fun missing => ?_
    split
    · exact (Run.LeavesNo.log (hkind.warned _)).bind fun _ => .pure _
    · exact (Run.LeavesNo.pure _).bind fun _ => .pure _
  · exact .pure _

namespace Configuration

variable {c : Configuration} (hc : readers c.reader)

include hc

theorem leavesNo_resolve : c.resolve.LeavesNo kind :=
  (Locator.leavesNo_ofConfiguration hkind hc).bind_of_result fun _ _ hl =>
    Toolchain.leavesNo_resolve hkind (Locator.readsThrough_of_ofConfiguration hc hl) hc _

theorem leavesNo_planWith {l : Locator} (hl : l.ReadsThrough readers) :
    (c.planWith l).LeavesNo kind := by
  refine (Toolchain.leavesNo_resolve hkind hl hc _).bind fun toolchain => ?_
  refine (Run.LeavesNo.look _).bind fun sources => ?_
  refine (Run.LeavesNo.look _).bind fun artifact => ?_
  split
  · refine (Run.LeavesNo.look _).bind fun archive => ?_
    refine (Artifact.leavesNo_linkArchive hkind _ _ _).bind fun linked => ?_
    obtain ⟨artifact, linked⟩ := linked
    cases linked with
    | true => exact .look _
    | false => exact .pure _
  · exact .pure _

/-- A plan looks up those variables through the configuration's reader, asks and warns. -/
theorem leavesNo_plan : c.plan.LeavesNo kind :=
  (Locator.leavesNo_ofConfiguration hkind hc).bind_of_result fun _ _ hl =>
    leavesNo_planWith hkind hc (Locator.readsThrough_of_ofConfiguration hc hl)

end Configuration

end

/-! ### Variables that are not looked up -/

namespace World

variable (w : World) (reader : Reader) (name : String) (value : Option String)

/-- One variable is changed and nothing else, so this is a case of other variables. -/
theorem exists_withVariable_eq : ∃ v : Variables,
    w.withVariable reader name value = w.withVariables v ∧ v.home = w.home := by
  cases reader with
  | table => exact ⟨⟨_, w.process, w.home⟩, rfl, rfl⟩
  | process => exact ⟨⟨w.table, _, w.home⟩, rfl, rfl⟩
  | announcing => exact ⟨⟨w.table, _, w.home⟩, rfl, rfl⟩

/-- Every reader has the other variables as before. -/
theorem value?_withVariable_of_ne (later : Reader) {other : String} (h : other ≠ name) :
    (w.withVariable reader name value).value? later other = w.value? later other := by
  cases reader <;> cases later <;> simp [withVariable, value?, h]

theorem filled?_withVariable_of_ne (later : Reader) {other : String} (h : other ≠ name) :
    (w.withVariable reader name value).filled? later other = w.filled? later other := by
  rw [filled?, value?_withVariable_of_ne w reader name value later h, filled?]

theorem currentDirectory_withVariable :
    (w.withVariable reader name value).currentDirectory = w.currentDirectory := by
  cases reader <;> rfl

end World

/-- What rests on the variables that it looks up does not change with one that it does not. -/
theorem Run.RestsOn.withVariable {ε α : Type} {m : Run ε α} (h : m.RestsOn fun _ => True)
    {w : World} {name : String} (hname : ∀ reader, Event.read reader name ∉ (m w).events)
    (reader : Reader) (value : Option String) : m (w.withVariable reader name value) = m w := by
  obtain ⟨v, hv, hhome⟩ := w.exists_withVariable_eq reader name value
  rw [hv]
  refine h w v ⟨by rw [hhome], fun later other _ hother => ?_⟩
  have hne : other ≠ name := by
    rintro rfl
    exact hname later hother
  rw [← hv, World.filled?_withVariable_of_ne w reader name value later hne]

namespace Configuration

/-- No variable but those is looked up by a plan. -/
theorem not_mem_events_plan (c : Configuration) (w : World) {name : String}
    (h : name ∉ planVariables) (reader : Reader) :
    Event.read reader name ∉ (c.plan w).events := by
  have hkind : Overhears (Event.readerOf? name) fun _ => True := by
    refine ⟨fun _ => rfl, fun _ => rfl, fun _ _ other hother => if_neg ?_⟩
    rintro rfl
    exact h hother
  intro hmem
  have hnone := List.filterMap_eq_nil_iff.1 (leavesNo_plan hkind (c := c) trivial w) _ hmem
  simp [Event.readerOf?] at hnone

/-- **Variables of no influence.** A plan does the same whatever a variable holds that is not among
those. -/
theorem plan_withVariable (c : Configuration) (w : World) {name : String}
    (h : name ∉ planVariables) (reader : Reader) (value : Option String) :
    c.plan (w.withVariable reader name value) = c.plan w := by
  have hrests : c.plan.RestsOn fun _ => True := restsOn_plan trivial
  exact hrests.withVariable (c.not_mem_events_plan w h) reader value

end Configuration

end ExtensionPlan
