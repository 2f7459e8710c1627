import ExtensionPlan.Proofs.Configuration.Reading
import ExtensionPlan.Proofs.Toolchain
import ExtensionPlan.Proofs.World.Variables

/-!
# ExtensionPlan.Proofs.Plan.Dependence

**What a plan depends on.** The surroundings enter a run through the file tree and through the
variables that it reads, and of a variable nothing but its text counts: one that is empty is as good
as one that is not set. `Run.RestsOn` says this of a run, comparing it with itself under other
variables that match the old ones in what was read. It goes through runs one after the other, so it
is shown of a plan by naming its parts (`Configuration.restsOn_plan`).

Which readers count is a parameter. A build tool is told of what one of them reads, and a process
has its variables whatever they are read with.

Where a run takes a variable as it is set, the empty text and no text have to be shown to come to
the same: for the kernel toggle, for the directory of the GPU libraries, and for a locator.
-/

namespace ExtensionPlan

/-- Other variables match those of the surroundings: they are the same in what the events tell to
have been read through one of the readers, and so is the home directory. -/
structure World.Matches (w : World) (readers : Reader → Prop) (v : Variables)
    (events : List Event) : Prop where
  home : v.home.filter (· ≠ "") = w.home.filter (· ≠ "")
  filled : ∀ reader name, readers reader → Event.read reader name ∈ events →
    (w.withVariables v).filled? reader name = w.filled? reader name

namespace World.Matches

variable {w : World} {readers : Reader → Prop} {v : Variables} {before after : List Event}

theorem left (h : w.Matches readers v (before ++ after)) : w.Matches readers v before :=
  ⟨h.home, fun reader name hreader hname =>
    h.filled reader name hreader (List.mem_append_left _ hname)⟩

theorem right (h : w.Matches readers v (before ++ after)) : w.Matches readers v after :=
  ⟨h.home, fun reader name hreader hname =>
    h.filled reader name hreader (List.mem_append_right _ hname)⟩

end World.Matches

/-- What does not tell the empty text from none does the same with texts that are the same unless
they are empty. -/
theorem eq_of_filter_ne_empty {α : Type} {f : Option String → α} (hempty : f (some "") = f none)
    {s t : Option String} (h : s.filter (· ≠ "") = t.filter (· ≠ "")) : f s = f t := by
  have hfilter : ∀ text, f text = f (text.filter (· ≠ "")) := by
    intro text
    cases text with
    | none => rfl
    | some text =>
        by_cases htext : text = ""
        · rw [htext, hempty]
          rfl
        · rw [Option.filter_some_pos (by simpa using htext)]
  rw [hfilter s, h, ← hfilter t]

namespace Run

variable {ε ε' α β : Type} {readers : Reader → Prop}

/-- The run does the same under other variables, if they match in all that it read. -/
def RestsOn (readers : Reader → Prop) (m : Run ε α) : Prop :=
  ∀ w v, w.Matches readers v (m w).events → m (w.withVariables v) = m w

namespace RestsOn

variable {m : Run ε α}

theorem pure (a : α) : RestsOn readers (Pure.pure a : Run ε α) := by
  intro w v h
  rfl

theorem fail (e : ε) : RestsOn readers (fail e : Run ε α) := by
  intro w v h
  rfl

theorem log (event : Event) : RestsOn readers (log event : Run ε Unit) := by
  intro w v h
  rfl

/-- What follows from the surroundings alone must follow from other things than variables. -/
theorem look {f : World → Except ε α} (hf : ∀ w v, f (w.withVariables v) = f w) :
    RestsOn readers (look f) := by
  intro w v h
  show (⟨[], f (w.withVariables v)⟩ : Outcome ε α) = ⟨[], f w⟩
  rw [hf]

/-- The home directory may be looked at as far as it is not empty. -/
theorem look_home {f : World → Except ε α}
    (hf : ∀ w (v : Variables), v.home.filter (· ≠ "") = w.home.filter (· ≠ "") →
      f (w.withVariables v) = f w) :
    RestsOn readers (Run.look f) := by
  intro w v h
  show (⟨[], f (w.withVariables v)⟩ : Outcome ε α) = ⟨[], f w⟩
  rw [hf w v h.home]

/-- The first run read no more than both did, so it has the same value again, and the second run
goes on from there. -/
theorem bind {f : α → Run ε β} (hm : RestsOn readers m)
    (hf : ∀ w a, (m w).result = .ok a → RestsOn readers (f a)) : RestsOn readers (m >>= f) := by
  intro w v h
  cases hresult : (m w).result with
  | error e =>
      have heq := bind_apply_error hresult f
      rw [heq] at h
      have hsame := hm w v h
      rw [heq, bind_apply_error (hsame ▸ hresult), hsame]
  | ok a =>
      have heq := bind_apply_ok hresult f
      rw [heq] at h
      have hsame := hm w v h.left
      have hrest := hf w a hresult w v h.right
      rw [heq, bind_apply_ok (hsame ▸ hresult), hsame, hrest]

theorem mapError (hm : RestsOn readers m) (f : ε → ε') : RestsOn readers (m.mapError f) := by
  intro w v h
  show (⟨_, _⟩ : Outcome ε' α) = ⟨_, _⟩
  rw [hm w v h]

theorem attempt (hm : RestsOn readers m) : RestsOn readers (m.attempt : Run ε' _) := by
  intro w v h
  show (⟨_, _⟩ : Outcome ε' _) = ⟨_, _⟩
  rw [hm w v h]

/-- What goes on with a variable as it is set must not tell the empty text from none. -/
theorem read_bind {reader : Reader} (hreader : readers reader) (name : String)
    {f : Option String → Run ε β} (hempty : f (some "") = f none)
    (hf : ∀ text, RestsOn readers (f text)) : RestsOn readers (read reader name >>= f) := by
  intro w v h
  have heq : ∀ w : World, (read reader name >>= f) w =
      ⟨[.read reader name] ++ (f (w.value? reader name) w).events,
        (f (w.value? reader name) w).result⟩ := by
    intro w
    exact bind_apply_ok rfl f
  rw [heq] at h
  have hfilled := h.filled reader name hreader List.mem_cons_self
  have hrest := hf (w.value? reader name) w v h.right
  rw [heq, heq, eq_of_filter_ne_empty hempty hfilled, hrest]

theorem readFilled {reader : Reader} (hreader : readers reader) (name : String) :
    RestsOn readers (readFilled reader name : Run ε _) :=
  read_bind hreader name rfl fun _ => RestsOn.pure _

end RestsOn

end Run

variable {readers : Reader → Prop}

/-! ### Reading a configuration -/

namespace Configuration

/-- Read strictly or not, the empty text leaves the kernel toggle off, as no text does. -/
theorem toggleOf_empty (strict : Bool) : toggleOf strict (some "") = toggleOf strict none := by
  cases strict <;> decide

theorem setAot_empty (c : Configuration) : c.setAot (some "") = c.setAot none := by
  rw [setAot_eq, setAot_eq, toggleOf_empty]

variable {reader : Reader} (hreader : readers reader)

include hreader

theorem restsOn_readSourceDir : (readSourceDir reader).RestsOn readers := by
  refine (Run.RestsOn.readFilled hreader _).bind fun _ dir _ => ?_
  cases dir with
  | some dir => exact Run.RestsOn.pure _
  | none =>
      refine Run.RestsOn.look fun w v => ?_
      rw [World.currentDirectory_withVariables]

theorem restsOn_readParsed {α : Type} (s : Setting) (parse : String → Except PlanError α)
    (unset : α) : (readParsed reader s parse unset).RestsOn readers := by
  refine (Run.RestsOn.readFilled hreader _).bind fun _ text _ => ?_
  cases text with
  | some text => exact Run.RestsOn.look fun _ _ => rfl
  | none => exact Run.RestsOn.pure _

theorem restsOn_readCudaHome : (readCudaHome reader).RestsOn readers := by
  refine (Run.RestsOn.readFilled hreader _).bind fun _ home _ => ?_
  cases home with
  | some home => exact Run.RestsOn.pure _
  | none => exact Run.RestsOn.readFilled hreader _

/-- A variable that is empty is read as one that is not set. The kernel toggle is the one setting
that is taken as it is. -/
theorem restsOn_read : (read reader).RestsOn readers := by
  have hsetting : ∀ s : Setting,
      (Run.readFilled reader s.key : Run PlanError _).RestsOn readers := by
    intro s
    exact Run.RestsOn.readFilled hreader s.key
  refine (restsOn_readSourceDir hreader).bind fun _ _ _ => ?_
  refine (hsetting .python).bind fun _ _ _ => ?_
  refine (hsetting .bindingsDirName).bind fun _ _ _ => ?_
  refine (hsetting .kernelFile).bind fun _ _ _ => ?_
  refine (hsetting .sourceExtension).bind fun _ _ _ => ?_
  refine (hsetting .moduleName).bind fun _ _ _ => ?_
  refine (restsOn_readParsed hreader _ _ _).bind fun _ _ _ => ?_
  refine Run.RestsOn.read_bind hreader _ ?_ fun _ => ?_
  · simp only [setAot_empty]
  refine (Run.RestsOn.look fun _ _ => rfl).bind fun _ _ _ => ?_
  refine (hsetting .archive).bind fun _ _ _ => ?_
  refine (hsetting .archiveDirs).bind fun _ _ _ => ?_
  refine (restsOn_readCudaHome hreader).bind fun _ _ _ => ?_
  refine (restsOn_readParsed hreader _ _ _).bind fun _ _ _ => ?_
  refine (hsetting .manifest).bind fun _ _ _ => ?_
  refine (hsetting .flags).bind fun _ _ _ => ?_
  exact Run.RestsOn.pure _

end Configuration

/-! ### Locating -/

theorem restsOn_findInterpreter {reader : Reader} (hreader : readers reader) :
    (findInterpreter reader).RestsOn readers := by
  refine (Run.RestsOn.readFilled hreader _).bind fun _ python _ => ?_
  cases python with
  | some python => exact Run.RestsOn.pure _
  | none =>
      refine Run.RestsOn.look_home fun w v hhome => ?_
      rw [World.findProgram_withVariables hhome]

theorem Interpreter.restsOn_ask (i : Interpreter) (q : Query) : (i.ask q).RestsOn readers := by
  have heval : ∀ (w : World) (v : Variables),
      i.evaluate q.expression (w.withVariables v) = i.evaluate q.expression w := by
    intro w v
    cases i with
    | program path => simp only [evaluate, World.execute_withVariables]
    | answers reply => rfl
  refine (Run.RestsOn.log _).bind fun _ _ _ => ?_
  refine (Run.RestsOn.look fun w v => ?_).bind fun _ _ _ => Run.RestsOn.look fun _ _ => rfl
  rw [heval]

namespace Locator

/-- If the locator reads variables, it does so through one of the readers. -/
def ReadsThrough (readers : Reader → Prop) (l : Locator) : Prop :=
  ∀ reader, l = .environment reader → readers reader

variable {l : Locator}

/-- A blank variable tells no place, and an empty one is blank. -/
theorem restsOn_locate (hl : l.ReadsThrough readers) (d : Dependency) :
    (l.locate d).RestsOn readers := by
  cases l with
  | interpreter i successCode => exact i.restsOn_ask _
  | manifest path m => exact Run.RestsOn.look fun _ _ => rfl
  | environment reader =>
      refine Run.RestsOn.read_bind (hl reader rfl) _ rfl fun value => ?_
      split
      · exact Run.RestsOn.pure _
      · exact Run.RestsOn.fail _

theorem restsOn_ofManifest (path : Path) : (ofManifest path).RestsOn readers := by
  refine Run.RestsOn.look fun w v => ?_
  rw [World.readText_withVariables]

theorem restsOn_ofConfiguration {c : Configuration} (hc : readers c.reader) :
    (ofConfiguration c).RestsOn readers := by
  unfold ofConfiguration
  split
  · split
    · exact (Run.RestsOn.pure _).bind fun _ _ _ => Run.RestsOn.pure _
    · exact ((restsOn_findInterpreter hc).mapError _).bind fun _ _ _ => Run.RestsOn.pure _
  · split
    · exact restsOn_ofManifest _
    · exact Run.RestsOn.fail _
  · exact Run.RestsOn.pure _

/-- A locator reads variables as the configuration does that chose it. -/
theorem readsThrough_of_ofConfiguration {c : Configuration} (hc : readers c.reader) {w : World}
    (h : (ofConfiguration c w).result = .ok l) : l.ReadsThrough readers := by
  rintro reader rfl
  unfold ofConfiguration at h
  cases hkind : c.locator with
  | interpreter =>
      cases hpython : c.python
      all_goals
        simp only [hkind, hpython, Run.result_bind, Run.result_pure, bind_eq_ok_iff,
          Except.ok.injEq] at h
        obtain ⟨python, -, h⟩ := h
        cases h
  | manifest =>
      cases hpath : c.manifest with
      | some path =>
          simp only [hkind, hpath, ofManifest, Run.result_look, bind_eq_ok_iff] at h
          obtain ⟨text, -, h⟩ := h
          split at h <;> cases h
      | none =>
          simp only [hkind, hpath, Run.result_fail] at h
          cases h
  | environment =>
      simp only [hkind, Run.result_pure] at h
      cases h
      exact hc

end Locator

/-! ### The toolchain -/

namespace BindingLibrary

variable {l : Locator}

theorem restsOn_locateSuffix (hl : l.ReadsThrough readers) :
    (locateSuffix l).RestsOn readers := by
  refine (Locator.restsOn_locate hl _).attempt.bind fun _ answer _ => ?_
  cases answer with
  | ok suffix => exact Run.RestsOn.pure _
  | error e => exact (Run.RestsOn.log _).bind fun _ _ _ => Run.RestsOn.pure _

theorem restsOn_resolve (hl : l.ReadsThrough readers) (dir : Path) (hints : SearchHints) :
    (resolve l dir hints).RestsOn readers := by
  refine (Run.RestsOn.look fun w v => ?_).bind fun _ package _ => ?_
  · exact PackageSpec.find_withVariables w v _ _
  refine (Locator.restsOn_locate hl _).bind fun _ headers _ => ?_
  refine (Run.RestsOn.look fun w v => ?_).bind fun _ _ _ => ?_
  · rw [World.isDirectory_withVariables]
  exact (restsOn_locateSuffix hl).bind fun _ _ _ => Run.RestsOn.pure _

end BindingLibrary

theorem TensorRuntime.restsOn_resolve (dir : Path) (hints : SearchHints) :
    (resolve dir hints).RestsOn readers := by
  refine (Run.RestsOn.look fun w v => ?_).bind fun _ package _ => ?_
  · exact PackageSpec.find_withVariables w v _ _
  refine (Run.RestsOn.look fun w v => ?_).bind fun _ _ _ => Run.RestsOn.pure _
  rw [World.findLibrary_withVariables]

/-- There is no directory with an empty name, so an empty variable names none. -/
theorem Cuda.filter_isDirectory_empty (w : World) :
    ((some "").toList.map Path.ofString).filter w.isDirectory = [] := by
  have hempty : w.isDirectory (Path.ofString "") = false := rfl
  simp [hempty]

section

variable {reader : Reader} (hreader : readers reader)

include hreader

namespace Cuda

theorem restsOn_findHome {ε : Type} : (findHome reader : Run ε _).RestsOn readers := by
  refine (Run.RestsOn.readFilled hreader _).bind fun _ first _ => ?_
  cases first
  case' some home => refine (Run.RestsOn.pure _).bind fun _ named _ => ?_
  case' none => refine (Run.RestsOn.readFilled hreader _).bind fun _ named _ => ?_
  -- the search for the compiler is the same, whichever variables were read
  all_goals
    cases named with
    | some home => exact Run.RestsOn.pure _
    | none =>
        refine Run.RestsOn.look_home fun w v hhome => ?_
        rw [World.findProgram_withVariables hhome, World.isFound_withVariables]

theorem Layout.restsOn_discover (home : Path) : (discover home reader).RestsOn readers := by
  unfold discover
  refine (Run.RestsOn.look fun w v => ?_).bind fun _ _ _ => ?_
  · rw [World.isDirectory_withVariables]
  refine (Run.RestsOn.look fun w v => ?_).bind fun _ includeDirs _ => ?_
  · rw [World.isDirectory_withVariables]
  split
  · exact Run.RestsOn.fail _
  · refine Run.RestsOn.read_bind hreader _ ?_ fun named => ?_
    · simp only [filter_isDirectory_empty, Option.toList_none, List.map_nil, List.filter_nil]
    refine (Run.RestsOn.look fun w v => ?_).bind fun _ _ _ => Run.RestsOn.pure _
    rw [World.isDirectory_withVariables]

end Cuda

theorem CudaToolkit.restsOn_resolve (home : Option Path) :
    (resolve home reader).RestsOn readers := by
  rw [resolve_eq]
  refine Run.RestsOn.bind ?_ fun _ found _ => ?_
  · cases home with
    | some home => exact Run.RestsOn.pure _
    | none => exact Cuda.restsOn_findHome hreader
  · cases found with
    | none => exact Run.RestsOn.fail _
    | some home =>
        refine ((Cuda.Layout.restsOn_discover hreader home).mapError _).bind fun _ layout _ => ?_
        refine (Run.RestsOn.look fun w v => ?_).bind fun _ _ _ => Run.RestsOn.pure _
        rw [World.findLibrary_withVariables]

theorem Toolchain.restsOn_resolve {l : Locator} (hl : l.ReadsThrough readers)
    (cudaHome : Option Path) : (resolve l cudaHome reader).RestsOn readers := by
  refine (Locator.restsOn_locate hl _).bind fun _ _ _ => ?_
  refine (BindingLibrary.restsOn_resolve hl _ _).bind fun _ _ _ => ?_
  refine (Locator.restsOn_locate hl _).bind fun _ _ _ => ?_
  refine (TensorRuntime.restsOn_resolve _ _).bind fun _ _ _ => ?_
  exact (CudaToolkit.restsOn_resolve hreader _).bind fun _ _ _ => Run.RestsOn.pure _

end

/-! ### The plan -/

theorem Artifact.restsOn_linkArchive (a : Artifact) (wanted : Toggle) (archive : KernelArchive) :
    (a.linkArchive wanted archive).RestsOn readers := by
  unfold linkArchive
  split
  · refine (Run.RestsOn.look fun w v => ?_).bind fun _ missing _ => ?_
    · rw [KernelArchive.isMissing_withVariables]
    split
    · exact (Run.RestsOn.log _).bind fun _ _ _ => Run.RestsOn.pure _
    · exact (Run.RestsOn.pure _).bind fun _ _ _ => Run.RestsOn.pure _
  · exact Run.RestsOn.pure _

namespace Configuration

variable {c : Configuration} (hc : readers c.reader)

include hc

theorem restsOn_resolve : c.resolve.RestsOn readers :=
  (Locator.restsOn_ofConfiguration hc).bind fun _ _ hl =>
    Toolchain.restsOn_resolve hc (Locator.readsThrough_of_ofConfiguration hc hl) _

theorem restsOn_planWith {l : Locator} (hl : l.ReadsThrough readers) :
    (c.planWith l).RestsOn readers := by
  refine (Toolchain.restsOn_resolve hc hl _).bind fun _ toolchain _ => ?_
  refine (Run.RestsOn.look fun w v => ?_).bind fun _ sources _ => ?_
  · exact SourceSet.discover_withVariables w v c
  refine (Run.RestsOn.look fun w v => ?_).bind fun _ artifact _ => ?_
  · exact Artifact.assemble_withVariables w v c toolchain sources
  split
  · refine (Run.RestsOn.look fun w v => ?_).bind fun _ archive _ => ?_
    · exact KernelArchive.ofConfiguration_withVariables w v c
    refine (Artifact.restsOn_linkArchive _ _ _).bind fun _ linked _ => ?_
    obtain ⟨artifact, linked⟩ := linked
    cases linked with
    | true => exact Run.RestsOn.look fun _ _ => rfl
    | false => exact Run.RestsOn.pure _
  · exact Run.RestsOn.pure _

/-- A plan rests on the variables that it reads through the configuration's reader. -/
theorem restsOn_plan : c.plan.RestsOn readers :=
  (Locator.restsOn_ofConfiguration hc).bind fun _ _ hl =>
    restsOn_planWith hc (Locator.readsThrough_of_ofConfiguration hc hl)

end Configuration

end ExtensionPlan
