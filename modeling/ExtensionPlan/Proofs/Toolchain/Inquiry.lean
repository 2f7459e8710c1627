import ExtensionPlan.Proofs.Toolchain

/-!
# ExtensionPlan.Proofs.Toolchain.Inquiry

**What an interpreter is asked.** Between the questions to an interpreter, resolving a toolchain
looks at files, and it may fail at any place. `Locator.Inquired` relates how it ended to the
questions that were put by then, of those that were planned. It goes through runs one after the
other (`Locator.Inquired.bind`), so it is shown of the whole by naming the parts in their order
(`Toolchain.inquired_resolve`).

Only the search for the GPU toolkit reads variables, and it comes last. What a run does not leave in
its trace at all is said by `Run.LeavesNo`.
-/

namespace ExtensionPlan

/-! ### Traces -/

namespace Run

variable {ε ε' α β γ : Type} {kind : Event → Option γ}

/-- Whatever the surroundings, no event of the kind is left. -/
def LeavesNo (kind : Event → Option γ) (m : Run ε α) : Prop :=
  ∀ w, (m w).events.filterMap kind = []

theorem events_bind_ok {m : Run ε α} {w : World} {a : α} (h : (m w).result = .ok a)
    (f : α → Run ε β) : ((m >>= f) w).events = (m w).events ++ (f a w).events := by
  rw [bind_apply_ok h]

theorem events_bind_error {m : Run ε α} {w : World} {e : ε} (h : (m w).result = .error e)
    (f : α → Run ε β) : ((m >>= f) w).events = (m w).events := by
  rw [bind_apply_error h]

namespace LeavesNo

variable {m : Run ε α}

theorem pure (a : α) : LeavesNo kind (Pure.pure a : Run ε α) := fun _ => rfl

theorem look (f : World → Except ε α) : LeavesNo kind (look f) := fun _ => rfl

theorem fail (e : ε) : LeavesNo kind (fail e : Run ε α) := fun _ => rfl

theorem log {event : Event} (h : kind event = none) : LeavesNo kind (log event : Run ε Unit) := by
  intro w
  show [event].filterMap kind = []
  rw [List.filterMap_cons_none h, List.filterMap_nil]

theorem read {reader : Reader} {name : String} (h : kind (.read reader name) = none) :
    LeavesNo kind (read reader name : Run ε _) := by
  intro w
  exact (log h : LeavesNo kind (Run.log (.read reader name) : Run ε Unit)) w

/-- What goes on with a value need leave nothing only for the values that there can be. -/
theorem bind_of_result (hm : LeavesNo kind m) {f : α → Run ε β}
    (hf : ∀ w a, (m w).result = .ok a → LeavesNo kind (f a)) : LeavesNo kind (m >>= f) := by
  intro w
  cases h : (m w).result with
  | error e => rw [events_bind_error h, hm w]
  | ok a => rw [events_bind_ok h, List.filterMap_append, hm w, hf w a h w, List.append_nil]

theorem bind (hm : LeavesNo kind m) {f : α → Run ε β} (hf : ∀ a, LeavesNo kind (f a)) :
    LeavesNo kind (m >>= f) := hm.bind_of_result fun _ a _ => hf a

theorem mapError (hm : LeavesNo kind m) (f : ε → ε') : LeavesNo kind (m.mapError f) := hm

theorem attempt (hm : LeavesNo kind m) : LeavesNo kind (m.attempt : Run ε' _) := hm

theorem readFilled {reader : Reader} {name : String} (h : kind (.read reader name) = none) :
    LeavesNo kind (readFilled reader name : Run ε _) :=
  (LeavesNo.read h).bind fun _ => LeavesNo.pure _

/-- Events of a kind that the first part of a run leaves none of come from the second part. -/
theorem exists_of_bind {f : α → Run ε β} (hm : LeavesNo kind m) {w : World}
    (h : ((m >>= f) w).events.filterMap kind ≠ []) :
    ∃ a, (m w).result = .ok a ∧ (f a w).events.filterMap kind ≠ [] := by
  cases hresult : (m w).result with
  | error e =>
      rw [events_bind_error hresult, hm w] at h
      exact absurd rfl h
  | ok a =>
      rw [events_bind_ok hresult, List.filterMap_append, hm w, List.nil_append] at h
      exact ⟨a, rfl, h⟩

end LeavesNo

end Run

/-! ### Questions -/

/-- A question is put once, whatever comes of it. -/
theorem Interpreter.events_ask (i : Interpreter) (q : Query) (w : World) :
    (i.ask q w).events = [.asked q.expression] := by
  unfold ask
  rw [Run.events_bind_ok (a := ()) rfl]
  have hquiet : Run.LeavesNo some (do
      let reply ← Run.look fun w =>
        (i.evaluate q.expression w).mapError fun e => q.failure (.notStarted e)
      Run.look fun _ => q.answer reply) :=
    (Run.LeavesNo.look _).bind fun _ => Run.LeavesNo.look _
  have hnone := hquiet w
  rw [List.filterMap_some] at hnone
  rw [hnone]
  rfl

namespace Locator

variable {l : Locator} {α β : Type}

/-- The dependencies can be located, the suffix apart. -/
def Locates (l : Locator) (w : World) (dependencies : List Dependency) : Prop :=
  ∀ d ∈ dependencies, d ≠ .extensionSuffix → ∃ location, (l.locate d w).result = .ok location

/-- How a run ended that put the questions for the dependencies `done`. They are the first of those
that were `planned`, in their order. -/
structure Inquired (l : Locator) (w : World) (planned done : List Dependency)
    (o : Outcome PlanError α) : Prop where
  begun : done <+: planned
  asked : o.asked = done.map Dependency.expression
  /-- With a value in the end, all that was planned was asked and located. -/
  finished : ∀ a, o.result = .ok a → done = planned ∧ l.Locates w done
  /-- A dependency that is not located is the last one that was asked for, and no suffix. -/
  blamed : ∀ e, o.result = .error e → e.IsNotLocated → ∃ d diagnosis, done.getLast? = some d ∧
    d ≠ .extensionSuffix ∧ e = .notLocated d.name d.expression diagnosis
  /-- With another failure, all that was asked for was located. -/
  located : ∀ e, o.result = .error e → ¬ e.IsNotLocated → l.Locates w done

/-- Whatever the surroundings, the run puts the questions that are planned, unless it ends before
that. -/
def Asks (l : Locator) (planned : List Dependency) (m : Run PlanError α) : Prop :=
  ∀ w, ∃ done, l.Inquired w planned done (m w)

/-! ### Questions one after the other -/

namespace Inquired

variable {w : World} {planned more done others : List Dependency} {m : Run PlanError α}
  {f : α → Run PlanError β}

/-- A run that fails leaves it at the questions that it put. -/
theorem bind_error {e : PlanError} (hm : l.Inquired w planned done (m w))
    (h : (m w).result = .error e) : l.Inquired w (planned ++ more) done ((m >>= f) w) := by
  rw [Run.bind_apply_error h]
  refine ⟨hm.begun.trans (List.prefix_append _ _), hm.asked, nofun, fun e' he' => ?_,
    fun e' he' => ?_⟩
  · cases he'
    exact hm.blamed e h
  · cases he'
    exact hm.located e h

/-- After a run that comes to a value the questions go on. -/
theorem bind_ok {a : α} (hm : l.Inquired w planned done (m w)) (h : (m w).result = .ok a)
    (hf : l.Inquired w more others (f a w)) :
    l.Inquired w (planned ++ more) (planned ++ others) ((m >>= f) w) := by
  obtain ⟨rfl, hlocated⟩ := hm.finished a h
  have hall : l.Locates w others → l.Locates w (done ++ others) := by
    intro hothers d hd
    rcases List.mem_append.1 hd with hd | hd
    · exact hlocated d hd
    · exact hothers d hd
  rw [Run.bind_apply_ok h]
  refine ⟨(List.prefix_append_right_inj done).2 hf.begun, ?_, fun b hb => ?_,
    fun e he hnot => ?_, fun e he hnot => hall (hf.located e he hnot)⟩
  · show ((m w).events ++ (f a w).events).filterMap Event.expression? = _
    rw [List.filterMap_append, List.map_append]
    exact congrArg₂ (· ++ ·) hm.asked hf.asked
  · obtain ⟨rfl, hothers⟩ := hf.finished b hb
    exact ⟨rfl, hall hothers⟩
  · obtain ⟨d, diagnosis, hlast, hd⟩ := hf.blamed e he hnot
    exact ⟨d, diagnosis, by rw [List.getLast?_append, hlast, Option.some_or], hd⟩

end Inquired

namespace Asks

variable {planned more : List Dependency}

/-- Runs one after the other put their questions one after the other. -/
theorem bind {m : Run PlanError α} {f : α → Run PlanError β} (hm : l.Asks planned m)
    (hf : ∀ a, l.Asks more (f a)) : l.Asks (planned ++ more) (m >>= f) := by
  intro w
  obtain ⟨done, hdone⟩ := hm w
  cases h : (m w).result with
  | error e => exact ⟨done, hdone.bind_error h⟩
  | ok a =>
      obtain ⟨others, hothers⟩ := hf a w
      exact ⟨planned ++ others, hdone.bind_ok h hothers⟩

/-- A run that asks for nothing can come after the questions. -/
theorem bind_silent {m : Run PlanError α} {f : α → Run PlanError β} (hm : l.Asks planned m)
    (hf : ∀ a, l.Asks [] (f a)) : l.Asks planned (m >>= f) := by
  have h := hm.bind hf
  rwa [List.append_nil] at h

/-- So can it come before them. -/
theorem silent_bind {m : Run PlanError α} {f : α → Run PlanError β} (hm : l.Asks [] m)
    (hf : ∀ a, l.Asks more (f a)) : l.Asks more (m >>= f) := hm.bind hf

/-- What leaves no question, and fails only for what there is on the machine, asks for nothing. -/
theorem of_leavesNo {m : Run PlanError α} (hquiet : m.LeavesNo Event.expression?)
    (hfails : m.FailsOnly PlanError.IsUnavailable) : l.Asks [] m := by
  intro w
  refine ⟨[], List.prefix_refl [], hquiet w, fun a ha => ⟨rfl, nofun⟩, fun e he hlocated => ?_,
    fun e he _ => nofun⟩
  exact absurd hlocated (hfails w e he).not_isNotLocated

/-- Looking at the surroundings puts no question. -/
theorem look {f : World → Except PlanError α}
    (hfails : (Run.look f).FailsOnly PlanError.IsUnavailable) : l.Asks [] (Run.look f) :=
  of_leavesNo (.look f) hfails

theorem pure (a : α) : l.Asks [] (Pure.pure a) := of_leavesNo (.pure a) (.pure a)

variable (i : Interpreter) (successCode : Int)

/-- A dependency that is asked for is located, or to blame. -/
theorem locate (d : Dependency) (hd : d ≠ .extensionSuffix) :
    (interpreter i successCode).Asks [d] ((interpreter i successCode).locate d) := by
  intro w
  refine ⟨[d], List.prefix_refl [d], ?_, fun location hlocation => ⟨rfl, ?_⟩, fun e he _ => ?_,
    fun e he hnot => ?_⟩
  · rw [Outcome.asked, Locator.locate, Interpreter.events_ask]
    rfl
  · intro other hother _
    rw [List.mem_singleton.1 hother]
    exact ⟨location, hlocation⟩
  · obtain ⟨diagnosis, hdiagnosis⟩ :=
      Interpreter.failsOnly_ask i (.ofDependency d successCode) w e he
    exact ⟨d, diagnosis, rfl, hd, hdiagnosis⟩
  · obtain ⟨expression, diagnosis, rfl⟩ := failsOnly_locate _ d w e he
    exact absurd ⟨d.name, expression, diagnosis, rfl⟩ hnot

/-- An attempt to locate the suffix asks for it and comes to a value, whatever that says. -/
theorem attempt_locate : (interpreter i successCode).Asks [.extensionSuffix]
    (((interpreter i successCode).locate .extensionSuffix).attempt) := by
  intro w
  refine ⟨[.extensionSuffix], List.prefix_refl _, ?_, fun _ _ => ⟨rfl, ?_⟩, nofun, nofun⟩
  · show ((interpreter i successCode).locate .extensionSuffix w).events.filterMap
      Event.expression? = _
    rw [Locator.locate, Interpreter.events_ask]
    rfl
  · exact fun d hd hsuffix => absurd (List.mem_singleton.1 hd) hsuffix

end Asks

end Locator

/-! ### The parts of a toolchain -/

section Parts

open Locator

namespace BindingLibrary

variable (i : Interpreter) (successCode : Int)

/-- The suffix is asked for, and whatever the answer nothing is made of it but a warning. -/
theorem asks_locateSuffix : (interpreter i successCode).Asks [.extensionSuffix]
    (locateSuffix (.interpreter i successCode)) := by
  refine (Asks.attempt_locate i successCode).bind_silent fun answer => ?_
  cases answer with
  | ok suffix => exact .pure _
  | error e =>
      refine Asks.of_leavesNo ((Run.LeavesNo.log rfl).bind fun _ => .pure _) ?_
      exact Run.FailsOnly.bind (.of_ok fun w => Run.result_warn _ w) fun _ => .pure _

/-- The headers and the suffix are asked for once the package of the generator is found. -/
theorem asks_resolve (dir : Path) (hints : SearchHints) :
    (interpreter i successCode).Asks [.pythonHeaders, .extensionSuffix]
      (resolve (.interpreter i successCode) dir hints) := by
  refine (Asks.look (PackageSpec.failsOnly_find _ _)).silent_bind fun package => ?_
  refine (Asks.locate i successCode .pythonHeaders (by decide)).bind fun headers => ?_
  refine (Asks.look (failsOnly_headers _)).silent_bind fun _ => ?_
  exact (asks_locateSuffix i successCode).bind_silent fun suffix => .pure _

/-- A binding generator leaves what its locator leaves, and a warning. -/
theorem leavesNo_resolve {γ : Type} {kind : Event → Option γ}
    (hwarn : ∀ text, kind (.warned text) = none) {l : Locator}
    (hlocate : ∀ d, (l.locate d).LeavesNo kind) (dir : Path) (hints : SearchHints) :
    (resolve l dir hints).LeavesNo kind := by
  refine (Run.LeavesNo.look _).bind fun package => ?_
  refine (hlocate .pythonHeaders).bind fun headers => (Run.LeavesNo.look _).bind fun _ => ?_
  refine Run.LeavesNo.bind ?_ fun suffix => .pure _
  refine (hlocate .extensionSuffix).attempt.bind fun answer => ?_
  cases answer with
  | ok suffix => exact .pure _
  | error e => exact (Run.LeavesNo.log (hwarn _)).bind fun _ => .pure _

end BindingLibrary

theorem TensorRuntime.leavesNo_resolve {γ : Type} {kind : Event → Option γ} (dir : Path)
    (hints : SearchHints) : (resolve dir hints).LeavesNo kind :=
  (Run.LeavesNo.look _).bind fun _ => (Run.LeavesNo.look _).bind fun _ => .pure _

namespace CudaToolkit

variable {γ : Type} {kind : Event → Option γ} {reader : Reader}

/-- The variables by which the toolkit is searched. -/
def searchVariables : List String := ["CUDA_HOME", "CUDA_PATH", "CUDA_LIB_DIR"]

theorem leavesNo_findHome (hread : ∀ name ∈ searchVariables, kind (.read reader name) = none) :
    (Cuda.findHome reader : Run PlanError _).LeavesNo kind := by
  refine (Run.LeavesNo.readFilled (hread "CUDA_HOME" (by decide))).bind fun first => ?_
  cases first
  case' some home => refine Run.LeavesNo.bind (.pure _) fun named => ?_
  case' none =>
    refine (Run.LeavesNo.readFilled (hread "CUDA_PATH" (by decide))).bind fun named => ?_
  all_goals
    cases named with
    | some home => exact .pure _
    | none => exact .look _

/-- The search for the GPU toolkit leaves nothing but the variables that it reads. -/
theorem leavesNo_resolve (hread : ∀ name ∈ searchVariables, kind (.read reader name) = none)
    (home : Option Path) : (resolve home reader).LeavesNo kind := by
  rw [resolve_eq]
  refine Run.LeavesNo.bind ?_ fun found => ?_
  · cases home with
    | some home => exact .pure _
    | none => exact leavesNo_findHome hread
  · cases found with
    | none => exact .fail _
    | some home =>
        refine Run.LeavesNo.bind (.mapError ?_ _) fun layout => ?_
        · refine (Run.LeavesNo.look _).bind fun _ => (Run.LeavesNo.look _).bind fun dirs => ?_
          split
          · exact .fail _
          · refine (Run.LeavesNo.read (hread "CUDA_LIB_DIR" (by decide))).bind fun named => ?_
            exact (Run.LeavesNo.look _).bind fun _ => .pure _
        · exact (Run.LeavesNo.look _).bind fun _ => .pure _

end CudaToolkit

end Parts

/-! ### The whole -/

namespace Toolchain

/-- The questions in the order in which a toolchain needs their answers. -/
def inquiries : List Dependency :=
  [.bindingLibrary, .pythonHeaders, .extensionSuffix, .tensorRuntime]

theorem asks_resolve (i : Interpreter) (successCode : Int) (cudaHome : Option Path)
    (reader : Reader) : (Locator.interpreter i successCode).Asks inquiries
      (resolve (.interpreter i successCode) cudaHome reader) := by
  refine (Locator.Asks.locate i successCode .bindingLibrary (by decide)).bind fun bindingDir => ?_
  refine (BindingLibrary.asks_resolve i successCode _ _).bind fun binding => ?_
  refine (Locator.Asks.locate i successCode .tensorRuntime (by decide)).bind_silent
    fun tensorDir => ?_
  refine Locator.Asks.silent_bind ?_ fun tensor => ?_
  · exact .of_leavesNo (TensorRuntime.leavesNo_resolve _ _) (TensorRuntime.failsOnly_resolve _ _)
  refine Locator.Asks.silent_bind ?_ fun cuda => .pure _
  exact .of_leavesNo (CudaToolkit.leavesNo_resolve (fun _ _ => rfl) _)
    (CudaToolkit.failsOnly_resolve _ _)

/-- Variables are read only once the tensor runtime is resolved: its place was told, its package was
found, and so was the library that binds it to Python. -/
theorem exists_tensor_of_reads {i : Interpreter} {successCode : Int} {cudaHome : Option Path}
    {reader : Reader} {w : World}
    (h : (resolve (.interpreter i successCode) cudaHome reader w).reads ≠ []) :
    ∃ bindingDir tensorDir tensor,
      ((Locator.interpreter i successCode).locate .bindingLibrary w).result = .ok bindingDir ∧
      ((Locator.interpreter i successCode).locate .tensorRuntime w).result = .ok tensorDir ∧
      (TensorRuntime.resolve tensorDir
        ((SearchHints.empty.register bindingDir).register tensorDir) w).result = .ok tensor := by
  have hlocate : ∀ d, ((Locator.interpreter i successCode).locate d).LeavesNo Event.lookup? := by
    intro d w
    rw [Locator.locate, Interpreter.events_ask]
    rfl
  unfold resolve resolveWith at h
  obtain ⟨bindingDir, hbinding, h⟩ := (hlocate .bindingLibrary).exists_of_bind h
  obtain ⟨binding, -, h⟩ :=
    (BindingLibrary.leavesNo_resolve (fun _ => rfl) hlocate _ _).exists_of_bind h
  obtain ⟨tensorDir, htensorDir, h⟩ := (hlocate .tensorRuntime).exists_of_bind h
  obtain ⟨tensor, htensor, -⟩ := (TensorRuntime.leavesNo_resolve _ _).exists_of_bind h
  exact ⟨bindingDir, tensorDir, tensor, hbinding, htensorDir, htensor⟩

/-- **What an interpreter is asked.** Whatever it answers and whatever there is on the machine,
resolving a toolchain puts the questions in their order and none of them twice, ends as it has to
after the last one that it put, and reads no variable before the tensor runtime is resolved. -/
theorem inquired_resolve (i : Interpreter) (successCode : Int) (cudaHome : Option Path)
    (reader : Reader) (w : World) :
    let o := resolve (.interpreter i successCode) cudaHome reader w
    (∃ done, (Locator.interpreter i successCode).Inquired w inquiries done o) ∧ o.asked.Nodup ∧
      (o.reads ≠ [] → ∃ bindingDir tensorDir tensor,
        ((Locator.interpreter i successCode).locate .bindingLibrary w).result = .ok bindingDir ∧
        ((Locator.interpreter i successCode).locate .tensorRuntime w).result = .ok tensorDir ∧
        (TensorRuntime.resolve tensorDir
          ((SearchHints.empty.register bindingDir).register tensorDir) w).result =
            .ok tensor) := by
  intro o
  obtain ⟨done, hdone⟩ := asks_resolve i successCode cudaHome reader w
  refine ⟨⟨done, hdone⟩, ?_, exists_tensor_of_reads⟩
  have hdistinct : (inquiries.map Dependency.expression).Nodup := by decide
  rw [hdone.asked]
  exact hdistinct.sublist (hdone.begun.map _).sublist

end Toolchain

end ExtensionPlan
