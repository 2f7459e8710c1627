import ExtensionPlan.World

/-!
# Runs

What looks at the surroundings and leaves a trace is a `Run`: from a `World` it gives its events
in order, and a value or a failure. The events up to a failure are kept. A variable is always read
through a `Reader`, and the read is an event, so that what a run depends on can be read off its
trace.

* `Run.read`, `Run.ask`, `Run.warn` — the three things that leave an event;
* `Outcome.reads`, `Outcome.asked`, `Outcome.warnings`, `Outcome.announcements` — the trace by
  kind.
-/

namespace ExtensionPlan

/-- Something that a run did and that can be seen from outside. -/
inductive Event where
  /-- It read a variable. -/
  | read (reader : Reader) (name : String)
  /-- It gave an expression to an interpreter. -/
  | asked (expression : String)
  | warned (text : String)
  deriving DecidableEq, Repr

/-- The line that tells the build tool about an event, if it is to be told. -/
def Event.announcement? : Event → Option String
  | .read .announcing name => some ("cargo:rerun-if-env-changed=" ++ name)
  | _ => none

/-- The expression of an event that asked an interpreter. -/
def Event.expression? : Event → Option String
  | .asked expression => some expression
  | _ => none

/-- The text of a warning. -/
def Event.warning? : Event → Option String
  | .warned text => some text
  | _ => none

/-- The variable that an event read, and how. -/
def Event.lookup? : Event → Option (Reader × String)
  | .read reader name => some (reader, name)
  | _ => none

/-- How a run ended, and the events on the way. -/
structure Outcome (ε α : Type) where
  events : List Event
  result : Except ε α

namespace Outcome

variable {ε α : Type}

/-- The lines for the build tool, in order. -/
def announcements (o : Outcome ε α) : List String := o.events.filterMap Event.announcement?

/-- The expressions that were asked, in order. -/
def asked (o : Outcome ε α) : List String := o.events.filterMap Event.expression?

/-- The warnings, in order. -/
def warnings (o : Outcome ε α) : List String := o.events.filterMap Event.warning?

/-- The variables that were read, in order. -/
def reads (o : Outcome ε α) : List (Reader × String) := o.events.filterMap Event.lookup?

end Outcome

/-- A computation in some surroundings that leaves a trace and may fail. -/
def Run (ε α : Type) := World → Outcome ε α

namespace Run

variable {ε ε' α β : Type}

/-- Go on with the value of a run, or fail as it failed. -/
def andThen (m : Run ε α) (f : α → Run ε β) : Run ε β := fun w =>
  let first := m w
  match first.result with
  | .ok a =>
    let second := f a w
    ⟨first.events ++ second.events, second.result⟩
  | .error e => ⟨first.events, .error e⟩

instance : Monad (Run ε) where
  pure a := fun _ => ⟨[], .ok a⟩
  bind := andThen

/-- Fail. -/
def fail (e : ε) : Run ε α := fun _ => ⟨[], .error e⟩

/-- What follows from the surroundings alone leaves no trace. -/
def look (f : World → Except ε α) : Run ε α := fun w => ⟨[], f w⟩

/-- Leave an event. -/
def log (event : Event) : Run ε Unit := fun _ => ⟨[event], .ok ()⟩

/-- The value of a variable. -/
def read (reader : Reader) (name : String) : Run ε (Option String) := fun w =>
  ⟨[.read reader name], .ok (w.value? reader name)⟩

/-- The value of a variable, the empty text counting as none. -/
def readFilled (reader : Reader) (name : String) : Run ε (Option String) := do
  return (← read reader name).filter (· ≠ "")

/-- Leave a warning. -/
def warn (text : String) : Run ε Unit := log (.warned text)

/-- The run with its failure in other words. -/
def mapError (f : ε → ε') (m : Run ε α) : Run ε' α := fun w =>
  ⟨(m w).events, (m w).result.mapError f⟩

/-- The run, with its failure as a value. -/
def attempt (m : Run ε α) : Run ε' (Except ε α) := fun w => ⟨(m w).events, .ok (m w).result⟩

/-! ## What a run leaves -/

theorem pure_apply (a : α) (w : World) : (pure a : Run ε α) w = ⟨[], .ok a⟩ := rfl

theorem bind_apply (m : Run ε α) (f : α → Run ε β) (w : World) :
    (m >>= f) w = andThen m f w := rfl

/-- A run that goes on after a value leaves the events of both parts. -/
theorem bind_apply_ok {m : Run ε α} {w : World} {a : α} (h : (m w).result = .ok a)
    (f : α → Run ε β) :
    (m >>= f) w = ⟨(m w).events ++ (f a w).events, (f a w).result⟩ := by
  simp only [bind_apply, andThen, h]

/-- A run that fails keeps the events up to there. -/
theorem bind_apply_error {m : Run ε α} {w : World} {e : ε} (h : (m w).result = .error e)
    (f : α → Run ε β) : (m >>= f) w = ⟨(m w).events, .error e⟩ := by
  simp only [bind_apply, andThen, h]

instance : LawfulMonad (Run ε) := by
  refine LawfulMonad.mk' (Run ε) (fun m => ?_) (fun a f => ?_) (fun m f g => ?_)
  · funext w
    cases h : (m w).result with
    | error e => exact (bind_apply_error h _).trans (by rw [← h])
    | ok a =>
      refine (bind_apply_ok h _).trans ?_
      change (⟨(m w).events ++ [], .ok a⟩ : Outcome ε _) = m w
      rw [List.append_nil, ← h]
  · funext w
    simp [bind_apply, andThen, pure_apply]
  · funext w
    cases h : (m w).result with
    | error e => simp [bind_apply, andThen, h]
    | ok a =>
      cases hf : (f a w).result with
      | error e => simp [bind_apply, andThen, h, hf]
      | ok b => simp [bind_apply, andThen, h, hf]

end Run

end ExtensionPlan
