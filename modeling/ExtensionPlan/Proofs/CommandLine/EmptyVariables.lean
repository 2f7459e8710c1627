import ExtensionPlan.CommandLine.Response
import ExtensionPlan.Proofs.Plan.Announcement

/-!
# ExtensionPlan.Proofs.CommandLine.EmptyVariables

**Empty variables.** A variable of the process that is empty may as well be deleted, the one that
names the home directory included: reading a configuration, overriding it, planning with it and
answering a command line leave the same trace and end in the same way
(`CommandLine.outcome_unset`). What is announced to the build tool is part of the trace.

All of these rest on the texts of the variables that they read (`Run.RestsOn`), and the variables
that are left match the old ones in every text, whatever was read.
-/

namespace ExtensionPlan

/-! ### Deleting variables -/

namespace World

variable {w : World} {names : String → Bool}

/-- The variables that are left when those of these names are deleted from the process. One of them
names the home directory. -/
def remaining (w : World) (names : String → Bool) : Variables where
  table := w.table
  process := fun name => if names name then none else w.process name
  home := if names "HOME" then none else w.home

/-- The surroundings after the variables of these names were deleted from the process. -/
def unset (w : World) (names : String → Bool) : World := w.withVariables (w.remaining names)

/-- The variables of these names are set to the empty text. -/
structure AreEmpty (w : World) (names : String → Bool) : Prop where
  process : ∀ name, names name = true → w.process name = some ""
  home : names "HOME" = true → w.home = some ""

/-- What is deleted of the texts is not missed where empty ones do not count. -/
theorem filter_unset {text : Option String} {deleted : Bool}
    (h : deleted = true → text = some "") :
    (if deleted then none else text).filter (· ≠ "") = text.filter (· ≠ "") := by
  cases deleted with
  | false => rfl
  | true =>
      rw [h rfl]
      rfl

theorem AreEmpty.matches_remaining (h : w.AreEmpty names) (readers : Reader → Prop)
    (events : List Event) : w.Matches readers (w.remaining names) events where
  home := filter_unset h.home
  filled := by
    intro reader name _ _
    cases reader with
    | table => rfl
    | process => exact filter_unset (h.process name)
    | announcing => exact filter_unset (h.process name)

/-- A run that rests on what it reads does not notice. -/
theorem AreEmpty.run_unset (h : w.AreEmpty names) {ε α : Type} {readers : Reader → Prop}
    {m : Run ε α} (hm : m.RestsOn readers) : m (w.unset names) = m w :=
  hm w _ (h.matches_remaining readers _)

end World

namespace CommandLine

variable {readers : Reader → Prop}

/-! ### Overriding -/

namespace Overrides

/-- If the kernel toggle is read again, the empty text leaves it off, as no text does. -/
theorem restsOn_apply (o : Overrides) {c : Configuration} (hc : readers c.reader) :
    (o.apply c).RestsOn readers := by
  unfold apply toggle
  dsimp only
  cases o.aot with
  | some text =>
      -- the text that is given is set last, so nothing is read for the toggle
      split
      all_goals
        exact (Run.RestsOn.pure _).bind fun _ _ _ => Run.RestsOn.look fun _ _ => rfl
  | none =>
      split
      · refine Run.RestsOn.read_bind hc _ ?_ fun text => ?_
        · simp only [Configuration.setAot_empty]
        · exact (Run.RestsOn.look fun _ _ => rfl).bind fun _ _ _ => Run.RestsOn.pure _
      · exact (Run.RestsOn.pure _).bind fun _ _ _ => Run.RestsOn.pure _

/-- The configuration that is read and then overridden. -/
def configure (o : Overrides) (reader : Reader) : Run PlanError Configuration := do
  o.apply (← Configuration.read reader)

theorem restsOn_configure (o : Overrides) {reader : Reader} (hreader : readers reader) :
    (o.configure reader).RestsOn readers := by
  refine (Configuration.restsOn_read hreader).bind fun w c hc => ?_
  rw [← Configuration.reader_of_read hc] at hreader
  exact restsOn_apply o hreader

end Overrides

/-! ### Answering -/

theorem Command.restsOn_answer (command : Command) {c : Configuration} (hc : readers c.reader) :
    (command.answer c).RestsOn readers := by
  have hplan := Configuration.restsOn_plan hc
  cases command with
  | plan compact =>
      cases compact
      all_goals exact hplan.bind fun _ _ _ => Run.RestsOn.pure _
  | directives => exact hplan.bind fun _ _ _ => Run.RestsOn.pure _
  | probe => exact (Configuration.restsOn_resolve hc).bind fun _ _ _ => Run.RestsOn.pure _
  | config keys =>
      cases keys
      all_goals exact Run.RestsOn.pure _

theorem restsOn_answer (o : Overrides) (command : Command) :
    (answer o command).RestsOn fun _ => True := by
  have hload : o.load.RestsOn fun _ => True :=
    ((Configuration.restsOn_read trivial).mapError _).bind fun _ _ _ =>
      (o.restsOn_apply trivial).mapError _
  exact hload.bind fun _ _ _ => (command.restsOn_answer trivial).mapError _

/-- **Empty variables.** After empty variables of a process are deleted, a configuration is read as
before, with overrides and without, the same is announced and planned with it, and every command
line gets the same response. -/
theorem outcome_unset {w : World} {names : String → Bool} (h : w.AreEmpty names) :
    (∀ reader, Configuration.read reader (w.unset names) = Configuration.read reader w) ∧
    (∀ (o : Overrides) (reader : Reader),
      o.configure reader (w.unset names) = o.configure reader w ∧
      (o.configure reader >>= Configuration.plan) (w.unset names) =
        (o.configure reader >>= Configuration.plan) w) ∧
    (∀ c : Configuration, c.plan (w.unset names) = c.plan w) ∧
    Configuration.announcedPlan (w.unset names) = Configuration.announcedPlan w ∧
    ∀ arguments, respond (w.unset names) arguments = respond w arguments := by
  -- whichever reader is used, all that it reads counts
  have hread : ∀ reader, (Configuration.read reader).RestsOn fun _ => True := by
    intro reader
    exact Configuration.restsOn_read trivial
  have hconfigure : ∀ (o : Overrides) reader, (o.configure reader).RestsOn fun _ => True := by
    intro o reader
    exact o.restsOn_configure trivial
  have hplan : ∀ c : Configuration, c.plan.RestsOn fun _ => True := by
    intro c
    exact Configuration.restsOn_plan trivial
  refine ⟨fun reader => h.run_unset (hread reader), fun o reader => ⟨?_, ?_⟩,
    fun c => h.run_unset (hplan c), ?_, fun arguments => ?_⟩
  · exact h.run_unset (hconfigure o reader)
  · exact h.run_unset ((hconfigure o reader).bind fun _ c _ => hplan c)
  · exact h.run_unset Configuration.restsOn_announcedPlan
  · unfold respond
    cases Request.parse arguments with
    | error e => rfl
    | ok request =>
        cases request with
        | help => rfl
        | run o command =>
            simp only [Request.respond, h.run_unset (restsOn_answer o command)]

end CommandLine

namespace Sample

/-- Empty variables, each of them read in a way of its own. -/
def emptied (name : String) : Bool :=
  ["TRITON_DIST_AOT", "CUDA_LIB_DIR", "EXT_PYTHON_EXT_SUFFIX", "HOME"].contains name

/-- The variables of the installation and the empty ones. -/
def processWithEmpty (name : String) : Option String :=
  if emptied name then some "" else process name

/-- The installation with these variables, programs being searched below the home directory. -/
def emptiedWorld : World :=
  { world.withProcess processWithEmpty with searchPath := some "~/bin", home := some "" }

/-- Without its empty variables the installation is planned as before, whether toggles are strict or
not. -/
theorem outcome_unset_sample :
    emptiedWorld.AreEmpty emptied ∧
    Configuration.announcedPlan (emptiedWorld.unset emptied) =
      Configuration.announcedPlan emptiedWorld ∧
    (Configuration.announcedPlan emptiedWorld).result.isOk = true ∧
    CommandLine.respond (emptiedWorld.unset emptied) ["--strict-feature-flags", "directives"] =
      CommandLine.respond emptiedWorld ["--strict-feature-flags", "directives"] := by
  have hempty : emptiedWorld.AreEmpty emptied := ⟨fun name hname => if_pos hname, fun _ => rfl⟩
  obtain ⟨-, -, -, hplan, hrespond⟩ := CommandLine.outcome_unset hempty
  exact ⟨hempty, hplan, by decide +kernel, hrespond _⟩

end Sample

end ExtensionPlan
