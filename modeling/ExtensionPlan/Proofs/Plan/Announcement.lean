import ExtensionPlan.Proofs.Plan.Dependence
import ExtensionPlan.Proofs.Plan.Directives

/-!
# ExtensionPlan.Proofs.Plan.Announcement

**What the build tool is told.** A build tool runs a plan again when a variable changes that was
announced to it. That is enough: with all other variables changed, the plan does the same as before
and ends as before (`Configuration.announcedPlan_congr`).

Which variables are looked up depends on what was found so far. `Run.Announces` therefore compares a
run with itself in other surroundings, and only the names count that the first one announced. A run
that rests on one reader announces what it depends on if that reader does, and a plan rests on the
reader that its configuration was read with.
-/

namespace ExtensionPlan

namespace Run

variable {ε α : Type}

/-- The variables hold what the process has, as far as they were announced on the way to an
outcome. -/
def HoldsAnnounced (w : World) (env : String → Option String) (o : Outcome ε α) : Prop :=
  ∀ name, Event.read .announcing name ∈ o.events → env name = w.process name

/-- The run depends on no variable of the process that it does not announce. -/
def Announces (m : Run ε α) : Prop :=
  ∀ w env, HoldsAnnounced w env (m w) → m (w.withProcess env) = m w

/-- A run that rests on what it announces depends on nothing else. -/
theorem RestsOn.announces {m : Run ε α} (h : RestsOn (· = .announcing) m) : Announces m := by
  intro w env hheld
  rw [World.withProcess_eq]
  refine h w _ ⟨rfl, fun reader name hreader hname => ?_⟩
  subst hreader
  show (env name).filter (· ≠ "") = (w.process name).filter (· ≠ "")
  rw [hheld name hname]

end Run

/-! ### The plan -/

namespace Configuration

/-- What a build script does: read the configuration and plan with it, every look-up of a variable
being announced. -/
def announcedPlan : Run PlanError Artifact := do (← read .announcing).plan

/-- The variables that are read on the way are all announced. -/
theorem restsOn_announcedPlan : announcedPlan.RestsOn (· = .announcing) := by
  have hread : (read .announcing).RestsOn (· = .announcing) := restsOn_read rfl
  exact hread.bind fun _ _ hc => restsOn_plan (reader_of_read hc)

/-- **What the build tool is told.** If two processes have the same values for the variables that
the plan of one announces, the plan of the other leaves the same trace and ends in the same artifact
or the same failure. -/
theorem announcedPlan_congr (w : World) (env others : String → Option String)
    (h : ∀ name, "cargo:rerun-if-env-changed=" ++ name ∈
        (announcedPlan (w.withProcess env)).announcements →
      others name = env name) :
    (announcedPlan (w.withProcess others)).events =
        (announcedPlan (w.withProcess env)).events ∧
      (announcedPlan (w.withProcess others)).result =
        (announcedPlan (w.withProcess env)).result := by
  have hannounces : announcedPlan.Announces := restsOn_announcedPlan.announces
  have hheld : Run.HoldsAnnounced (w.withProcess env) others
      (announcedPlan (w.withProcess env)) := by
    intro name hname
    exact h name (List.mem_filterMap.2 ⟨_, hname, rfl⟩)
  have hsame := hannounces (w.withProcess env) others hheld
  rw [show w.withProcess others = (w.withProcess env).withProcess others from rfl, hsame]
  exact ⟨rfl, rfl⟩

end Configuration

namespace Sample

/-- Variables that tell where the parts of the installation are. -/
def process (name : String) : Option String :=
  [("EXT_SOURCE_DIR", "/s"), ("EXT_LOCATOR", "env"), ("EXT_PYBIND11_DIR", "/b"),
    ("EXT_PYTHON_INCLUDE", "/b"), ("EXT_TORCH_PREFIX", "/t"), ("CUDA_HOME", "/c")].lookup name

/-- The variables with another one for the GPU toolkit, which is not looked at. -/
def processWithPath (name : String) : Option String :=
  if name = "CUDA_PATH" then some "/elsewhere" else process name

/-- As the first variable for the toolkit is set, the second one is not announced and may change. -/
theorem announcedPlan_congr_sample :
    (∀ name, "cargo:rerun-if-env-changed=" ++ name ∈
        (Configuration.announcedPlan (world.withProcess process)).announcements →
      processWithPath name = process name) ∧
    (Configuration.announcedPlan (world.withProcess processWithPath)).events =
      (Configuration.announcedPlan (world.withProcess process)).events ∧
    (Configuration.announcedPlan (world.withProcess processWithPath)).result =
      (Configuration.announcedPlan (world.withProcess process)).result ∧
    (Configuration.announcedPlan (world.withProcess process)).result.isOk = true := by
  have hagrees : ∀ name, "cargo:rerun-if-env-changed=" ++ name ∈
      (Configuration.announcedPlan (world.withProcess process)).announcements →
      processWithPath name = process name := by
    intro name hname
    have hpath : "cargo:rerun-if-env-changed=" ++ "CUDA_PATH" ∉
        (Configuration.announcedPlan (world.withProcess process)).announcements := by
      decide +kernel
    refine if_neg ?_
    rintro rfl
    exact hpath hname
  obtain ⟨hevents, hresult⟩ :=
    Configuration.announcedPlan_congr world process processWithPath hagrees
  exact ⟨hagrees, hevents, hresult, by decide +kernel⟩

end Sample

end ExtensionPlan
