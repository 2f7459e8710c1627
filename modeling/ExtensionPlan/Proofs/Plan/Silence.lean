import ExtensionPlan.Proofs.Plan.Trace

/-!
# ExtensionPlan.Proofs.Plan.Silence

**Planning in silence.** Only one reader tells the build tool what it reads. With another one a
configuration is read, a locator is chosen and asked, and a plan is made without a word to the build
tool (`Configuration.silent_plan`), since every later step reads as the configuration was read.
-/

namespace ExtensionPlan

/-- Whatever the surroundings, nothing is left that is told to the build tool. -/
def Run.Silent {ε α : Type} (m : Run ε α) : Prop := m.LeavesNo Event.announcement?

theorem announcement?_read {reader : Reader} (h : reader ≠ .announcing) (name : String) :
    Event.announcement? (.read reader name) = none := by
  cases reader with
  | announcing => exact absurd rfl h
  | table => rfl
  | process => rfl

theorem overhears_announcement? : Overhears Event.announcement? (· ≠ .announcing) where
  asked _ := rfl
  warned _ := rfl
  read _ hreader name _ := announcement?_read hreader name

namespace Configuration

theorem silent_read {reader : Reader} (hreader : reader ≠ .announcing) : (read reader).Silent :=
  leavesNo_read fun name _ => announcement?_read hreader name

variable {c : Configuration} (hc : c.reader ≠ .announcing)

include hc

theorem silent_resolve : c.resolve.Silent := leavesNo_resolve overhears_announcement? hc

/-- **Planning in silence.** -/
theorem silent_plan : c.plan.Silent := leavesNo_plan overhears_announcement? hc

end Configuration

end ExtensionPlan
