import ExtensionPlan.Proofs.Artifact.Growth
import ExtensionPlan.Proofs.FlagSet.Text

/-!
# ExtensionPlan.Proofs.Artifact.Flags

**The flags of an artifact.** They are those of the configuration, with what the tensor runtime and
the binding library ask for merged in behind them. Merging is a union in order, so the flags of an
artifact have all of that in them, and a configuration that begins with them leads to the same
artifact again (`Artifact.assemble_withFlags_compileFlags`).
-/

namespace ExtensionPlan

/-- The configuration with other flags to start from. -/
def Configuration.withFlags (c : Configuration) (flags : FlagSet) : Configuration :=
  { c with flags := flags }

namespace Artifact

/-- The flags that are asked for when the parts are assembled. -/
theorem compileFlags_of_assemble {c : Configuration} {t : Toolchain} {s : SourceSet} {w : World}
    {a : Artifact} (h : assemble c t s w = .ok a) :
    a.compileFlags = (c.flags.merge t.tensor.flags).merge t.binding.moduleFlags := by
  obtain ⟨-, dir, -, parent, -, bindings, -, rfl⟩ := assemble_eq_ok_iff.1 h
  rfl

/-- Of the flags to start from, nothing but the flags is assembled. -/
theorem assemble_withFlags (c : Configuration) (t : Toolchain) (s : SourceSet) (w : World)
    (flags : FlagSet) :
    assemble (c.withFlags flags) t s w =
      (fun a => { a with
        compileFlags := (flags.merge t.tensor.flags).merge t.binding.moduleFlags }) <$>
          assemble c t s w := by
  unfold assemble
  split
  · rfl
  · simp only [map_bind]
    rfl

/-- Flags that were merged in are there already. -/
theorem merge_compileFlags {c : Configuration} {t : Toolchain} {s : SourceSet} {w : World}
    {a : Artifact} (h : assemble c t s w = .ok a) :
    (a.compileFlags.merge t.tensor.flags).merge t.binding.moduleFlags = a.compileFlags := by
  have hflags := compileFlags_of_assemble h
  have htensor : a.compileFlags.merge t.tensor.flags = a.compileFlags := by
    refine FlagSet.merge_of_subset fun flag hflag => ?_
    rw [hflags, FlagSet.mem_merge_iff, FlagSet.mem_merge_iff]
    exact Or.inl (Or.inr hflag)
  have hmodule : a.compileFlags.merge t.binding.moduleFlags = a.compileFlags := by
    refine FlagSet.merge_of_subset fun flag hflag => ?_
    rw [hflags, FlagSet.mem_merge_iff]
    exact Or.inr hflag
  rw [htensor, hmodule]

/-- **Assembling again** from the flags of an artifact gives that artifact. -/
theorem assemble_withFlags_compileFlags {c : Configuration} {t : Toolchain} {s : SourceSet}
    {w : World} {a : Artifact} (h : assemble c t s w = .ok a) :
    assemble (c.withFlags a.compileFlags) t s w = .ok a := by
  rw [assemble_withFlags, h, merge_compileFlags h]
  rfl

/-- **Flags are ordered sets.** In whichever way flags are put together, none is empty and none is
there twice. Merging keeps the first set in front and puts behind it, in their order, those of the
second that are new; it is associative and has the set without flags as its unit, and merging what
is there already changes nothing. So assembling again from the flags of an artifact gives that
artifact, and fails where assembling failed. -/
theorem assemble_orderedFlags :
    ((∀ flags, (FlagSet.ofList flags).flags = (flags.filter (· ≠ "")).eraseDups) ∧
      (∀ text, (FlagSet.parse text).flags =
        ((Text.words text.toList).map String.ofList).eraseDups) ∧
      (∀ (a : FlagSet) flag, (a.insert flag).flags =
        if flag = "" ∨ flag ∈ a then a.flags else a.flags ++ [flag]) ∧
      ∀ a : FlagSet, "" ∉ a.flags ∧ a.flags.Nodup) ∧
    ((∀ a b : FlagSet, (a.merge b).flags = a.flags ++ b.flags.filter (· ∉ a)) ∧
      (∀ (a b : FlagSet) flag, flag ∈ a.merge b ↔ flag ∈ a ∨ flag ∈ b) ∧
      (∀ a b c : FlagSet, (a.merge b).merge c = a.merge (b.merge c)) ∧
      (∀ a : FlagSet, a.merge a = a ∧ a.merge ∅ = a ∧ (∅ : FlagSet).merge a = a) ∧
      ∀ a b : FlagSet, (a.merge b).merge a = a.merge b) ∧
    ∀ (c : Configuration) (t : Toolchain) (s : SourceSet) (w : World),
      (assemble c t s w >>= fun a => assemble (c.withFlags a.compileFlags) t s w) =
        assemble c t s w := by
  refine ⟨⟨FlagSet.flags_ofList, FlagSet.flags_parse, FlagSet.flags_insert_eq, ?_⟩,
    ⟨FlagSet.flags_merge, fun a b flag => FlagSet.mem_merge_iff, FlagSet.merge_assoc, ?_,
      FlagSet.merge_merge_left⟩, ?_⟩
  · intro a
    exact ⟨a.filled, a.nodup⟩
  · intro a
    exact ⟨FlagSet.merge_self a, FlagSet.merge_empty a, FlagSet.empty_merge a⟩
  · intro c t s w
    cases h : assemble c t s w with
    | error e => rfl
    | ok a => exact assemble_withFlags_compileFlags h

end Artifact

end ExtensionPlan
