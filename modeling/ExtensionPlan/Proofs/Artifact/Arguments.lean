import ExtensionPlan.Artifact.Compilation
import ExtensionPlan.Proofs.Artifact.Flags
import ExtensionPlan.Proofs.Configuration.Reading
import ExtensionPlan.Proofs.Plan.Directives

/-!
# ExtensionPlan.Proofs.Artifact.Arguments

**Options and their arguments.** Some options of a compiler take the word behind them as their
argument. Flags are kept word by word, each where it first came, so an option may lose its argument
to an earlier one. `FlagSet.IsNextNew` says when it does not: behind the first occurrence of the
option, the argument is the first word that has not come by then
(`FlagSet.pair_infix_eraseDups_iff`).

What is merged in is put behind all words of the configuration, so it can neither part such a pair
nor bring one together (`FlagSet.pair_infix_merge_iff`), and the condition on the words alone
decides what the compiler sees (`Artifact.pair_infix_flags_iff`).
-/

namespace ExtensionPlan

namespace FlagSet

variable {option argument : String}

/-- The words of a text, in its order and as often as they stand there. -/
def wordsOf (text : String) : List String := (Text.words text.toList).map String.ofList

/-- The options that take the word behind them as their argument. -/
def argumentOptions : List String := ["-I", "-D", "-U", "-isystem", "-include"]

/-- Wherever an option with an argument stands among the words, it stands before that argument
somewhere among the flags. -/
def KeepsArguments (words flags : List String) : Prop :=
  ∀ option ∈ argumentOptions, ∀ argument,
    [option, argument] <:+: words → [option, argument] <:+: flags

/-- Behind the first occurrence of the option, the argument is the first word that has not come by
then. -/
def IsNextNew (option argument : String) (words : List String) : Prop :=
  ∃ before between after, words = before ++ option :: (between ++ argument :: after) ∧
    option ∉ before ∧ argument ∉ option :: before ∧ ∀ word ∈ between, word ∈ option :: before

/-! ### Neighbours among first occurrences -/

/-- There is only one first occurrence. -/
theorem first_occurrence_unique {before after before' after' : List String}
    (h : option ∉ before) (h' : option ∉ before')
    (heq : before ++ option :: after = before' ++ option :: after') :
    before = before' ∧ after = after' := by
  -- what stands before a first occurrence is the longest stretch without the option
  have hfound : ∀ front back : List String, option ∉ front →
      (front ++ option :: back).takeWhile (· ≠ option) = front := by
    intro front back hfront
    rw [List.takeWhile_append_of_pos, List.takeWhile_cons_of_neg (by simp), List.append_nil]
    intro word hword
    have hne : word ≠ option := fun heq => hfront (heq ▸ hword)
    simpa using hne
  have hfront : before = before' := by
    rw [← hfound before after h, heq, hfound before' after' h']
  subst hfront
  exact ⟨rfl, by simpa using heq⟩

/-- What stands behind the only occurrence of an option. -/
theorem pair_infix_append_cons_iff {before after : List String} (hbefore : option ∉ before)
    (hafter : option ∉ after) :
    [option, argument] <:+: before ++ option :: after ↔ after.head? = some argument := by
  rw [List.head?_eq_some_iff]
  constructor
  · intro ⟨front, back, heq⟩
    rw [List.append_assoc, eq_comm] at heq
    obtain ⟨-, -, rfl⟩ := (List.append_cons_inj_of_notMem hbefore hafter).1 heq
    exact ⟨back, rfl⟩
  · intro ⟨back, hback⟩
    exact ⟨before, back, by simp [hback]⟩

/-- The first occurrences, as the first occurrence of an option divides them. -/
theorem eraseDups_append_cons {before after : List String} (h : option ∉ before) :
    (before ++ option :: after).eraseDups =
      before.eraseDups ++ option :: (after.filter (· ∉ option :: before)).eraseDups := by
  -- what stands behind loses the words that came before, and then the option itself
  have hnew : (option :: after).removeAll before =
      option :: after.filter (fun word => !before.elem word) := by
    rw [List.removeAll, List.filter_cons_of_pos (by simpa using h)]
  have hfilter : (after.filter fun word => !before.elem word).filter (fun word => !word == option) =
      after.filter (· ∉ option :: before) := by
    rw [List.filter_filter]
    refine List.filter_congr fun word _ => ?_
    by_cases hword : word = option <;> simp [hword]
  rw [List.eraseDups_append, hnew, List.eraseDups_cons, hfilter]

theorem head?_eraseDups (words : List String) : words.eraseDups.head? = words.head? := by
  cases words with
  | nil => rfl
  | cons word words => rw [List.eraseDups_cons, List.head?_cons, List.head?_cons]

/-- The first word that is new is the one that `IsNextNew` speaks of. -/
theorem head?_filter_eq_some_iff {before after : List String} (h : option ∉ before) :
    (after.filter (· ∉ option :: before)).head? = some argument ↔
      IsNextNew option argument (before ++ option :: after) := by
  rw [List.head?_filter, List.find?_eq_some_iff_append]
  constructor
  · rintro ⟨hnew, between, back, rfl, hbetween⟩
    refine ⟨before, between, back, rfl, h, by simpa using hnew, fun word hword => ?_⟩
    simpa using hbetween word hword
  · intro ⟨before', between, back, heq, hbefore', hnew, hbetween⟩
    obtain ⟨rfl, rfl⟩ := first_occurrence_unique h hbefore' heq
    exact ⟨by simpa using hnew, between, back, rfl, by simpa using hbetween⟩

/-- **An option keeps its argument** among the first occurrences exactly if that is the next word to
be new. -/
theorem pair_infix_eraseDups_iff {words : List String} (hmem : option ∈ words) :
    [option, argument] <:+: words.eraseDups ↔ IsNextNew option argument words := by
  obtain ⟨before, after, rfl, hbefore⟩ := List.eq_append_cons_of_mem hmem
  rw [eraseDups_append_cons hbefore, pair_infix_append_cons_iff, head?_eraseDups,
    head?_filter_eq_some_iff hbefore]
  · rwa [List.mem_eraseDups]
  · simp

/-- Nothing that is put behind distinct words parts two of them or brings them together. -/
theorem pair_infix_merge_iff {a b : FlagSet} (h : argument ∈ a) :
    [option, argument] <:+: (a.merge b).flags ↔ [option, argument] <:+: a.flags := by
  have hdisjoint : argument ∉ b.flags.filter (· ∉ a) := by
    simpa using fun _ => h
  rw [flags_merge, List.infix_append_iff]
  constructor
  · rintro (hleft | hright | ⟨front, back, heq, hfront, hback⟩)
    · exact hleft
    · exact absurd (hright.subset (by simp)) hdisjoint
    · -- the argument would be the last of what stands behind
      have hnil : back = [] := by
        by_contra hne
        have hlast : some argument = back.getLast? := by
          rw [← List.getLast?_append_of_ne_nil front hne, ← heq]
          rfl
        exact hdisjoint (hback.subset (List.mem_of_getLast? hlast.symm))
      rw [hnil, List.append_nil] at heq
      exact heq ▸ hfront.isInfix
  · exact Or.inl

end FlagSet

/-! ### What the compiler sees -/

namespace Configuration

variable {reader : Reader} {w : World} {c : Configuration}

/-- The flags of a configuration are the words of their variable. -/
theorem flags_of_read {text : String} (h : (read reader w).result = .ok c)
    (hvalue : w.value? reader Setting.flags.key = some text) : c.flags = FlagSet.parse text := by
  obtain ⟨dir, -, strict, -, aot, -, locator, -, rfl⟩ := read_eq_ok_iff.1 h
  by_cases hempty : text = ""
  · have hunset : w.filled? reader Setting.flags.key = none := by
      simp [World.filled?, hvalue, hempty]
    simp only [ofParts, hunset, Option.map_none, Option.getD_none, hempty]
    rfl
  · have hfilled : w.filled? reader Setting.flags.key = some text := by
      simp [World.filled?, hvalue, hempty]
    simp only [ofParts, hfilled, Option.map_some, Option.getD_some]

end Configuration

namespace Artifact

open FlagSet

variable {reader : Reader} {w w' : World} {c : Configuration} {t : Toolchain} {s : SourceSet}
  {a : Artifact} {text option argument : String}

/-- **An option keeps its argument** exactly if the argument is the first word behind the first
occurrence of the option that has not come by then, whatever the tensor runtime and the binding
library ask for. -/
theorem pair_infix_flags_iff (hread : (Configuration.read reader w).result = .ok c)
    (hvalue : w.value? reader "CXXFLAGS" = some text) (ha : assemble c t s w' = .ok a)
    (hpair : [option, argument] <:+: wordsOf text) :
    ([option, argument] <:+: a.compileFlags.flags ↔ IsNextNew option argument (wordsOf text)) ∧
    ([option, argument] <:+: a.hostCompilation.flags ↔
      IsNextNew option argument (wordsOf text)) := by
  have hparse : c.flags = parse text := Configuration.flags_of_read hread hvalue
  have hargument : argument ∈ c.flags := by
    rw [hparse, mem_iff, flags_parse, List.mem_eraseDups]
    exact hpair.subset (by simp)
  -- both merges put flags behind the argument, so its own words decide
  have hflags : [option, argument] <:+: a.compileFlags.flags ↔
      IsNextNew option argument (wordsOf text) := by
    rw [compileFlags_of_assemble ha, pair_infix_merge_iff (mem_merge_iff.2 (Or.inl hargument)),
      pair_infix_merge_iff hargument, hparse, flags_parse]
    exact pair_infix_eraseDups_iff (hpair.subset (by simp))
  exact ⟨hflags, hflags⟩

end Artifact

/-! ### An option that is given twice -/

namespace Sample

/-- The installation, with flags in the table. -/
def flaggedWorld (flags : String) : World :=
  { world with
    table := fun name =>
      [("EXT_SOURCE_DIR", "/s"), ("CUDA_HOME", "/c"), ("CXXFLAGS", flags)].lookup name }

theorem wordsOf_repeated : FlagSet.wordsOf "-I a -I b" = ["-I", "a", "-I", "b"] := by
  decide +kernel

/-- From the second time on, an option is dropped and its argument is not. -/
theorem exists_flagged_artifact :
    ∃ c, (Configuration.read .table (flaggedWorld "-I a -I b")).result = .ok c ∧
      ∃ t s a, Artifact.assemble c t s (flaggedWorld "-I a -I b") = .ok a ∧
        a.compileFlags.flags = ["-I", "a", "b", "-fvisibility=hidden"] := by
  have h : ((Configuration.read .table (flaggedWorld "-I a -I b")).result >>= fun c =>
      (c.planWith locator (flaggedWorld "-I a -I b")).result.map
        fun a => (c.aot, a.compileFlags.flags)).toOption =
      some (.disabled, ["-I", "a", "b", "-fvisibility=hidden"]) := by
    decide +kernel
  obtain ⟨c, hc, hplan⟩ := bind_eq_ok_iff.1 (toOption_eq_some_iff.1 h)
  obtain ⟨b, hb, heq⟩ := map_eq_ok_iff.1 hplan
  obtain ⟨haot, hflags⟩ := Prod.mk.inj heq
  obtain ⟨t, -, s, -, a, ha, hdisabled, -⟩ := Configuration.planWith_eq_ok_iff.1 hb
  obtain rfl := hdisabled haot
  exact ⟨c, hc, t, s, b, ha, hflags⟩

/-- The second argument is left without its option. -/
theorem not_keepsArguments :
    ∃ c, (Configuration.read .table (flaggedWorld "-I a -I b")).result = .ok c ∧
      ∃ t s a, Artifact.assemble c t s (flaggedWorld "-I a -I b") = .ok a ∧
        ¬ FlagSet.KeepsArguments (FlagSet.wordsOf "-I a -I b") a.compileFlags.flags ∧
        ¬ FlagSet.KeepsArguments (FlagSet.wordsOf "-I a -I b") a.hostCompilation.flags := by
  obtain ⟨c, hc, t, s, a, ha, hflags⟩ := exists_flagged_artifact
  have hlost : ¬ FlagSet.KeepsArguments (FlagSet.wordsOf "-I a -I b") a.compileFlags.flags := by
    intro h
    rw [wordsOf_repeated, hflags] at h
    have hkept := h "-I" (by decide) "b" (by decide)
    exact absurd hkept (by decide)
  exact ⟨c, hc, t, s, a, ha, hlost, hlost⟩

/-- The first argument keeps its option, for it is new where it stands. -/
theorem pair_infix_flags_iff_first :
    ∃ c, (Configuration.read .table (flaggedWorld "-I a -I b")).result = .ok c ∧
      ∃ t s a, Artifact.assemble c t s (flaggedWorld "-I a -I b") = .ok a ∧
        ["-I", "a"] <:+: a.compileFlags.flags ∧ ["-I", "a"] <:+: a.hostCompilation.flags := by
  obtain ⟨c, hc, t, s, a, ha, -⟩ := exists_flagged_artifact
  have hvalue : (flaggedWorld "-I a -I b").value? .table "CXXFLAGS" = some "-I a -I b" := by
    decide
  have hpair : ["-I", "a"] <:+: FlagSet.wordsOf "-I a -I b" := by
    rw [wordsOf_repeated]
    decide
  obtain ⟨hflags, hhost⟩ := Artifact.pair_infix_flags_iff hc hvalue ha hpair
  have hnew : FlagSet.IsNextNew "-I" "a" (FlagSet.wordsOf "-I a -I b") :=
    ⟨[], [], ["-I", "b"], wordsOf_repeated, by decide, by decide, by decide⟩
  exact ⟨c, hc, t, s, a, ha, hflags.2 hnew, hhost.2 hnew⟩

end Sample

end ExtensionPlan
