import ExtensionPlan.FlagSet
import Mathlib.Data.List.Basic

/-!
# ExtensionPlan.Proofs.FlagSet

**Flags as ordered sets.** However flags are put together, it is done by `FlagSet.insert` along a
list, so one equation says what comes of all of them (`FlagSet.flags_foldl_insert`): what was there
stays in front, and behind it come the first occurrences of what is new. Merging is then a union in
that order (`FlagSet.flags_merge`), which is associative and has the set it begins with in front.

That flags are added one by one or as a set of their own makes no difference
(`FlagSet.foldl_insert_eq_merge`), so a list can be cut anywhere (`FlagSet.ofList_append`).
-/

namespace ExtensionPlan.FlagSet

variable {a b : FlagSet}

/-- Sets of the same flags in the same order are equal. -/
theorem ext_flags (h : a.flags = b.flags) : a = b := by
  cases a
  cases b
  cases h
  rfl

theorem mem_iff {flag : String} : flag ∈ a ↔ flag ∈ a.flags := Iff.rfl

theorem ne_empty_of_mem {flag : String} (h : flag ∈ a) : flag ≠ "" := by
  rintro rfl
  exact a.filled h

/-! ### Flags from a list -/

theorem flags_insert_eq (a : FlagSet) (flag : String) :
    (a.insert flag).flags = if flag = "" ∨ flag ∈ a then a.flags else a.flags ++ [flag] := by
  by_cases hold : flag = "" ∨ flag ∈ a
  · rw [if_pos hold]
    rcases hold with rfl | hmem
    · rw [insert_empty]
    · rw [insert_of_mem hmem]
  · rw [if_neg hold]
    obtain ⟨filled, new⟩ := not_or.1 hold
    exact flags_insert filled new

/-- What comes of a set when flags are added to it one after the other. -/
theorem flags_foldl_insert (set : FlagSet) (flags : List String) :
    (flags.foldl insert set).flags =
      set.flags ++ (flags.filter fun flag => flag ≠ "" ∧ flag ∉ set).eraseDups := by
  induction flags generalizing set with
  | nil => simp
  | cons flag flags ih =>
      rw [List.foldl_cons, ih]
      by_cases hnew : flag ≠ "" ∧ flag ∉ set
      · rw [flags_insert hnew.1 hnew.2, List.filter_cons_of_pos (by simpa using hnew),
          List.eraseDups_cons, List.filter_filter, List.append_assoc, List.singleton_append]
        congr 3
        refine List.filter_congr fun other _ => ?_
        -- `other` is new after `flag` if it is new before and not `flag` itself
        simp only [mem_iff, flags_insert hnew.1 hnew.2, List.mem_append, List.mem_singleton]
        by_cases hother : other = flag <;> simp [hother]
      · have hold : flag = "" ∨ flag ∈ set := by
          rwa [not_and_or, not_not, not_not] at hnew
        have hset : set.insert flag = set :=
          ext_flags (by rw [flags_insert_eq, if_pos hold])
        rw [hset, List.filter_cons_of_neg (by simpa using hnew)]

/-- A list becomes its first occurrences, less the empty flag. -/
theorem flags_ofList (flags : List String) :
    (ofList flags).flags = (flags.filter (· ≠ "")).eraseDups := by
  rw [ofList, flags_foldl_insert]
  simp [empty, mem_iff]

/-- A list in which nothing stands twice has first occurrences only. -/
theorem eraseDups_of_nodup {flags : List String} (h : flags.Nodup) : flags.eraseDups = flags := by
  induction flags with
  | nil => rfl
  | cons flag flags ih =>
      obtain ⟨hnew, hflags⟩ := List.nodup_cons.1 h
      have hkept : flags.filter (fun other => !other == flag) = flags := by
        refine List.filter_eq_self.2 fun other hother => ?_
        have hne : other ≠ flag := fun heq => hnew (heq ▸ hother)
        simpa using hne
      rw [List.eraseDups_cons, hkept, ih hflags]

/-- A set is built again from the list of its flags. -/
theorem ofList_flags (a : FlagSet) : ofList a.flags = a := by
  refine ext_flags ?_
  rw [flags_ofList, List.filter_eq_self.2 fun flag hflag => by simpa using ne_empty_of_mem hflag,
    eraseDups_of_nodup a.nodup]

/-! ### Merging -/

/-- **Merging is a union in order**: the flags of the first set, and behind them those of the second
that are new. -/
theorem flags_merge (a b : FlagSet) :
    (a.merge b).flags = a.flags ++ b.flags.filter (· ∉ a) := by
  have hfilled : b.flags.filter (fun flag => flag ≠ "" ∧ flag ∉ a) = b.flags.filter (· ∉ a) := by
    refine List.filter_congr fun flag hflag => ?_
    simp [ne_empty_of_mem hflag]
  rw [merge, flags_foldl_insert, hfilled, eraseDups_of_nodup (b.nodup.filter _)]

theorem mem_merge_iff {flag : String} : flag ∈ a.merge b ↔ flag ∈ a ∨ flag ∈ b := by
  simp only [mem_iff, flags_merge, List.mem_append, List.mem_filter, decide_eq_true_eq]
  tauto

/-- Merging flags that are there already changes nothing. -/
theorem merge_of_subset (h : ∀ flag ∈ b, flag ∈ a) : a.merge b = a := by
  refine ext_flags ?_
  rw [flags_merge, List.filter_eq_nil_iff.2 fun flag hflag => by simpa using h flag hflag,
    List.append_nil]

theorem merge_self (a : FlagSet) : a.merge a = a := merge_of_subset fun _ h => h

theorem merge_empty (a : FlagSet) : a.merge ∅ = a := merge_of_subset fun _ h => nomatch h

theorem empty_merge (a : FlagSet) : (∅ : FlagSet).merge a = a := ofList_flags a

theorem merge_merge_left (a b : FlagSet) : (a.merge b).merge a = a.merge b :=
  merge_of_subset fun _ h => mem_merge_iff.2 (Or.inl h)

/-- What is new to two sets together is what is new to the one and to the other. -/
theorem merge_assoc (a b c : FlagSet) : (a.merge b).merge c = a.merge (b.merge c) := by
  refine ext_flags ?_
  simp only [flags_merge, List.append_assoc, List.filter_append, List.filter_filter]
  congr 2
  refine List.filter_congr fun flag _ => ?_
  simp [mem_merge_iff]

/-! ### Adding flags one by one -/

theorem insert_eq_merge (a : FlagSet) (flag : String) :
    a.insert flag = a.merge ((∅ : FlagSet).insert flag) := by
  by_cases hempty : flag = ""
  · rw [hempty, insert_empty, insert_empty, merge_empty]
  · have hflag : ((∅ : FlagSet).insert flag).flags = [flag] := flags_insert hempty List.not_mem_nil
    rw [merge, hflag]
    rfl

/-- Flags are added one by one as they are as a set. -/
theorem foldl_insert_eq_merge (a : FlagSet) (flags : List String) :
    flags.foldl insert a = a.merge (ofList flags) := by
  induction flags generalizing a with
  | nil => exact (merge_empty a).symm
  | cons flag flags ih =>
      have hlist : ofList (flag :: flags) = ((∅ : FlagSet).insert flag).merge (ofList flags) :=
        ih _
      rw [List.foldl_cons, ih, hlist, insert_eq_merge, merge_assoc]

/-- A list can be cut anywhere. -/
theorem ofList_append (front back : List String) :
    ofList (front ++ back) = (ofList front).merge (ofList back) := by
  rw [ofList, List.foldl_append, foldl_insert_eq_merge]
  rfl

end ExtensionPlan.FlagSet
