import ExtensionPlan.Text.Blank

/-!
# Compiler flags

Flags are kept in the order in which they first came, none of them empty and none twice. That is
part of the type, so merging the same flags again can change nothing.

`FlagSet.parse` reads the flags between white space and `FlagSet.text` writes them with single
spaces.
-/

namespace ExtensionPlan

/-- Distinct compiler flags in the order of their first occurrence. -/
structure FlagSet where
  flags : List String
  nodup : flags.Nodup
  filled : "" ∉ flags
  deriving DecidableEq, Repr

namespace FlagSet

/-- No flags. -/
def empty : FlagSet := ⟨[], by simp, by simp⟩

instance : Inhabited FlagSet := ⟨empty⟩

instance : EmptyCollection FlagSet := ⟨empty⟩

instance : Membership String FlagSet := ⟨fun set flag => flag ∈ set.flags⟩

instance (set : FlagSet) (flag : String) : Decidable (flag ∈ set) :=
  inferInstanceAs (Decidable (flag ∈ set.flags))

/-- The set with the flag at the end, unless it is empty or there already. -/
def insert (set : FlagSet) (flag : String) : FlagSet :=
  if h : flag = "" ∨ flag ∈ set.flags then set
  else
    { flags := set.flags ++ [flag]
      nodup := by
        rw [List.nodup_append]
        refine ⟨set.nodup, by simp, fun a ha b hb hab => h (.inr ?_)⟩
        rw [List.mem_singleton] at hb
        rwa [← hb, ← hab]
      filled := by
        simp only [List.mem_append, List.mem_singleton, not_or]
        exact ⟨set.filled, fun he => h (.inl he.symm)⟩ }

/-- The flags of the first set, then those of the second that are new. -/
def merge (set other : FlagSet) : FlagSet := other.flags.foldl insert set

/-- The flags of a list, in its order. -/
def ofList (flags : List String) : FlagSet := flags.foldl insert empty

/-- The flags that stand between white space. -/
def parse (text : String) : FlagSet := ofList ((Text.words text.toList).map .ofList)

/-- The flags with a space between each two. -/
def text (set : FlagSet) : String := " ".intercalate set.flags

theorem insert_of_mem {set : FlagSet} {flag : String} (h : flag ∈ set) :
    set.insert flag = set := dif_pos (.inr h)

theorem insert_empty (set : FlagSet) : set.insert "" = set := dif_pos (.inl rfl)

theorem flags_insert {set : FlagSet} {flag : String} (filled : flag ≠ "") (new : flag ∉ set) :
    (set.insert flag).flags = set.flags ++ [flag] := by
  rw [insert, dif_neg]
  rintro (h | h)
  · exact filled h
  · exact new h

end FlagSet

end ExtensionPlan
