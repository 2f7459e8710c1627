import ExtensionPlan.Proofs.FlagSet
import ExtensionPlan.Proofs.Text.Words

/-!
# ExtensionPlan.Proofs.FlagSet.Text

**Flags as text.** A set is written with spaces between its flags, and reading it again gives the
same set exactly if each flag is a word (`FlagSet.parse_text_iff`). The sets of words are those that
come from texts, by reading and merging in any combination (`FlagSet.isParsed_iff`). Any other way
of adding a flag may put white space into one, and such a flag falls apart when it is read.

Reading two texts with white space between them is reading both and merging what they give
(`FlagSet.parse_append`), since a list of flags can be cut anywhere.
-/

namespace ExtensionPlan.FlagSet

variable {a b : FlagSet}

/-- The set came from texts, by reading them and merging what they gave. -/
inductive IsParsed : FlagSet → Prop
  | parse (text : String) : IsParsed (.parse text)
  | merge {a b : FlagSet} : IsParsed a → IsParsed b → IsParsed (a.merge b)

/-- Each flag of the set can stand between white space. -/
def AreWords (a : FlagSet) : Prop := ∀ flag ∈ a, Text.IsWord flag.toList

/-- A text becomes the first occurrences of its words. -/
theorem flags_parse (text : String) :
    (parse text).flags = ((Text.words text.toList).map String.ofList).eraseDups := by
  have hfilled : ∀ flag ∈ (Text.words text.toList).map String.ofList, flag ≠ "" := by
    intro flag hflag
    obtain ⟨word, hword, rfl⟩ := List.mem_map.1 hflag
    simpa using (Text.isWord_of_mem_words hword).filled
  rw [parse, flags_ofList,
    List.filter_eq_self.2 fun flag hflag => by simpa using hfilled flag hflag]

theorem areWords_parse (text : String) : (parse text).AreWords := by
  intro flag hflag
  rw [mem_iff, flags_parse, List.mem_eraseDups, List.mem_map] at hflag
  obtain ⟨word, hword, rfl⟩ := hflag
  rw [String.toList_ofList]
  exact Text.isWord_of_mem_words hword

theorem AreWords.merge (ha : a.AreWords) (hb : b.AreWords) : (a.merge b).AreWords := by
  intro flag hflag
  rcases mem_merge_iff.1 hflag with hflag | hflag
  · exact ha flag hflag
  · exact hb flag hflag

theorem IsParsed.areWords (h : a.IsParsed) : a.AreWords := by
  induction h with
  | parse text => exact areWords_parse text
  | merge _ _ iha ihb => exact iha.merge ihb

/-- Words that were written are read again. -/
theorem AreWords.parse_text (h : a.AreWords) : parse a.text = a := by
  have hwords : ∀ word ∈ a.flags.map String.toList, Text.IsWord word := by
    intro word hword
    obtain ⟨flag, hflag, rfl⟩ := List.mem_map.1 hword
    exact h flag hflag
  have htext : a.text.toList = [' '].intercalate (a.flags.map String.toList) :=
    String.toList_intercalate
  rw [parse, htext, Text.words_intercalate hwords, List.map_map]
  simp only [Function.comp_def, String.ofList_toList, List.map_id', ofList_flags]

/-- **Printing and reading** gives the set back exactly if its flags are words. -/
theorem parse_text_iff : parse a.text = a ↔ a.AreWords := by
  constructor
  · intro h
    rw [← h]
    exact areWords_parse a.text
  · exact AreWords.parse_text

/-- The sets of words are those that come from texts. -/
theorem isParsed_iff : a.IsParsed ↔ a.AreWords := by
  constructor
  · exact IsParsed.areWords
  · intro h
    rw [← h.parse_text]
    exact .parse a.text

/-- **Reading texts one after the other** is reading each and merging. -/
theorem parse_append {blank : String} (filled : blank ≠ "")
    (h : ∀ c ∈ blank.toList, Text.isBlank c = true) (before after : String) :
    parse (before ++ blank ++ after) = (parse before).merge (parse after) := by
  have hne : blank.toList ≠ [] := fun hnil => filled (String.toList_eq_nil_iff.1 hnil)
  rw [parse, String.toList_append, String.toList_append,
    Text.words_append_blank_append hne h, List.map_append, ofList_append]
  rfl

/-- **Flags as text.** What is printed is read again as the same set exactly for the sets that come
from texts by reading and merging, and texts with white space between them are read as the union of
what each of them gives. -/
theorem parse_faithful :
    (∀ a : FlagSet, parse a.text = a ↔ a.IsParsed) ∧
    ∀ before blank after : String, blank ≠ "" → (∀ c ∈ blank.toList, Text.isBlank c = true) →
      parse (before ++ blank ++ after) = (parse before).merge (parse after) := by
  constructor
  · intro a
    rw [parse_text_iff, isParsed_iff]
  · intro before blank after filled h
    exact parse_append filled h before after

/-- Flags that stand on both sides of the seam are kept once, where they came first. -/
theorem parse_faithful_seam :
    ((parse "-g -O2").merge (parse "-fPIC -g")).IsParsed ∧
    parse ((parse "-g -O2").merge (parse "-fPIC -g")).text =
      (parse "-g -O2").merge (parse "-fPIC -g") ∧
    "\n\u3000" ≠ "" ∧ (∀ c ∈ "\n\u3000".toList, Text.isBlank c = true) ∧
    parse (" -g -O2" ++ "\n\u3000" ++ "-fPIC\t-g") = (parse " -g -O2").merge (parse "-fPIC\t-g") ∧
    (parse (" -g -O2" ++ "\n\u3000" ++ "-fPIC\t-g")).flags = ["-g", "-O2", "-fPIC"] := by
  have hparsed : ((parse "-g -O2").merge (parse "-fPIC -g")).IsParsed :=
    .merge (.parse _) (.parse _)
  have hblank : ∀ c ∈ "\n\u3000".toList, Text.isBlank c = true := List.all_eq_true.1 (by decide)
  exact ⟨hparsed, (parse_faithful.1 _).2 hparsed, by decide, hblank,
    parse_faithful.2 _ _ _ (by decide) hblank, by decide +kernel⟩

/-- A flag with a space in it was not read from a text, and is not read again. -/
example : parse ((∅ : FlagSet).insert "-D X").text ≠ (∅ : FlagSet).insert "-D X" := by decide

end ExtensionPlan.FlagSet
