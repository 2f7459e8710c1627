import ExtensionPlan.Text.Blank

/-!
# ExtensionPlan.Proofs.Text.Words

**Words.** A word is not empty and has no white space in it, and any such text is read as one word.
White space between two texts separates their words, so words that are written with a space between
each two are read back (`Text.words_intercalate`).
-/

namespace ExtensionPlan.Text

/-- The text is read as one word wherever it stands between white space. -/
structure IsWord (word : List Char) : Prop where
  filled : word ≠ []
  unbroken : ∀ c ∈ word, isBlank c = false

theorem isWord_of_mem_words {cs word : List Char} (h : word ∈ words cs) : IsWord word := by
  obtain ⟨hpiece, hfilled⟩ := List.mem_filter.1 h
  exact ⟨by simpa using hfilled, not_isSeparator_of_mem_pieces hpiece⟩

theorem words_of_isWord {word : List Char} (h : IsWord word) : words word = [word] := by
  rw [words, pieces_of_forall_not h.unbroken]
  simp [h.filled]

/-- White space in front of a text belongs to no word. -/
theorem words_blank_append {blank : List Char} (h : ∀ c ∈ blank, isBlank c = true)
    (cs : List Char) : words (blank ++ cs) = words cs := by
  induction blank with
  | nil => rfl
  | cons c blank ih =>
      have hfirst := words_append_cons (h c List.mem_cons_self) [] (blank ++ cs)
      exact hfirst.trans (ih fun d hd => h d (List.mem_cons_of_mem c hd))

/-- **White space separates words**, one character of it or many. -/
theorem words_append_blank_append {blank : List Char} (filled : blank ≠ [])
    (h : ∀ c ∈ blank, isBlank c = true) (before after : List Char) :
    words (before ++ blank ++ after) = words before ++ words after := by
  obtain ⟨c, rest, rfl⟩ := List.exists_cons_of_ne_nil filled
  rw [List.append_assoc, List.cons_append, words_append_cons (h c List.mem_cons_self),
    words_blank_append fun d hd => h d (List.mem_cons_of_mem c hd)]

/-- Words with a space between each two are read back. -/
theorem words_intercalate {ws : List (List Char)} (h : ∀ word ∈ ws, IsWord word) :
    words ([' '].intercalate ws) = ws := by
  induction ws with
  | nil => rfl
  | cons word ws ih =>
      have hword := h word List.mem_cons_self
      cases ws with
      | nil => rw [List.intercalate_singleton, words_of_isWord hword]
      | cons next ws =>
          have hrest := ih fun other hother => h other (List.mem_cons_of_mem word hother)
          rw [List.intercalate_cons_cons,
            words_append_blank_append (List.cons_ne_nil ' ' []) (by simp [isBlank]), hrest,
            words_of_isWord hword, List.singleton_append]

end ExtensionPlan.Text
