import ExtensionPlan.Proofs.Text.Lines
import Mathlib.Data.List.DropRight

/-!
# ExtensionPlan.Proofs.Text.LastLine

**The last line that is not blank.** It is said here by the characters alone: the text ends with the
line and with white space behind it, and between the break before it and the line there is nothing
but white space (`Text.IsLastLine`). A text has such a line exactly if not all of it is white space,
and there is only one, so this is the line that is found by cutting the text at the breaks, trimming
the pieces and taking the last that is not empty (`Text.getLast?_filledLines_eq_some_iff`).

Text in front of it that ends a line makes no difference to the last line
(`Text.getLast?_filledLines_append_newline`).
-/

namespace ExtensionPlan.Text

variable {cs line blank : List Char}

/-- Some character of the text is no white space. -/
def IsFilled (cs : List Char) : Prop := ∃ c ∈ cs, isBlank c = false

/-- White space is neither at the start of the text nor at its end. -/
structure IsTrimmed (cs : List Char) : Prop where
  first : ∀ c, cs.head? = some c → isBlank c = false
  last : ∀ c, cs.getLast? = some c → isBlank c = false

/-- `line` is the last line of the text that is not blank, without the white space around it. -/
structure IsLastLine (cs line : List Char) : Prop where
  filled : line ≠ []
  unbroken : '\n' ∉ line
  isTrimmed : IsTrimmed line
  /-- What is in front is whole lines and then white space in the line itself. -/
  placed : ∃ front left right, cs = front ++ (left ++ line) ++ right ∧
    (front = [] ∨ front.getLast? = some '\n') ∧ '\n' ∉ left ∧
    (∀ c ∈ left, isBlank c = true) ∧ ∀ c ∈ right, isBlank c = true

/-- A text that is not all white space has a line that is not. -/
theorem isFilled_iff_exists_piece :
    IsFilled cs ↔ ∃ raw ∈ pieces (· == '\n') cs, IsFilled raw := by
  have hmem : ∀ c, isBlank c = false → (c ∈ cs ↔ ∃ raw ∈ pieces (· == '\n') cs, c ∈ raw) := by
    intro c hfilled
    refine mem_iff_exists_piece (· == '\n') (beq_eq_false_iff_ne.2 ?_)
    rintro rfl
    cases hfilled
  constructor
  · rintro ⟨c, hc, hfilled⟩
    obtain ⟨raw, hraw, hcraw⟩ := (hmem c hfilled).1 hc
    exact ⟨raw, hraw, c, hcraw, hfilled⟩
  · rintro ⟨raw, hraw, c, hcraw, hfilled⟩
    exact ⟨c, (hmem c hfilled).2 ⟨raw, hraw, hcraw⟩, hfilled⟩

/-! ### Trimming -/

theorem trim_append_blank (hblank : ∀ c ∈ blank, isBlank c = true) (cs : List Char) :
    trim (cs ++ blank) = trim cs := by
  induction blank generalizing cs with
  | nil => rw [List.append_nil]
  | cons c blank ih =>
      rw [List.append_cons, ih fun d hd => hblank d (List.mem_cons_of_mem c hd),
        trim_concat (hblank c List.mem_cons_self)]

theorem trim_blank_append (hblank : ∀ c ∈ blank, isBlank c = true) (cs : List Char) :
    trim (blank ++ cs) = trim cs := by
  rw [trim, List.dropWhile_append_of_pos hblank]
  rfl

theorem IsTrimmed.trim_eq (h : IsTrimmed cs) : trim cs = cs := by
  have hfirst : cs.dropWhile isBlank = cs := by
    cases cs with
    | nil => rfl
    | cons c rest => rw [List.dropWhile_cons_of_neg (by simp [h.first c rfl])]
  have hlast : cs.rdropWhile isBlank = cs := by
    rw [List.rdropWhile_eq_self_iff]
    intro hne
    rw [h.last _ (List.getLast?_eq_some_getLast hne)]
    exact Bool.false_ne_true
  rw [trim, hfirst]
  exact hlast

/-! ### Finding the last line -/

/-- A text that is not all white space ends with a character that is none, and then white space. -/
theorem exists_core (h : IsFilled cs) : ∃ core right c, cs = core ++ right ∧
    core.getLast? = some c ∧ isBlank c = false ∧ ∀ d ∈ right, isBlank d = true := by
  have hne : cs.rdropWhile isBlank ≠ [] := by
    obtain ⟨c, hc, hfilled⟩ := h
    intro hnil
    rw [List.rdropWhile_eq_nil_iff.1 hnil c hc] at hfilled
    cases hfilled
  refine ⟨cs.rdropWhile isBlank, cs.rtakeWhile isBlank, _, ?_,
    List.getLast?_eq_some_getLast hne, ?_, fun d hd => List.mem_rtakeWhile_imp hd⟩
  · rw [List.rdropWhile_append_rtakeWhile]
  · exact Bool.eq_false_iff.2 (List.rdropWhile_last_not isBlank cs hne)

/-- Every text is whole lines and then one that has no end. -/
theorem exists_lines_append (cs : List Char) : ∃ front last, cs = front ++ last ∧
    (front = [] ∨ front.getLast? = some '\n') ∧ '\n' ∉ last := by
  refine ⟨cs.rdropWhile (· != '\n'), cs.rtakeWhile (· != '\n'), ?_, ?_, ?_⟩
  · rw [List.rdropWhile_append_rtakeWhile]
  · refine or_iff_not_imp_left.2 fun hne => ?_
    have hlast := List.rdropWhile_last_not (· != '\n') cs hne
    rw [List.getLast?_eq_some_getLast hne]
    simpa using hlast
  · intro hmem
    simpa using List.mem_rtakeWhile_imp hmem

theorem exists_isLastLine (h : IsFilled cs) : ∃ line, IsLastLine cs line := by
  obtain ⟨core, right, c, rfl, hcore, hc, hright⟩ := exists_core h
  obtain ⟨front, last, rfl, hfront, hlast⟩ := exists_lines_append core
  have hend : last.getLast? = some c := by
    cases last with
    | nil =>
        rw [List.append_nil] at hcore
        rcases hfront with rfl | hbreak
        · cases hcore
        · rw [hbreak, Option.some.injEq] at hcore
          subst hcore
          cases hc
    | cons d last => rwa [List.getLast?_append_of_ne_nil _ (List.cons_ne_nil d last)] at hcore
  have hsplit : last.takeWhile isBlank ++ last.dropWhile isBlank = last :=
    List.takeWhile_append_dropWhile
  have hfilled : last.dropWhile isBlank ≠ [] := by
    intro hnil
    rw [List.dropWhile_eq_nil_iff.1 hnil c (List.mem_of_getLast? hend)] at hc
    cases hc
  have hend' : (last.dropWhile isBlank).getLast? = some c := by
    rwa [← hsplit, List.getLast?_append_of_ne_nil _ hfilled] at hend
  refine ⟨last.dropWhile isBlank, hfilled, ?_, ⟨?_, ?_⟩, front, last.takeWhile isBlank, right,
    by rw [hsplit], hfront, ?_, fun d hd => List.mem_takeWhile_imp hd, hright⟩
  · exact fun hmem => hlast ((List.dropWhile_sublist isBlank).subset hmem)
  · intro d hd
    simpa [hd] using List.head?_dropWhile_not isBlank last
  · intro d hd
    rw [hend', Option.some.injEq] at hd
    rwa [← hd]
  · exact fun hmem => hlast ((List.takeWhile_sublist isBlank).subset hmem)

/-- What is said to be the last line is found by reading the lines. -/
theorem IsLastLine.getLast?_filledLines (h : IsLastLine cs line) :
    (filledLines cs).getLast? = some line := by
  obtain ⟨front, left, right, rfl, hfront, hleft, hblank, hright⟩ := h.placed
  have hraw : filledLines (left ++ line) = [line] := by
    have hbreak : '\n' ∉ left ++ line := by simp [hleft, h.unbroken]
    rw [filledLines, pieces_of_not_mem hbreak, List.map_singleton, trim_blank_append hblank,
      h.isTrimmed.trim_eq]
    simp [h.filled]
  rw [filledLines_append_blank hright]
  rcases hfront with rfl | hbreak
  · rw [List.nil_append, hraw]
    rfl
  · obtain ⟨before, rfl⟩ := List.getLast?_eq_some_iff.1 hbreak
    rw [List.append_assoc, List.singleton_append, filledLines_append_newline, hraw,
      List.getLast?_concat]

/-- **Reading the lines** finds the last one that is not blank, and nothing in a text without. -/
theorem getLast?_filledLines_eq_some_iff :
    (filledLines cs).getLast? = some line ↔ IsLastLine cs line := by
  refine ⟨fun h => ?_, IsLastLine.getLast?_filledLines⟩
  by_cases hfilled : IsFilled cs
  · obtain ⟨other, hother⟩ := exists_isLastLine hfilled
    rw [hother.getLast?_filledLines, Option.some.injEq] at h
    rwa [← h]
  · have hblank : ∀ c ∈ cs, isBlank c = true := by simpa [IsFilled] using hfilled
    rw [← List.nil_append cs, filledLines_append_blank hblank] at h
    cases h

/-- Whatever ends a line in front of the text, the last line of the text stays the last. -/
theorem getLast?_filledLines_append_newline (before : List Char) (h : IsFilled cs) :
    (filledLines (before ++ '\n' :: cs)).getLast? = (filledLines cs).getLast? := by
  obtain ⟨line, hline⟩ := exists_isLastLine h
  rw [filledLines_append_newline, List.getLast?_append, hline.getLast?_filledLines]
  rfl

end ExtensionPlan.Text
