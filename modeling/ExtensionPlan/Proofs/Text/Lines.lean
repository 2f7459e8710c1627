import ExtensionPlan.Text.Blank

/-!
# ExtensionPlan.Proofs.Text.Lines

**Reading lines back.** Lines that are written with a break after each are read back as they were
exactly if there is no break inside one of them (`Text.pieces_lines_iff`). What a text has at the
start of a line, it has at its own start or after a break (`Text.exists_piece_iff`).

**The last line that is not blank.** White space at the end of a text makes no difference to its
filled lines, and the lines of two texts with a line break between them are those of the one and
those of the other. So whatever lines stand before it, a line that is written last is read last
(`Text.getLast?_filledLines`).
-/

namespace ExtensionPlan.Text

/-! ### Reading lines back -/

/-- A break ends a line, and nothing follows the last. -/
theorem pieces_lines (lines : List (List Char)) :
    pieces (· == '\n') (lines.flatMap (· ++ ['\n'])) =
      lines.flatMap (pieces (· == '\n')) ++ [[]] := by
  induction lines with
  | nil => rfl
  | cons line lines ih =>
      rw [List.flatMap_cons, List.append_assoc, List.singleton_append, pieces_append_cons rfl, ih,
        List.flatMap_cons, List.append_assoc]

/-- **Lines are read back** as they were written exactly if none of them has a break inside. -/
theorem pieces_lines_iff (lines : List (List Char)) :
    pieces (· == '\n') (lines.flatMap (· ++ ['\n'])) = lines ++ [[]] ↔
      ∀ line ∈ lines, '\n' ∉ line := by
  rw [pieces_lines, List.append_left_inj]
  constructor
  · intro h line hline hbreak
    rw [← h] at hline
    obtain ⟨other, -, hpiece⟩ := List.mem_flatMap.1 hline
    have hnot := not_isSeparator_of_mem_pieces hpiece '\n' hbreak
    cases hnot
  · intro h
    induction lines with
    | nil => rfl
    | cons line lines ih =>
        rw [List.flatMap_cons, pieces_of_not_mem (h line List.mem_cons_self),
          ih fun other hother => h other (List.mem_cons_of_mem line hother)]
        rfl

/-- A character that separates nothing is in one of the pieces. -/
theorem mem_iff_exists_piece (isSeparator : Char → Bool) {c : Char}
    (hc : isSeparator c = false) {cs : List Char} :
    c ∈ cs ↔ ∃ piece ∈ pieces isSeparator cs, c ∈ piece := by
  induction cs with
  | nil => simp [pieces]
  | cons d cs ih =>
      rw [List.mem_cons, ih, pieces]
      split
      · next hd =>
        have hne : c ≠ d := fun heq => by simp [← heq, hc] at hd
        simp [hne]
      · obtain ⟨first, others, hpieces⟩ :=
          List.exists_cons_of_ne_nil (pieces_ne_nil isSeparator cs)
        rw [hpieces]
        simp [or_assoc]

/-- A character that is no separator goes to the first piece. -/
theorem exists_pieces_cons (isSeparator : Char → Bool) {c : Char} (hc : isSeparator c = false)
    (cs : List Char) : ∃ first others, pieces isSeparator cs = first :: others ∧
      pieces isSeparator (c :: cs) = (c :: first) :: others := by
  obtain ⟨first, others, hcs⟩ := List.exists_cons_of_ne_nil (pieces_ne_nil isSeparator cs)
  exact ⟨first, others, hcs, by simp [pieces, hc, hcs]⟩

/-- The first line goes as far as there is no break. -/
theorem prefix_first_iff {start first : List Char} {others : List (List Char)}
    (hstart : '\n' ∉ start) {cs : List Char} (h : pieces (· == '\n') cs = first :: others) :
    start <+: first ↔ start <+: cs := by
  induction cs generalizing start first with
  | nil =>
      cases h
      rfl
  | cons c cs ih =>
      cases start with
      | nil => simp
      | cons d start =>
          have hd : '\n' ≠ d := fun hd => hstart (hd ▸ List.mem_cons_self)
          by_cases hc : c = '\n'
          · subst hc
            cases h
            simp [List.cons_prefix_cons, hd.symm]
          · obtain ⟨first', others', hcs, hcons⟩ :=
              exists_pieces_cons (· == '\n') (beq_eq_false_iff_ne.2 hc) cs
            rw [hcons] at h
            cases h
            rw [List.cons_prefix_cons, List.cons_prefix_cons,
              ih (fun hmem => hstart (List.mem_cons_of_mem d hmem)) hcs]

/-- The other lines come after a break. -/
theorem exists_other_iff {start first : List Char} {others : List (List Char)}
    (hstart : '\n' ∉ start) {cs : List Char} (h : pieces (· == '\n') cs = first :: others) :
    (∃ line ∈ others, start <+: line) ↔ '\n' :: start <:+: cs := by
  induction cs generalizing first others with
  | nil =>
      cases h
      simp
  | cons c cs ih =>
      rw [List.infix_cons_iff, List.cons_prefix_cons]
      by_cases hc : c = '\n'
      · subst hc
        obtain ⟨first', others', hcs⟩ :=
          List.exists_cons_of_ne_nil (pieces_ne_nil (· == '\n') cs)
        have hcons : pieces (· == '\n') ('\n' :: cs) = [] :: first' :: others' := by
          simp [pieces, hcs]
        rw [hcons] at h
        cases h
        simp only [List.mem_cons, exists_eq_or_imp, ih hcs, prefix_first_iff hstart hcs, true_and]
      · obtain ⟨first', others', hcs, hcons⟩ :=
          exists_pieces_cons (· == '\n') (beq_eq_false_iff_ne.2 hc) cs
        rw [hcons] at h
        cases h
        rw [ih hcs]
        simp [Ne.symm hc]

/-- A break is not in what has none. -/
theorem break_infix_append_iff {start front : List Char} (hfront : '\n' ∉ front)
    (cs : List Char) : '\n' :: start <:+: front ++ cs ↔ '\n' :: start <:+: cs := by
  induction front with
  | nil => rfl
  | cons c front ih =>
      have hc : '\n' ≠ c := fun hc => hfront (hc ▸ List.mem_cons_self)
      rw [List.cons_append, List.infix_cons_iff, List.cons_prefix_cons,
        ih fun hmem => hfront (List.mem_cons_of_mem c hmem)]
      exact or_iff_right fun hprefix => hc hprefix.1

/-- What begins a line begins the text or comes after a break. -/
theorem exists_piece_iff {start : List Char} (hstart : '\n' ∉ start) (cs : List Char) :
    (∃ line ∈ pieces (· == '\n') cs, start <+: line) ↔
      start <+: cs ∨ '\n' :: start <:+: cs := by
  obtain ⟨first, others, hcs⟩ := List.exists_cons_of_ne_nil (pieces_ne_nil (· == '\n') cs)
  simp only [hcs, List.mem_cons, exists_eq_or_imp, prefix_first_iff hstart hcs,
    exists_other_iff hstart hcs]

/-! ### A character at the end -/

/-- A character that is no separator goes to the last piece. -/
theorem exists_pieces_concat (isSeparator : Char → Bool) {c : Char} (hc : isSeparator c = false)
    (cs : List Char) : ∃ before last, pieces isSeparator cs = before ++ [last] ∧
      pieces isSeparator (cs ++ [c]) = before ++ [last ++ [c]] := by
  induction cs with
  | nil => exact ⟨[], [], rfl, by simp [pieces, hc]⟩
  | cons b cs ih =>
      obtain ⟨before, last, hcs, hconcat⟩ := ih
      by_cases hb : isSeparator b = true
      · exact ⟨[] :: before, last, by simp [pieces, hb, hcs], by simp [pieces, hb, hconcat]⟩
      · cases before with
        | nil => exact ⟨[], b :: last, by simp [pieces, hb, hcs], by simp [pieces, hb, hconcat]⟩
        | cons first others =>
            exact ⟨(b :: first) :: others, last, by simp [pieces, hb, hcs],
              by simp [pieces, hb, hconcat]⟩

theorem trim_concat {c : Char} (hc : isBlank c = true) (cs : List Char) :
    trim (cs ++ [c]) = trim cs := by
  unfold trim
  rw [List.dropWhile_append]
  cases hcs : cs.dropWhile isBlank with
  | nil => simp [hc]
  | cons b rest => simp [hc]

theorem filledLines_concat {c : Char} (hc : isBlank c = true) (cs : List Char) :
    filledLines (cs ++ [c]) = filledLines cs := by
  unfold filledLines
  by_cases hbreak : c = '\n'
  · rw [pieces_append_cons (by simp [hbreak])]
    simp [pieces, trim]
  · obtain ⟨before, last, hcs, hconcat⟩ :=
      exists_pieces_concat (· == '\n') (by simpa using hbreak) cs
    rw [hcs, hconcat]
    simp [trim_concat hc]

/-! ### Lines one after the other -/

theorem filledLines_append_blank {blank : List Char} (h : ∀ c ∈ blank, isBlank c = true)
    (cs : List Char) : filledLines (cs ++ blank) = filledLines cs := by
  induction blank generalizing cs with
  | nil => rw [List.append_nil]
  | cons c blank ih =>
      rw [List.append_cons, ih fun d hd => h d (List.mem_cons_of_mem c hd),
        filledLines_concat (h c List.mem_cons_self)]

theorem filledLines_append_newline (before after : List Char) :
    filledLines (before ++ '\n' :: after) = filledLines before ++ filledLines after := by
  unfold filledLines
  rw [pieces_append_cons rfl, List.map_append, List.filter_append]

/-- Lines that stand before a text are before its own. -/
theorem filledLines_lines_append (lines : List (List Char)) (cs : List Char) :
    filledLines (lines.flatMap (· ++ ['\n']) ++ cs) =
      lines.flatMap filledLines ++ filledLines cs := by
  induction lines with
  | nil => rfl
  | cons line lines ih =>
      rw [List.flatMap_cons, List.flatMap_cons, List.append_assoc, List.append_assoc,
        List.append_assoc, List.singleton_append, filledLines_append_newline, ih]

theorem filledLines_of_line {line : List Char} (hbreak : '\n' ∉ line) (htrim : trim line = line)
    (hne : line ≠ []) : filledLines line = [line] := by
  unfold filledLines
  rw [pieces_of_not_mem hbreak]
  simp [htrim, hne]

/-- A line that is written last is read last, whatever lines come before it and whatever white space
comes after it. -/
theorem getLast?_filledLines {line blank : List Char} (lines : List (List Char))
    (hbreak : '\n' ∉ line) (htrim : trim line = line) (hne : line ≠ [])
    (hblank : ∀ c ∈ blank, isBlank c = true) :
    (filledLines (lines.flatMap (· ++ ['\n']) ++ line ++ blank)).getLast? = some line := by
  rw [filledLines_append_blank hblank, filledLines_lines_append,
    filledLines_of_line hbreak htrim hne, List.getLast?_append]
  rfl

end ExtensionPlan.Text
