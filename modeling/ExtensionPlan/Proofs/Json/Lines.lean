import ExtensionPlan.Proofs.Json
import ExtensionPlan.Proofs.Text.Lines

/-!
# ExtensionPlan.Proofs.Json.Lines

**The lines of a document.** Inside a text a line break is escaped, so a document has none but those
of its layout, and after each of those a part is moved in or a list or an object ends. A line of a
document therefore begins with one of few characters (`Json.not_prefix_of_mem_lines`), whatever
texts there are in it.
-/

namespace ExtensionPlan.Json

/-! ### What comes after a line break -/

/-- The characters that a document may begin with. -/
def documentStarts : List Char := ['n', 't', 'f', '"', '[', '{']

/-- The characters that may come after a line break. -/
def lineStarts : List Char := [' ', ']', '}']

/-- After each line break comes one of the characters that may. -/
def IsLaidOut (cs : List Char) : Prop :=
  ∀ before after, cs = before ++ '\n' :: after → ∃ c ∈ lineStarts, after.head? = some c

theorem IsLaidOut.of_not_mem {cs : List Char} (h : '\n' ∉ cs) : IsLaidOut cs := by
  intro before after heq
  exact absurd (heq ▸ List.mem_append_right before List.mem_cons_self) h

/-- A line break that is followed by such a character within a part is followed by it in the
whole. -/
theorem IsLaidOut.append {cs ds : List Char} (hcs : IsLaidOut cs) (hds : IsLaidOut ds) :
    IsLaidOut (cs ++ ds) := by
  intro before after heq
  rcases List.append_eq_append_iff.1 heq with ⟨front, rfl, hds'⟩ | ⟨back, rfl, hback⟩
  · exact hds front after hds'
  · cases back with
    | nil => exact hds [] after hback.symm
    | cons c back =>
        obtain ⟨rfl, rfl⟩ := List.cons.inj hback
        obtain ⟨c, hc, hhead⟩ := hcs before back rfl
        refine ⟨c, hc, ?_⟩
        show (back ++ ds).head? = some c
        rw [List.head?_append, hhead, Option.some_or]

theorem isLaidOut_cons {c : Char} {cs : List Char} (hc : c ≠ '\n') (h : IsLaidOut cs) :
    IsLaidOut (c :: cs) := by
  have hsingle : IsLaidOut [c] := .of_not_mem (by simpa using hc.symm)
  exact hsingle.append h

/-! ### Layouts -/

/-- The layout breaks lines only before a part that is moved in, and before the end of a list or an
object. -/
structure Layout.Indents (layout : Layout) : Prop where
  gap : ∀ depth, IsLaidOut (layout.gap (depth + 1))
  last : ∀ depth, ∀ c ∈ [']', '}'], IsLaidOut (layout.gap depth ++ [c])
  colon : IsLaidOut layout.colon

theorem Layout.indents_compact : Layout.compact.Indents where
  gap := fun _ => .of_not_mem nofun
  last := by
    intro depth c hc
    simp only [List.mem_cons, List.not_mem_nil, or_false] at hc
    rcases hc with rfl | rfl
    all_goals exact .of_not_mem (by simp [Layout.compact])
  colon := .of_not_mem (by decide)

/-- Spaces after a line break, if there are any or something else comes after them. -/
theorem isLaidOut_break {spaces : Nat} {cs : List Char}
    (h : ∃ c ∈ lineStarts, (List.replicate spaces ' ' ++ cs).head? = some c)
    (hcs : '\n' ∉ cs) : IsLaidOut ('\n' :: List.replicate spaces ' ' ++ cs) := by
  have hrest : '\n' ∉ List.replicate spaces ' ' ++ cs := by
    intro hmem
    rcases List.mem_append.1 hmem with hmem | hmem
    · exact absurd (List.eq_of_mem_replicate hmem) (by decide)
    · exact hcs hmem
  intro before after heq
  cases before with
  | nil =>
      obtain ⟨-, rfl⟩ := List.cons.inj heq
      exact h
  | cons c before =>
      have hafter : List.replicate spaces ' ' ++ cs = before ++ '\n' :: after :=
        (List.cons.inj heq).2
      rw [hafter] at hrest
      exact absurd (List.mem_append_right before List.mem_cons_self) hrest

theorem Layout.indents_pretty : Layout.pretty.Indents where
  gap := by
    intro depth
    have hbreak : IsLaidOut ('\n' :: List.replicate (2 * (depth + 1)) ' ' ++ []) :=
      isLaidOut_break ⟨' ', by decide, by simp [List.head?_replicate]⟩ nofun
    rwa [List.append_nil] at hbreak
  last := by
    intro depth c hc
    have hstart : c ∈ lineStarts := List.mem_cons_of_mem ' ' hc
    refine isLaidOut_break ?_ ?_
    · cases depth with
      | zero => exact ⟨c, hstart, rfl⟩
      | succ depth => exact ⟨' ', by decide, by simp [List.head?_append, List.head?_replicate]⟩
    · intro hmem
      rw [List.mem_singleton] at hmem
      subst hmem
      exact absurd hc (by decide)
  colon := .of_not_mem (by decide)

/-! ### Documents -/

/-- A line break is spelled by a backslash and a letter. -/
theorem break_not_mem_escape (c : Char) : '\n' ∉ escape c := by
  have hshort : ∀ c ∈ shortlySpelled, '\n' ∉ escape c := by
    intro c hc
    simp only [shortlySpelled, List.mem_cons, List.not_mem_nil, or_false] at hc
    rcases hc with rfl | rfl | rfl | rfl | rfl | rfl | rfl
    all_goals decide
  have hnumbered : ∀ n < 0x20,
      '\n' ∉ ['\\', 'u', '0', '0', Nat.digitChar (n / 16), Nat.digitChar (n % 16)] := by decide
  by_cases hc : c ∈ shortlySpelled
  · exact hshort c hc
  · rw [escape_of_not_mem hc]
    split
    · next hlow => exact hnumbered _ hlow
    · intro hmem
      rw [← List.mem_singleton.1 hmem] at hc
      exact hc (by decide)

theorem break_not_mem_writeText (text : String) : '\n' ∉ writeText text := by
  unfold writeText
  simp only [List.cons_append, List.mem_cons, List.mem_append, List.mem_flatMap, List.not_mem_nil,
    or_false, not_or, not_exists, not_and]
  exact ⟨by decide, fun c _ => break_not_mem_escape c, by decide⟩

variable {layout : Layout} (h : layout.Indents)

include h

theorem isLaidOut_end {c : Char} {cs : List Char} (depth : Nat) (hc : c ∈ [']', '}'])
    (hcs : IsLaidOut cs) : IsLaidOut (cs ++ layout.gap depth ++ [c]) := by
  rw [List.append_assoc]
  exact hcs.append (h.last depth c hc)

mutual

/-- A document is laid out, whatever texts there are in it. -/
theorem isLaidOut_write : ∀ (v : Json) (depth : Nat), IsLaidOut (v.write layout depth)
  | .null, _ => .of_not_mem (by simp [write])
  | .bool true, _ => .of_not_mem (by simp [write])
  | .bool false, _ => .of_not_mem (by simp [write])
  | .text value, _ => .of_not_mem (break_not_mem_writeText value)
  | .list [], _ => .of_not_mem (by simp [write])
  | .list (item :: items), depth => by
      have hitem := isLaidOut_write item (depth + 1)
      have hitems := isLaidOut_writeItems items depth
      rw [write]
      exact isLaidOut_cons (by decide) (isLaidOut_end h depth (by decide)
        (((h.gap depth).append hitem).append hitems))
  | .object [], _ => .of_not_mem (by simp [write])
  | .object ((name, value) :: fields), depth => by
      have hname := IsLaidOut.of_not_mem (break_not_mem_writeText name)
      have hvalue := isLaidOut_write value (depth + 1)
      have hfields := isLaidOut_writeFields fields depth
      rw [write]
      exact isLaidOut_cons (by decide) (isLaidOut_end h depth (by decide)
        (((((h.gap depth).append hname).append h.colon).append hvalue).append hfields))

/-- The items after the first are laid out, since they are moved in. -/
theorem isLaidOut_writeItems : ∀ (items : List Json) (depth : Nat),
    IsLaidOut (writeItems layout (depth + 1) items)
  | [], _ => .of_not_mem (by simp [writeItems])
  | item :: items, depth => by
      have hitem := isLaidOut_write item (depth + 1)
      have hitems := isLaidOut_writeItems items depth
      rw [writeItems]
      exact isLaidOut_cons (by decide) (((h.gap depth).append hitem).append hitems)

theorem isLaidOut_writeFields : ∀ (fields : List (String × Json)) (depth : Nat),
    IsLaidOut (writeFields layout (depth + 1) fields)
  | [], _ => .of_not_mem (by simp [writeFields])
  | (name, value) :: fields, depth => by
      have hname := IsLaidOut.of_not_mem (break_not_mem_writeText name)
      have hvalue := isLaidOut_write value (depth + 1)
      have hfields := isLaidOut_writeFields fields depth
      rw [writeFields]
      exact isLaidOut_cons (by decide)
        (((((h.gap depth).append hname).append h.colon).append hvalue).append hfields)

end

omit h in
/-- A document begins with one of the characters that tell what it is. -/
theorem exists_head?_write (layout : Layout) (depth : Nat) (v : Json) :
    ∃ c ∈ documentStarts, (v.write layout depth).head? = some c := by
  match v with
  | .null | .bool true | .bool false | .text _ | .list [] | .list (_ :: _) | .object []
  | .object (_ :: _) =>
    rw [write]
    exact ⟨_, by decide, rfl⟩

/-- **Lines.** No line of a document begins with a mark whose first character begins neither a
document nor a line in it. -/
theorem not_prefix_of_mem_lines {mark : List Char} {c : Char} (hbreak : '\n' ∉ mark)
    (hmark : mark.head? = some c) (hc : c ∉ documentStarts ++ lineStarts) (v : Json)
    (depth : Nat) : ∀ line ∈ Text.pieces (· == '\n') (v.write layout depth), ¬ mark <+: line := by
  have hnot : ¬ (mark <+: v.write layout depth ∨ '\n' :: mark <:+: v.write layout depth) := by
    intro hmarked
    rcases hmarked with ⟨rest, hrest⟩ | ⟨before, rest, hrest⟩
    · obtain ⟨d, hd, hhead⟩ := exists_head?_write layout depth v
      rw [← hrest, List.head?_append, hmark, Option.some_or] at hhead
      cases hhead
      exact hc (List.mem_append_left lineStarts hd)
    · obtain ⟨d, hd, hhead⟩ := isLaidOut_write h v depth before (mark ++ rest)
        (by rw [← hrest, List.append_assoc, List.cons_append])
      rw [List.head?_append, hmark, Option.some_or] at hhead
      cases hhead
      exact hc (List.mem_append_right documentStarts hd)
  intro line hline hprefix
  exact hnot ((Text.exists_piece_iff hbreak _).1 ⟨line, hline, hprefix⟩)

end ExtensionPlan.Json
