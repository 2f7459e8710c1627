import ExtensionPlan.Json.Reader
import Mathlib.Data.List.DropRight

/-!
# ExtensionPlan.Proofs.Json

**Reading what was written.** A layout may put white space between the parts of a document and
nothing else (`Json.Layout.IsBlank`), so whichever layout a document is written in, the reader gives
the same document back (`Json.read_write`). Two documents with one text are therefore one document.

Any text may follow a document, and reading stops where writing did. That is what makes the
induction go through: an item of a list is followed by the rest of the list. The reader spends one
unit of fuel on a call, and each call has a character of its own in the written text, so the length
of that text is fuel enough.
-/

namespace ExtensionPlan.Json

/-! ### White space -/

theorem skipSpace_append {blank : List Char} (h : ∀ c ∈ blank, isSpace c = true)
    (cs : List Char) : skipSpace (blank ++ cs) = skipSpace cs := by
  unfold skipSpace
  exact List.dropWhile_append_of_pos h

theorem skipSpace_cons {c : Char} (h : isSpace c = false) (cs : List Char) :
    skipSpace (c :: cs) = c :: cs := by
  unfold skipSpace
  rw [List.dropWhile_cons_of_neg (by simp [h])]

theorem skipSpace_skipSpace (cs : List Char) : skipSpace (skipSpace cs) = skipSpace cs :=
  List.dropWhile_idempotent isSpace cs

theorem readValue_skipSpace (fuel : Nat) (cs : List Char) :
    readValue fuel (skipSpace cs) = readValue fuel cs := by
  cases fuel with
  | zero => rfl
  | succ fuel => simp only [readValue, skipSpace_skipSpace]

theorem readName_skipSpace (cs : List Char) : readName (skipSpace cs) = readName cs := by
  simp only [readName, skipSpace_skipSpace]

/-- White space before a document is passed over. -/
theorem readValue_append {blank : List Char} (h : ∀ c ∈ blank, isSpace c = true) (fuel : Nat)
    (cs : List Char) : readValue fuel (blank ++ cs) = readValue fuel cs := by
  rw [← readValue_skipSpace, skipSpace_append h, readValue_skipSpace]

/-! ### Texts -/

/-- The characters for which there is a short spelling after a backslash. -/
def shortlySpelled : List Char := ['"', '\\', '\x08', '\t', '\n', '\x0c', '\r']

theorem escape_of_not_mem {c : Char} (h : c ∉ shortlySpelled) :
    escape c = if c.toNat < 0x20 then
      ['\\', 'u', '0', '0', Nat.digitChar (c.toNat / 16), Nat.digitChar (c.toNat % 16)]
    else [c] := by
  simp only [shortlySpelled, List.mem_cons, List.not_mem_nil, or_false, not_or] at h
  simp only [escape, h, if_false]

theorem hexNumber?_digitChar :
    ∀ n < 0x20, hexNumber? '0' '0' (Nat.digitChar (n / 16)) (Nat.digitChar (n % 16)) = some n := by
  decide

theorem unitChar?_toNat {c : Char} (h : c.toNat < 0x20) (rest : List Char) :
    unitChar? c.toNat rest = some (c, 0) := by
  unfold unitChar?
  rw [if_neg (by omega), if_neg (by omega), Char.ofNat_toNat]

/-- A character is written as itself, or after a backslash in a spelling of its own. -/
theorem escape_cases (c : Char) :
    (escape c = [c] ∧ c ≠ '"' ∧ c ≠ '\\' ∧ ¬ c.toNat < 0x20) ∨
      ∃ spelling, escape c = '\\' :: spelling ∧
        ∀ rest, escaped? (spelling ++ rest) = some (c, spelling.length) := by
  by_cases hshort : c ∈ shortlySpelled
  · refine Or.inr ?_
    simp only [shortlySpelled, List.mem_cons, List.not_mem_nil, or_false] at hshort
    rcases hshort with rfl | rfl | rfl | rfl | rfl | rfl | rfl
    all_goals exact ⟨_, rfl, fun rest => rfl⟩
  · rw [escape_of_not_mem hshort]
    by_cases hlow : c.toNat < 0x20
    · rw [if_pos hlow]
      refine Or.inr ⟨_, rfl, fun rest => ?_⟩
      simp [escaped?, hexNumber?_digitChar _ hlow, unitChar?_toNat hlow]
    · rw [if_neg hlow]
      refine Or.inl ⟨rfl, ?_, ?_, hlow⟩
      · rintro rfl
        exact hshort (by decide)
      · rintro rfl
        exact hshort (by decide)

/-- What belongs to a spelling is not read again. -/
theorem readTextFrom_length (spelling cs : List Char) :
    readTextFrom spelling.length (spelling ++ cs) = readTextFrom 0 cs := by
  induction spelling with
  | nil => rfl
  | cons c spelling ih => exact ih

theorem readTextFrom_escape (c : Char) (cs : List Char) :
    readTextFrom 0 (escape c ++ cs) =
      (readTextFrom 0 cs).map fun (chars, rest) => (c :: chars, rest) := by
  rcases escape_cases c with ⟨hself, hquote, hbackslash, hlow⟩ | ⟨spelling, hspelled, hread⟩
  · rw [hself, List.singleton_append]
    simp only [readTextFrom, hquote, hbackslash, hlow, if_false]
  · rw [hspelled, List.cons_append]
    simp only [readTextFrom, hread, readTextFrom_length]
    rfl

/-- A text is read up to the quote that was written after it. -/
theorem readTextFrom_flatMap (chars cs : List Char) :
    readTextFrom 0 (chars.flatMap escape ++ '"' :: cs) = some (chars, cs) := by
  induction chars with
  | nil => rfl
  | cons c chars ih =>
      rw [List.flatMap_cons, List.append_assoc, readTextFrom_escape, ih]
      rfl

/-! ### Layouts -/

/-- There is nothing but white space between the parts, the colon apart. -/
structure Layout.IsBlank (layout : Layout) : Prop where
  gap : ∀ depth, ∀ c ∈ layout.gap depth, isSpace c = true
  colon : ∃ after, layout.colon = ':' :: after ∧ ∀ c ∈ after, isSpace c = true

theorem Layout.isBlank_compact : Layout.compact.IsBlank where
  gap := nofun
  colon := ⟨[], rfl, nofun⟩

theorem Layout.isBlank_pretty : Layout.pretty.IsBlank where
  gap := by
    intro depth c hc
    rcases List.mem_cons.1 hc with rfl | hc
    · rfl
    · rw [List.eq_of_mem_replicate hc]
      rfl
  colon := by
    refine ⟨[' '], rfl, fun c hc => ?_⟩
    rw [List.mem_singleton.1 hc]
    rfl

variable {layout : Layout}

/-- A document begins with a character that is neither white space nor the end of a list. -/
theorem exists_write_eq_cons (layout : Layout) (depth : Nat) (v : Json) :
    ∃ c cs, v.write layout depth = c :: cs ∧ isSpace c = false ∧ c ≠ ']' := by
  match v with
  | .null | .bool true | .bool false | .text _ | .list [] | .list (_ :: _) | .object []
  | .object (_ :: _) =>
    rw [write]
    exact ⟨_, _, rfl, by decide, by decide⟩

theorem skipSpace_gap_write (h : layout.IsBlank) (depth : Nat) (v : Json) (cs : List Char) :
    (skipSpace (layout.gap depth ++ (v.write layout depth ++ cs))).head? ≠ some ']' := by
  obtain ⟨c, tail, hv, hspace, hend⟩ := exists_write_eq_cons layout depth v
  rw [skipSpace_append (h.gap depth), hv, List.cons_append, skipSpace_cons hspace]
  simpa using hend

theorem readName_writeText (h : layout.IsBlank) (depth : Nat) (name : String) (cs : List Char) :
    ∃ after, (∀ c ∈ after, isSpace c = true) ∧
      readName (layout.gap depth ++ (writeText name ++ (layout.colon ++ cs))) =
        some (name, after ++ cs) := by
  obtain ⟨after, hcolon, hafter⟩ := h.colon
  refine ⟨after, hafter, ?_⟩
  have hquoted : writeText name ++ (layout.colon ++ cs) =
      '"' :: (name.toList.flatMap escape ++ '"' :: ':' :: (after ++ cs)) := by
    simp [writeText, hcolon]
  rw [hquoted, readName, skipSpace_append (h.gap depth), skipSpace_cons rfl]
  simp [readTextFrom_flatMap, skipSpace_cons (show isSpace ':' = false from rfl)]

/-! ### Parts of a document -/

section Parts

variable {fuel : Nat} {cs more others rest : List Char} {item value : Json} {items : List Json}
  {name : String} {fields : List (String × Json)}

/-- A list that is not empty is its first item and the others. -/
theorem readValue_list (hend : (skipSpace cs).head? ≠ some ']')
    (hitem : readValue fuel cs = some (item, more))
    (hitems : readItems fuel more = some (items, rest)) :
    readValue (fuel + 1) ('[' :: cs) = some (.list (item :: items), rest) := by
  simp only [readValue, skipSpace_cons (c := '[') rfl]
  split
  · next heq => exact absurd (congrArg List.head? heq) hend
  · simp [readValue_skipSpace, hitem, hitems]

/-- An object that is not empty is its first field and the others. The quote before the name tells
it from the end. -/
theorem readValue_object (hname : readName cs = some (name, more))
    (hvalue : readValue fuel more = some (value, others))
    (hfields : readFields fuel others = some (fields, rest)) :
    readValue (fuel + 1) ('{' :: cs) = some (.object ((name, value) :: fields), rest) := by
  simp only [readValue, skipSpace_cons (c := '{') rfl]
  split
  · next heq =>
    rw [readName, heq] at hname
    cases hname
  · simp [readName_skipSpace, hname, hvalue, hfields]

theorem readItems_cons (hitem : readValue fuel cs = some (item, more))
    (hitems : readItems fuel more = some (items, rest)) :
    readItems (fuel + 1) (',' :: cs) = some (item :: items, rest) := by
  simp [readItems, skipSpace_cons (c := ',') rfl, hitem, hitems]

theorem readFields_cons (hname : readName cs = some (name, more))
    (hvalue : readValue fuel more = some (value, others))
    (hfields : readFields fuel others = some (fields, rest)) :
    readFields (fuel + 1) (',' :: cs) = some ((name, value) :: fields, rest) := by
  simp [readFields, skipSpace_cons (c := ',') rfl, hname, hvalue, hfields]

end Parts

/-! ### Documents -/

mutual

/-- A document is read up to where it was written. -/
theorem readValue_write (h : layout.IsBlank) : ∀ (v : Json) (depth fuel : Nat) (cs : List Char),
    (v.write layout depth).length < fuel →
      readValue fuel (v.write layout depth ++ cs) = some (v, cs)
  | _, _, 0, _, hfuel => absurd hfuel (Nat.not_lt_zero _)
  | .null, _, _ + 1, _, _ => rfl
  | .bool true, _, _ + 1, _, _ => rfl
  | .bool false, _, _ + 1, _, _ => rfl
  | .text value, _, _ + 1, cs, _ => by
      simp [write, writeText, readValue, skipSpace_cons (c := '"') rfl, readTextFrom_flatMap]
  | .list [], _, _ + 1, _, _ => by
      simp [write, readValue, skipSpace_cons (c := '[') rfl, skipSpace_cons (c := ']') rfl]
  | .list (item :: items), depth, fuel + 1, cs, hfuel => by
      simp only [write, List.length_append, List.length_cons] at hfuel
      have hitem := readValue_write h item (depth + 1) fuel
        (writeItems layout (depth + 1) items ++ (layout.gap depth ++ ']' :: cs)) (by omega)
      have hitems := readItems_writeItems h items (depth + 1) fuel cs (h.gap depth) (by omega)
      rw [← readValue_append (h.gap (depth + 1))] at hitem
      have hlist := readValue_list (skipSpace_gap_write h _ _ _) hitem hitems
      simpa [write] using hlist
  | .object [], _, _ + 1, _, _ => by
      simp [write, readValue, skipSpace_cons (c := '{') rfl, skipSpace_cons (c := '}') rfl]
  | .object ((name, value) :: fields), depth, fuel + 1, cs, hfuel => by
      simp only [write, List.length_append, List.length_cons] at hfuel
      have hvalue := readValue_write h value (depth + 1) fuel
        (writeFields layout (depth + 1) fields ++ (layout.gap depth ++ '}' :: cs)) (by omega)
      have hfields := readFields_writeFields h fields (depth + 1) fuel cs (h.gap depth) (by omega)
      obtain ⟨after, hafter, hname⟩ := readName_writeText h (depth + 1) name
        (value.write layout (depth + 1) ++
          (writeFields layout (depth + 1) fields ++ (layout.gap depth ++ '}' :: cs)))
      rw [← readValue_append hafter] at hvalue
      have hobject := readValue_object hname hvalue hfields
      simpa [write] using hobject

/-- The items of a list are read up to its end. -/
theorem readItems_writeItems (h : layout.IsBlank) : ∀ (items : List Json) (depth fuel : Nat)
    {blank : List Char} (cs : List Char), (∀ c ∈ blank, isSpace c = true) →
    (writeItems layout depth items).length < fuel →
      readItems fuel (writeItems layout depth items ++ (blank ++ ']' :: cs)) = some (items, cs)
  | _, _, 0, _, _, _, hfuel => absurd hfuel (Nat.not_lt_zero _)
  | [], _, _ + 1, _, _, hblank, _ => by
      simp [writeItems, readItems, skipSpace_append hblank, skipSpace_cons (c := ']') rfl]
  | item :: items, depth, fuel + 1, blank, cs, hblank, hfuel => by
      simp only [writeItems, List.length_append, List.length_cons] at hfuel
      have hitem := readValue_write h item depth fuel
        (writeItems layout depth items ++ (blank ++ ']' :: cs)) (by omega)
      have hitems := readItems_writeItems h items depth fuel cs hblank (by omega)
      rw [← readValue_append (h.gap depth)] at hitem
      simpa [writeItems] using readItems_cons hitem hitems

/-- The fields of an object are read up to its end. -/
theorem readFields_writeFields (h : layout.IsBlank) : ∀ (fields : List (String × Json))
    (depth fuel : Nat) {blank : List Char} (cs : List Char), (∀ c ∈ blank, isSpace c = true) →
    (writeFields layout depth fields).length < fuel →
      readFields fuel (writeFields layout depth fields ++ (blank ++ '}' :: cs)) = some (fields, cs)
  | _, _, 0, _, _, _, hfuel => absurd hfuel (Nat.not_lt_zero _)
  | [], _, _ + 1, _, _, hblank, _ => by
      simp [writeFields, readFields, skipSpace_append hblank, skipSpace_cons (c := '}') rfl]
  | (name, value) :: fields, depth, fuel + 1, blank, cs, hblank, hfuel => by
      simp only [writeFields, List.length_append, List.length_cons] at hfuel
      have hvalue := readValue_write h value depth fuel
        (writeFields layout depth fields ++ (blank ++ '}' :: cs)) (by omega)
      have hfields := readFields_writeFields h fields depth fuel cs hblank (by omega)
      obtain ⟨after, hafter, hname⟩ := readName_writeText h depth name
        (value.write layout depth ++ (writeFields layout depth fields ++ (blank ++ '}' :: cs)))
      rw [← readValue_append hafter] at hvalue
      simpa [writeFields] using readFields_cons hname hvalue hfields

end

/-- **Reading what was written.** White space after the document makes no difference either. -/
theorem read_write (h : layout.IsBlank) (v : Json) (depth : Nat) (blank : List Char)
    (hblank : ∀ c ∈ blank, isSpace c = true) : read (v.write layout depth ++ blank) = some v := by
  have hfuel : (v.write layout depth).length < (v.write layout depth ++ blank).length + 1 := by
    rw [List.length_append]
    omega
  have hend : skipSpace blank = [] := List.dropWhile_eq_nil_iff.2 hblank
  rw [read, readValue_write h v depth _ blank hfuel]
  simp [hend]

end ExtensionPlan.Json
