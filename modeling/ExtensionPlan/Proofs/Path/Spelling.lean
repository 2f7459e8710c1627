import ExtensionPlan.World
import Mathlib.Data.List.Basic

/-!
# ExtensionPlan.Proofs.Path.Spelling

**What a spelling ends and begins with.** A path that was made by going down to a name
(`Path.join`) is known by that name: it is the file name (`fileName?_join`), and there is a
directory above it (`exists_parent?`). A path that begins at the root does so whatever it is
extended by (`isAbsolute_join`, `isAbsolute_absoluteFrom`).

Everything here is read off `Path.body`, the pieces of a spelling after its lead; the lead is at
most one character, so a name after a separator is always the last piece (`exists_body_append`).
-/

namespace ExtensionPlan

/-! ### Names -/

/-- A piece that spells a name: it stands for a component, is not the step `..` and is in one
piece. Unlike the name of an entry of a directory it may hold any other character. -/
structure IsName (piece : List Char) : Prop where
  filled : piece ≠ []
  notCurrent : piece ≠ ['.']
  notParent : piece ≠ ['.', '.']
  whole : '/' ∉ piece

theorem FileName.isName (name : FileName) : IsName name.chars := by
  have plain := name.plain
  simp only [isPlainName, Bool.and_eq_true, bne_iff_ne, List.all_eq_true, ne_eq] at plain
  obtain ⟨⟨⟨filled, notCurrent⟩, notParent⟩, whole⟩ := plain
  exact ⟨filled, notCurrent, notParent, fun h => (whole '/' h).1 rfl⟩

theorem FileName.chars_injective {a b : FileName} (h : a.chars = b.chars) : a = b := by
  cases a
  cases b
  cases h
  rfl

namespace IsName

variable {name : List Char}

/-- The pieces that spell no name are short. -/
theorem of_length (hlength : 2 < name.length) (whole : '/' ∉ name) : IsName name where
  filled := by
    rintro rfl
    simp at hlength
  notCurrent := by
    rintro rfl
    simp at hlength
  notParent := by
    rintro rfl
    simp at hlength
  whole := whole

theorem ofPiece? (h : IsName name) : Component.ofPiece? name = some (.name name) := by
  rw [Component.ofPiece?, if_neg (not_or.2 ⟨h.filled, h.notCurrent⟩), if_neg h.notParent]

/-- A name is seen from wherever it is said. -/
theorem not_isAbsolute (h : IsName name) : (Path.mk name).isAbsolute = false := by
  cases hname : name with
  | nil => rfl
  | cons c rest =>
      have hc : c ≠ '/' := fun hc => h.whole (by simp [hname, hc])
      simpa [Path.isAbsolute] using hc

end IsName

theorem Component.ofPiece?_eq_none_iff {piece : List Char} :
    Component.ofPiece? piece = none ↔ Path.isIdle piece = true := by
  rw [Component.ofPiece?, Path.isIdle, Bool.or_eq_true, List.isEmpty_iff, beq_iff_eq]
  by_cases h : piece = [] ∨ piece = ['.']
  · simp [h]
  · rw [if_neg h]
    constructor
    · intro hnone
      split at hnone <;> cases hnone
    · exact fun hidle => absurd hidle h

namespace Path

/-! ### The last piece -/

theorem length_lead_le (p : Path) : p.lead.length ≤ 1 := by
  unfold lead
  split <;> simp

/-- What follows a separator and holds none is the last piece. -/
theorem exists_body_append {front last : List Char} (whole : '/' ∉ last) :
    ∃ before, (Path.mk (front ++ '/' :: last)).body = before ++ [last] := by
  have hlast : Text.pieces (· == '/') last = [last] := Text.pieces_of_not_mem whole
  cases front with
  | nil =>
      refine ⟨[], ?_⟩
      rw [List.nil_append, List.nil_append, ← hlast]
      rfl
  | cons c rest =>
      unfold body
      -- the lead takes `c` or nothing, and the separator stays where it is
      have hlead := length_lead_le ⟨c :: rest ++ '/' :: last⟩
      generalize (Path.mk (c :: rest ++ '/' :: last)).lead.length = taken at hlead ⊢
      have htaken : taken = 0 ∨ taken = 1 := by omega
      rcases htaken with rfl | rfl
      · rw [List.drop_zero, Text.pieces_append_cons (by rfl), hlast]
        exact ⟨_, rfl⟩
      · rw [List.cons_append, List.drop_one, List.tail_cons, Text.pieces_append_cons (by rfl),
          hlast]
        exact ⟨_, rfl⟩

/-- A name has no lead. -/
theorem lead_of_isName {name : List Char} (h : IsName name) : (Path.mk name).lead = [] := by
  unfold lead
  split
  · next rest heq =>
    have hname : name = '/' :: rest := heq
    exact absurd (by simp [hname]) h.whole
  · next heq => exact absurd heq h.notCurrent
  · next rest heq =>
    have hname : name = '.' :: '/' :: rest := heq
    exact absurd (by simp [hname]) h.whole
  · rfl

theorem body_of_isName {name : List Char} (h : IsName name) : (Path.mk name).body = [name] := by
  rw [body, lead_of_isName h]
  exact Text.pieces_of_not_mem h.whole

/-- A path that is a name means that name. -/
theorem components_of_isName {name : List Char} (h : IsName name) :
    (Path.mk name).components = [.name name] := by
  rw [components, leadComponents, lead_of_isName h, body_of_isName h]
  simp [h.ofPiece?]

/-- Going down to a name puts it last. -/
theorem exists_body_join (p : Path) {name : List Char} (h : IsName name) :
    ∃ before, (p.join ⟨name⟩).body = before ++ [name] := by
  rw [join, if_neg (by simp [h.not_isAbsolute])]
  split
  · next hp =>
    rw [Bool.or_eq_true] at hp
    rcases hp with hp | hp
    · have hnil : p.chars = [] := List.isEmpty_iff.1 hp
      rw [hnil, List.nil_append, body_of_isName h]
      exact ⟨[], rfl⟩
    · have hlast : p.chars.getLast? = some '/' := by simpa using hp
      obtain ⟨front, hfront⟩ := List.getLast?_eq_some_iff.1 hlast
      rw [hfront, List.append_assoc]
      exact exists_body_append h.whole
  · exact exists_body_append h.whole

/-! ### File names and directories -/

theorem fileName?_of_body {p : Path} {before : List (List Char)} {name : List Char}
    (h : IsName name) (hbody : p.body = before ++ [name]) : p.fileName? = some name := by
  have hlast : p.components.getLast? = some (.name name) := by
    rw [components, hbody, List.filterMap_append, ← List.append_assoc]
    simp [h.ofPiece?]
  rw [fileName?, hlast]

theorem fileName?_join (p : Path) {name : List Char} (h : IsName name) :
    (p.join ⟨name⟩).fileName? = some name := by
  obtain ⟨before, hbody⟩ := exists_body_join p h
  exact fileName?_of_body h hbody

theorem fileName?_of_isName {name : List Char} (h : IsName name) :
    (Path.mk name).fileName? = some name := by
  have hbody : (Path.mk name).body = [] ++ [name] := body_of_isName h
  exact fileName?_of_body h hbody

theorem parentsFrom_ne_nil (lead : List Char) {piece : List Char} {reversed : List (List Char)}
    (hmem : piece ∈ reversed) (hpiece : isIdle piece = false) :
    parentsFrom lead reversed ≠ [] := by
  induction reversed with
  | nil => cases hmem
  | cons first rest ih =>
      rw [parentsFrom]
      split
      · next hidle =>
        rcases List.mem_cons.1 hmem with rfl | hmem
        · rw [hidle] at hpiece
          cases hpiece
        · exact ih hmem
      · exact List.cons_ne_nil _ _

/-- What has a file name lies in a directory. -/
theorem exists_parent? {p : Path} {name : List Char} (h : p.fileName? = some name) :
    ∃ dir, p.parent? = some dir := by
  have hlast : p.components.getLast? = some (.name name) := by
    unfold fileName? at h
    split at h
    · next chars hlast =>
      cases h
      exact hlast
    · cases h
  -- the lead stands for no name, so there is a piece that does
  have hpiece : ∃ piece ∈ p.body, isIdle piece = false := by
    by_contra hnone
    have hidle : p.body.filterMap Component.ofPiece? = [] := by
      rw [List.filterMap_eq_nil_iff]
      intro piece hmem
      rw [Component.ofPiece?_eq_none_iff, ← Bool.not_eq_false]
      exact fun hfalse => hnone ⟨piece, hmem, hfalse⟩
    rw [components, hidle, List.append_nil, leadComponents] at hlast
    split at hlast
    · simp at hlast
    · split at hlast <;> simp at hlast
  obtain ⟨piece, hmem, hpiece⟩ := hpiece
  have hne := parentsFrom_ne_nil p.lead (List.mem_reverse.2 hmem) hpiece
  obtain ⟨dir, others, hparents⟩ := List.exists_cons_of_ne_nil hne
  exact ⟨dir, by rw [parent?, parents, hparents, List.head?_cons]⟩

/-! ### Extensions -/

theorem pieces_eq_singleton_nil_iff (isSeparator : Char → Bool) {text : List Char} :
    Text.pieces isSeparator text = [[]] ↔ text = [] := by
  constructor
  · intro h
    cases text with
    | nil => rfl
    | cons c rest =>
        rw [Text.pieces] at h
        split at h
        · exact absurd (List.cons.inj h).2 (Text.pieces_ne_nil _ _)
        · split at h <;> simp at h
  · rintro rfl
    rfl

theorem extension?_of_append {p : Path} {stem ext : List Char} (hext : '.' ∉ ext)
    (h : p.fileName? = some (stem ++ '.' :: ext)) :
    p.extension? = if stem = [] then none else some ext := by
  have hpieces : Text.pieces (· == '.') ext = [ext] := Text.pieces_of_not_mem hext
  rw [extension?, h, Option.bind_some, Text.pieces_append_cons (by rfl), hpieces,
    List.reverse_append, List.reverse_singleton, List.singleton_append]
  cases hstem : (Text.pieces (· == '.') stem).reverse with
  | nil => exact absurd (List.reverse_eq_nil_iff.1 hstem) (Text.pieces_ne_nil _ _)
  | cons before others =>
      have hiff : (before.isEmpty && others.isEmpty) = true ↔ stem = [] := by
        rw [← pieces_eq_singleton_nil_iff (· == '.'),
          List.reverse_eq_iff.1 hstem, Bool.and_eq_true, List.isEmpty_iff, List.isEmpty_iff]
        constructor
        · rintro ⟨rfl, rfl⟩
          rfl
        · intro heq
          simpa [List.reverse_eq_iff] using congrArg List.reverse heq
      simp only [hiff]

/-- The extension is what follows the last dot, if something stands before that dot. -/
theorem extension?_eq_some_iff {p : Path} {name ext : List Char} (h : p.fileName? = some name) :
    p.extension? = some ext ↔ ∃ stem, stem ≠ [] ∧ '.' ∉ ext ∧ name = stem ++ '.' :: ext := by
  constructor
  · intro hsome
    by_cases hdot : '.' ∈ name
    · obtain ⟨back, front, hback, hnot⟩ :=
        List.eq_append_cons_of_mem (List.mem_reverse.2 hdot)
      have hname : name = front.reverse ++ '.' :: back.reverse := by
        rw [← List.reverse_reverse name, hback]
        simp
      have hnot' : '.' ∉ back.reverse := fun hmem => hnot (List.mem_reverse.1 hmem)
      rw [extension?_of_append hnot' (hname ▸ h)] at hsome
      split at hsome
      · cases hsome
      · next hstem =>
        cases hsome
        exact ⟨front.reverse, hstem, hnot', hname⟩
    · -- a name in one piece is all stem
      have hpieces : Text.pieces (· == '.') name = [name] := Text.pieces_of_not_mem hdot
      rw [extension?, h, Option.bind_some, hpieces] at hsome
      cases hsome
  · rintro ⟨stem, hstem, hext, rfl⟩
    rw [extension?_of_append hext h, if_neg hstem]

/-- An extension is an ending with a dot, unless the name has nothing else. -/
theorem extension?_eq_some_iff_suffix {p : Path} {name ext : List Char}
    (h : p.fileName? = some name) (hext : '.' ∉ ext) (hlong : ext.length + 1 < name.length) :
    p.extension? = some ext ↔ '.' :: ext <:+ name := by
  rw [extension?_eq_some_iff h]
  constructor
  · intro hstem
    obtain ⟨stem, -, -, rfl⟩ := hstem
    exact List.suffix_append stem _
  · intro hsuffix
    obtain ⟨stem, rfl⟩ := hsuffix
    refine ⟨stem, ?_, hext, rfl⟩
    rintro rfl
    simp at hlong

/-! ### Paths from the root -/

theorem isAbsolute_iff {p : Path} : p.isAbsolute = true ↔ ∃ rest, p.chars = '/' :: rest := by
  cases h : p.chars with
  | nil => simp [isAbsolute, h]
  | cons c rest => simp [isAbsolute, h]

/-- The four forms of a spelling: from the root, `.` alone, from `.`, and any other. -/
theorem lead_cases (p : Path) :
    (∃ rest, p.chars = '/' :: rest ∧ p.lead = ['/']) ∨ (p.chars = ['.'] ∧ p.lead = ['.']) ∨
      (∃ rest, p.chars = '.' :: '/' :: rest ∧ p.lead = ['.']) ∨ p.lead = [] := by
  unfold lead
  split
  · next rest heq => exact Or.inl ⟨rest, heq, rfl⟩
  · next heq => exact Or.inr (Or.inl ⟨heq, rfl⟩)
  · next rest heq => exact Or.inr (Or.inr (Or.inl ⟨rest, heq, rfl⟩))
  · exact Or.inr (Or.inr (Or.inr rfl))

/-- A path has the root for its lead if it begins there. -/
theorem lead_eq_root_iff (p : Path) : p.lead = ['/'] ↔ p.isAbsolute = true := by
  constructor
  · intro hlead
    rcases lead_cases p with ⟨rest, hchars, -⟩ | ⟨-, hother⟩ | ⟨rest, -, hother⟩ | hother
    · exact isAbsolute_iff.2 ⟨rest, hchars⟩
    · simp [hlead] at hother
    · simp [hlead] at hother
    · simp [hlead] at hother
  · intro habsolute
    obtain ⟨rest, hchars⟩ := isAbsolute_iff.1 habsolute
    rw [lead, hchars]
    rfl

theorem isAbsolute_append {p : Path} (h : p.isAbsolute = true) (more : List Char) :
    (Path.mk (p.chars ++ more)).isAbsolute = true := by
  unfold isAbsolute at h ⊢
  cases hp : p.chars with
  | nil =>
      rw [hp] at h
      cases h
  | cons c rest => rwa [hp] at h

theorem isAbsolute_join {p : Path} (h : p.isAbsolute = true) (q : Path) :
    (p.join q).isAbsolute = true := by
  unfold join
  split
  · assumption
  · split
    · exact isAbsolute_append h _
    · exact isAbsolute_append h _

/-- What stands above a path from the root is seen from there as well. -/
theorem isAbsolute_of_mem_parentsFrom {q : Path} {reversed : List (List Char)}
    (h : q ∈ parentsFrom ['/'] reversed) : q.isAbsolute = true := by
  induction reversed with
  | nil => cases h
  | cons piece rest ih =>
      rw [parentsFrom] at h
      split at h
      · exact ih h
      · rcases List.mem_cons.1 h with rfl | h
        · rfl
        · exact ih h

theorem isAbsolute_parent? {p q : Path} (hp : p.isAbsolute = true) (h : p.parent? = some q) :
    q.isAbsolute = true := by
  rw [parent?, parents, (lead_eq_root_iff p).2 hp] at h
  exact isAbsolute_of_mem_parentsFrom (List.mem_of_head? h)

theorem isAbsolute_follow {start : Path} (h : start.isAbsolute = true)
    (steps : List Component) : (follow start steps).isAbsolute = true := by
  unfold follow
  induction steps generalizing start with
  | nil => exact h
  | cons step steps ih => exact ih (isAbsolute_join h step.path)

/-- Seen from a directory that is seen from the root, every path is seen from the root. -/
theorem isAbsolute_absoluteFrom (p : Path) {cwd : Path} (h : cwd.isAbsolute = true) :
    (p.absoluteFrom cwd).isAbsolute = true := by
  have start : ∀ root : Path, root.isAbsolute = true →
      (if p.isAbsolute then root else cwd).isAbsolute = true := by
    intro root hroot
    split
    · exact hroot
    · exact h
  have followed := isAbsolute_follow
    (start (if p.chars.take 2 = ['/', '/'] ∧ p.chars.take 3 ≠ ['/', '/', '/'] then ⟨['/', '/']⟩
      else ⟨['/']⟩) (by split <;> rfl)) (p.body.filterMap Component.ofPiece?)
  dsimp only [absoluteFrom]
  -- a separator at the end stays
  split
  · exact isAbsolute_join followed _
  · exact followed

end Path

end ExtensionPlan
