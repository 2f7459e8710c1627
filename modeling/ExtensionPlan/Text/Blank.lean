/-!
# Cutting text

Text is cut in three ways here, each over a list of characters so that it can be reasoned about:

* `pieces` cuts at every separator and keeps the empty pieces, so nothing but separators is lost;
* `trim` removes white space at both ends;
* `words` gives the runs between white space, none of them empty.

White space is the Unicode property `White_Space`, not only the blanks of ASCII.
-/

namespace ExtensionPlan.Text

/-- Does the character have the Unicode property `White_Space`? -/
def isBlank (c : Char) : Bool :=
  let n := c.toNat
  (0x9 ≤ n && n ≤ 0xD) || n == 0x20 || n == 0x85 || n == 0xA0 || n == 0x1680 ||
  (0x2000 ≤ n && n ≤ 0x200A) || n == 0x2028 || n == 0x2029 || n == 0x202F || n == 0x205F ||
  n == 0x3000

/-! ## Pieces between separators -/

/-- The pieces between the separators, empty ones included. There is always at least one. -/
def pieces (isSeparator : Char → Bool) : List Char → List (List Char)
  | [] => [[]]
  | c :: rest =>
    if isSeparator c then [] :: pieces isSeparator rest
    else match pieces isSeparator rest with
      | [] => [[c]]
      | first :: others => (c :: first) :: others

theorem pieces_ne_nil (isSeparator : Char → Bool) (cs : List Char) :
    pieces isSeparator cs ≠ [] := by
  cases cs with
  | nil => simp [pieces]
  | cons c rest =>
    rw [pieces]
    split
    · simp
    · split <;> simp

/-- A separator ends a piece whatever stands before and after it. -/
theorem pieces_append_cons {isSeparator : Char → Bool} {c : Char} (hc : isSeparator c = true)
    (before after : List Char) :
    pieces isSeparator (before ++ c :: after) =
      pieces isSeparator before ++ pieces isSeparator after := by
  induction before with
  | nil => simp [pieces, hc]
  | cons b before ih =>
    simp only [List.cons_append, pieces, ih]
    split
    · simp
    · cases h : pieces isSeparator before with
      | nil => exact absurd h (pieces_ne_nil _ _)
      | cons first others => simp

/-- Text without a separator is one piece. -/
theorem pieces_of_forall_not {isSeparator : Char → Bool} {cs : List Char}
    (h : ∀ c ∈ cs, isSeparator c = false) : pieces isSeparator cs = [cs] := by
  induction cs with
  | nil => rfl
  | cons c rest ih =>
    simp [pieces, h c (by simp), ih fun d hd => h d (by simp [hd])]

/-- Text that does not hold the separator is one piece. -/
theorem pieces_of_not_mem {separator : Char} {cs : List Char} (h : separator ∉ cs) :
    pieces (· == separator) cs = [cs] := by
  refine pieces_of_forall_not fun c hc => ?_
  rw [beq_eq_false_iff_ne]
  intro heq
  exact h (heq ▸ hc)

/-- No piece holds a separator. -/
theorem not_isSeparator_of_mem_pieces {isSeparator : Char → Bool} {cs piece : List Char}
    (hp : piece ∈ pieces isSeparator cs) : ∀ c ∈ piece, isSeparator c = false := by
  induction cs generalizing piece with
  | nil => simp_all [pieces]
  | cons d rest ih =>
    rw [pieces] at hp
    split at hp
    · rcases List.mem_cons.1 hp with rfl | hp
      · simp
      · exact ih hp
    · next hd =>
      split at hp
      · rcases List.mem_singleton.1 hp with rfl
        simpa using hd
      · next first others hrest =>
        rcases List.mem_cons.1 hp with rfl | hp
        · intro c hc
          rcases List.mem_cons.1 hc with rfl | hc
          · simpa using hd
          · exact ih (by simp [hrest]) c hc
        · exact ih (by simp [hrest, hp])

/-- The number of bytes that the text takes up in UTF-8. -/
def byteCount : List Char → Nat
  | [] => 0
  | c :: rest => c.utf8Size + byteCount rest

theorem byteCount_append (cs ds : List Char) :
    byteCount (cs ++ ds) = byteCount cs + byteCount ds := by
  induction cs with
  | nil => simp [byteCount]
  | cons c rest ih => rw [List.cons_append, byteCount, byteCount, ih, Nat.add_assoc]

/-! ## White space at the ends and between words -/

/-- The text without the white space at its two ends. -/
def trim (cs : List Char) : List Char :=
  ((cs.dropWhile isBlank).reverse.dropWhile isBlank).reverse

/-- The runs between white space. -/
def words (cs : List Char) : List (List Char) :=
  (pieces isBlank cs).filter (!·.isEmpty)

/-- The lines, each trimmed, without those that are then empty. -/
def filledLines (cs : List Char) : List (List Char) :=
  ((pieces (· == '\n') cs).map trim).filter (!·.isEmpty)

/-- White space separates words, however much of it there is. -/
theorem words_append_cons {c : Char} (hc : isBlank c = true) (before after : List Char) :
    words (before ++ c :: after) = words before ++ words after := by
  simp [words, pieces_append_cons hc]

end ExtensionPlan.Text

namespace String

/-- The text without the white space at its two ends. -/
def trimBlank (s : String) : String :=
  .ofList (ExtensionPlan.Text.trim s.toList)

/-- The text with the capital letters of ASCII made small. -/
def asciiLower (s : String) : String :=
  .ofList (s.toList.map Char.toLower)

end String
