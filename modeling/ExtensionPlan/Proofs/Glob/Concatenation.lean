import ExtensionPlan.Proofs.Glob.Escape

/-!
# ExtensionPlan.Proofs.Glob.Concatenation

**Patterns put together.** Tokens one after the other stand for a name if it can be cut between what
the ones and the others stand for (`Glob.covers_append`). Text is not read as freely: a star or a
bracket looks at what comes behind it. Where that neither closes a bracket nor begins with a star,
the text of one component is read by itself and then what is behind it (`Glob.tokensFrom_append`).
Text inside of a component never stands for any number of directories
(`Glob.anyDirectories_not_mem`).
-/

namespace ExtensionPlan.Glob

/-! ### Matching -/

/-- A token for any number of characters leaves some ending of the name to the others. -/
theorem covers_sequence_iff {token : Token} (sequence : token.isSequence = true)
    {tokens : List Token} {name : List Char} :
    covers (token :: tokens) name = true ↔
      ∃ skipped rest, name = skipped ++ rest ∧ covers tokens rest = true := by
  induction name with
  | nil =>
      rw [covers_sequence_nil sequence]
      constructor
      · intro h
        exact ⟨[], [], rfl, h⟩
      · rintro ⟨skipped, rest, heq, h⟩
        rwa [(List.append_eq_nil_iff.1 heq.symm).2] at h
  | cons c name ih =>
      rw [covers_sequence_cons sequence, Bool.or_eq_true, ih]
      constructor
      · rintro (h | ⟨skipped, rest, rfl, h⟩)
        · exact ⟨[], c :: name, rfl, h⟩
        · exact ⟨c :: skipped, rest, rfl, h⟩
      · rintro ⟨skipped, rest, heq, h⟩
        cases skipped with
        | nil => exact Or.inl (heq ▸ h)
        | cons d skipped => exact Or.inr ⟨skipped, rest, (List.cons.inj heq).2, h⟩

/-- A token for one character takes the first one. -/
theorem covers_single_iff {token : Token} (single : token.isSequence = false)
    {tokens : List Token} {name : List Char} :
    covers (token :: tokens) name = true ↔
      ∃ c rest, name = c :: rest ∧ token.holds c = true ∧ covers tokens rest = true := by
  cases name with
  | nil => simp [covers_single_nil single]
  | cons c name => simp [covers_single_cons single]

/-- **Tokens put together** stand for what the first ones stand for, and then the others. -/
theorem covers_append {front back : List Token} {name : List Char} :
    covers (front ++ back) name = true ↔ ∃ start rest, name = start ++ rest ∧
      covers front start = true ∧ covers back rest = true := by
  induction front generalizing name with
  | nil => simp [covers_nil]
  | cons token front ih =>
      rw [List.cons_append]
      cases hsequence : token.isSequence with
      | true =>
          simp only [covers_sequence_iff hsequence, ih]
          constructor
          · rintro ⟨skipped, _, rfl, start, rest, rfl, hfront, hback⟩
            exact ⟨skipped ++ start, rest, (List.append_assoc ..).symm,
              ⟨skipped, start, rfl, hfront⟩, hback⟩
          · rintro ⟨_, rest, rfl, ⟨skipped, start, rfl, hfront⟩, hback⟩
            exact ⟨skipped, start ++ rest, List.append_assoc .., start, rest, rfl, hfront, hback⟩
      | false =>
          simp only [covers_single_iff hsequence, ih]
          constructor
          · rintro ⟨c, _, rfl, hc, start, rest, rfl, hfront, hback⟩
            exact ⟨c :: start, rest, rfl, ⟨c, start, rfl, hc, hfront⟩, hback⟩
          · rintro ⟨_, rest, rfl, ⟨c, start, rfl, hc, hfront⟩, hback⟩
            exact ⟨c, start ++ rest, rfl, hc, start, rest, rfl, hfront, hback⟩

/-! ### One token -/

theorem idxOf?_append_of_not_mem {back : List Char} {c : Char} (h : c ∉ back) (rest : List Char) :
    (rest ++ back).idxOf? c = rest.idxOf? c := by
  induction rest with
  | nil => rw [List.nil_append, List.idxOf?_eq_none_iff.2 h, List.idxOf?_nil]
  | cons d rest ih => rw [List.cons_append, List.idxOf?_cons, List.idxOf?_cons, ih]

theorem lt_length_of_idxOf? {rest : List Char} {c : Char} {n : Nat} (h : rest.idxOf? c = some n) :
    n < rest.length := by
  obtain ⟨hn, -⟩ := List.idxOf?_eq_some_iff.1 h
  exact hn

/-- Where no bracket closes there is no class. -/
theorem bracketToken_of_not_mem {rest : List Char} (h : ']' ∉ rest) (position : Nat) :
    bracketToken position rest = .error ⟨position, .range⟩ := by
  have hnone : ∀ {others : List Char}, others <:+ rest → others.idxOf? ']' = none :=
    fun hsuffix => List.idxOf?_eq_none_iff.2 fun hmem => h (hsuffix.subset hmem)
  unfold bracketToken
  split
  · next a others => rw [hnone ⟨['!', a], rfl⟩]
  · rfl
  · rfl
  · next a others _ _ => rw [hnone ⟨[a], rfl⟩]

/-- A bracket is not closed by what has no bracket that closes. -/
theorem bracketToken_append {back : List Char} (hclose : ']' ∉ back) (position : Nat)
    (rest : List Char) : bracketToken position (rest ++ back) = bracketToken position rest := by
  have htake : ∀ {others : List Char} {n : Nat}, others.idxOf? ']' = some n →
      (others ++ back).take n = others.take n := by
    intro others n hn
    exact List.take_append_of_le_length (Nat.le_of_lt (lt_length_of_idxOf? hn))
  cases rest with
  | nil => rw [List.nil_append, bracketToken_of_not_mem hclose, bracketToken_of_not_mem (by simp)]
  | cons d rest =>
      by_cases hd : d = '!'
      · subst hd
        cases rest with
        | nil =>
            rw [bracketToken_of_not_mem (by simpa using hclose), bracketToken_of_not_mem (by simp)]
        | cons a others =>
            simp only [List.cons_append, bracketToken, idxOf?_append_of_not_mem hclose]
            cases hn : others.idxOf? ']' with
            | none => rfl
            | some n =>
                dsimp only
                rw [htake hn]
      · rw [List.cons_append, bracketToken_of_ne hd, bracketToken_of_ne hd,
          idxOf?_append_of_not_mem hclose]
        cases hn : rest.idxOf? ']' with
        | none => rfl
        | some n =>
            dsimp only
            rw [htake hn]

/-- What belongs to a class is there, up to the bracket that closes it, and it is no star. -/
theorem bracketToken_inside {position : Nat} {rest : List Char} {read : Token × Nat}
    (h : bracketToken position rest = .ok read) :
    read.1 ≠ .anyDirectories ∧ read.2 ≤ rest.length := by
  unfold bracketToken at h
  split at h
  · split at h
    · next n hn =>
      cases h
      have hlt := lt_length_of_idxOf? hn
      simp only [List.length_cons]
      exact ⟨nofun, by omega⟩
    · cases h
  · cases h
  · cases h
  · split at h
    · next n hn =>
      cases h
      have hlt := lt_length_of_idxOf? hn
      simp only [List.length_cons]
      exact ⟨nofun, by omega⟩
    · cases h

section Inside

variable {back : List Char} {c : Char} (hc : c ≠ '/')

include hc

/-- Inside of a component a star is read as such whatever comes behind it but another one. -/
theorem starToken_append (hstar : back.head? ≠ some '*') (position : Nat) (rest : List Char) :
    starToken position (some c) (rest ++ back) = starToken position (some c) rest := by
  have hother : ∀ text : List Char, text.head? ≠ some '*' →
      starToken position (some c) text = .ok (.anySequence, 0) := by
    intro text htext
    cases text with
    | nil => rfl
    | cons d text =>
        have hd : d ≠ '*' := by simpa using htext
        simp [starToken, hd]
  by_cases hrest : rest.head? = some '*'
  · obtain ⟨others, rfl⟩ := List.head?_eq_some_iff.1 hrest
    cases others with
    | nil =>
        cases back with
        | nil => rw [List.append_nil]
        | cons e back =>
            have he : e ≠ '*' := by simpa using hstar
            simp [starToken, he, hc]
    | cons e others =>
        by_cases he : e = '*'
        · simp [starToken, he]
        · simp [starToken, he, hc]
  · rw [hother rest hrest, hother]
    cases rest with
    | nil => exact hstar
    | cons d rest => exact hrest

/-- It never stands for any number of directories, and no other character belongs to it. -/
theorem starToken_inside {position : Nat} {rest : List Char} {read : Token × Nat}
    (h : starToken position (some c) rest = .ok read) : read = (.anySequence, 0) := by
  unfold starToken at h
  split at h
  · cases h
  · simp [hc] at h
  · exact (Except.ok.inj h).symm

theorem tokenAt_append (hclose : ']' ∉ back) (hstar : back.head? ≠ some '*') (position : Nat)
    (d : Char) (rest : List Char) :
    tokenAt position (some c) d (rest ++ back) = tokenAt position (some c) d rest := by
  unfold tokenAt
  rw [starToken_append hc hstar, bracketToken_append hclose]

theorem tokenAt_inside {position : Nat} {d : Char} {rest : List Char} {read : Token × Nat}
    (h : tokenAt position (some c) d rest = .ok read) :
    read.1 ≠ .anyDirectories ∧ read.2 ≤ rest.length := by
  unfold tokenAt at h
  split at h
  · cases h
    exact ⟨nofun, Nat.zero_le _⟩
  · split at h
    · rw [starToken_inside hc h]
      exact ⟨nofun, Nat.zero_le _⟩
    · split at h
      · exact bracketToken_inside h
      · cases h
        exact ⟨nofun, Nat.zero_le _⟩

end Inside

/-! ### All tokens -/

/-- **Texts put together** are read one after the other, if the first one is inside of a component
and the second one neither closes a bracket nor begins with a star. -/
theorem tokensFrom_append {front back : List Char} (hfront : '/' ∉ front) (hclose : ']' ∉ back)
    (hstar : back.head? ≠ some '*') {c : Char} (hc : c ≠ '/') {skip : Nat}
    (hskip : skip ≤ front.length) (position : Nat) :
    tokensFrom skip position (some c) (front ++ back) = (do
      let start ← tokensFrom skip position (some c) front
      let rest ← tokensFrom 0 (position + front.length) (front.getLast?.or (some c)) back
      return start ++ rest) := by
  induction front generalizing skip position c with
  | nil =>
      obtain rfl := Nat.le_zero.1 hskip
      show tokensFrom 0 position (some c) back =
        (tokensFrom 0 position (some c) back >>= fun rest => .ok rest)
      cases tokensFrom 0 position (some c) back <;> rfl
  | cons d front ih =>
      have hd : d ≠ '/' := fun heq => hfront (heq ▸ List.mem_cons_self)
      have hrest : '/' ∉ front := fun hmem => hfront (List.mem_cons_of_mem d hmem)
      have hlast : (d :: front).getLast?.or (some c) = front.getLast?.or (some d) := by
        rw [List.getLast?_cons]
        cases front.getLast? <;> rfl
      have hlength : position + (d :: front).length = position + 1 + front.length := by
        rw [List.length_cons]
        omega
      rw [hlast, hlength, List.cons_append]
      cases skip with
      | succ n => exact ih hrest hd (Nat.le_of_succ_le_succ hskip) (position + 1)
      | zero =>
          rw [tokensFrom, tokensFrom, tokenAt_append hc hclose hstar]
          cases hread : tokenAt position (some c) d front with
          | error e => rfl
          | ok read =>
              have hused := (tokenAt_inside hc hread).2
              obtain ⟨token, used⟩ := read
              simp only [ok_bind, ih hrest hd hused]
              cases tokensFrom used (position + 1) (some d) front with
              | error e => rfl
              | ok start =>
                  cases tokensFrom 0 (position + 1 + front.length) (front.getLast?.or (some d)) back
                  · rfl
                  · rfl

/-- Inside of a component nothing stands for any number of directories. -/
theorem anyDirectories_not_mem {text : List Char} (hwhole : '/' ∉ text) {c : Char} (hc : c ≠ '/')
    {skip position : Nat} {read : List Token}
    (h : tokensFrom skip position (some c) text = .ok read) : .anyDirectories ∉ read := by
  induction text generalizing skip position c read with
  | nil =>
      cases h
      exact List.not_mem_nil
  | cons d text ih =>
      have hd : d ≠ '/' := fun heq => hwhole (heq ▸ List.mem_cons_self)
      have hrest : '/' ∉ text := fun hmem => hwhole (List.mem_cons_of_mem d hmem)
      cases skip with
      | succ n => exact ih hrest hd h
      | zero =>
          rw [tokensFrom] at h
          obtain ⟨⟨token, used⟩, htoken, h⟩ := bind_eq_ok_iff.1 h
          obtain ⟨others, hothers, h⟩ := bind_eq_ok_iff.1 h
          cases h
          rw [List.mem_cons, not_or]
          exact ⟨(tokenAt_inside hc htoken).1.symm, ih hrest hd hothers⟩

end ExtensionPlan.Glob
