import ExtensionPlan.Text.Utf8
import Mathlib.Data.List.Basic

/-!
# ExtensionPlan.Proofs.Text.Utf8

**Reading back a text.** The bytes that are written for a character begin with that character, and
what follows them is read as if it stood alone (`Text.Utf8.exists_first`). So what is written for a
text is read without a fault, and as that text (`Text.Utf8.read_encode`).

There are four forms of characters, by how many bytes they take. Each has a lemma of its own on what
is read, with the bounds of the first byte as numbers.
-/

namespace ExtensionPlan.Text.Utf8

/-! ### Bytes as numbers -/

theorem isTail_iff {b : UInt8} : isTail b = true ↔ 0x80 ≤ b.toNat ∧ b.toNat ≤ 0xBF := by
  simp [isTail, UInt8.le_iff_toNat_le]

theorem isSecond_iff {a b : UInt8} : isSecond a b = true ↔
    0x80 ≤ b.toNat ∧ b.toNat ≤ 0xBF ∧ (a.toNat = 0xE0 → 0xA0 ≤ b.toNat) ∧
      (a.toNat = 0xED → b.toNat ≤ 0x9F) ∧ (a.toNat = 0xF0 → 0x90 ≤ b.toNat) ∧
      (a.toNat = 0xF4 → b.toNat ≤ 0x8F) := by
  have hfirst : ∀ n : Nat, n < 256 → ((a == UInt8.ofNat n) = true ↔ a.toNat = n) := by
    intro n hn
    rw [beq_iff_eq, ← UInt8.toNat_inj, UInt8.toNat_ofNat', Nat.mod_eq_of_lt hn]
  have hE0 := hfirst 0xE0 (by decide)
  have hED := hfirst 0xED (by decide)
  have hF0 := hfirst 0xF0 (by decide)
  have hF4 := hfirst 0xF4 (by decide)
  unfold isSecond
  repeat' split
  all_goals simp_all [isTail, UInt8.le_iff_toNat_le] <;> omega

theorem toNat_ofNat_of_lt {n : Nat} (h : n < 256) : (UInt8.ofNat n).toNat = n := by
  rw [UInt8.toNat_ofNat', Nat.mod_eq_of_lt h]

/-- A byte that continues a character, by the six bits that it carries. -/
theorem toNat_tail (n : Nat) : (UInt8.ofNat (n % 64 + 128)).toNat = n % 64 + 128 :=
  toNat_ofNat_of_lt (by omega)

theorem isTail_tail (n : Nat) : isTail (UInt8.ofNat (n % 64 + 128)) = true := by
  rw [isTail_iff, toNat_tail]
  omega

theorem payload_tail (n : Nat) : payload (UInt8.ofNat (n % 64 + 128)) = n % 64 := by
  rw [payload, toNat_tail]
  omega

/-! ### One character -/

section

variable {a b c d : UInt8} (rest : List UInt8)

theorem first_one (ha : a.toNat ≤ 0x7F) : first a rest = (some (.ofNat a.toNat), 0) := by
  rw [first.eq_def, if_pos (UInt8.lt_iff_toNat_lt.2 (Nat.lt_succ_of_le ha))]

theorem first_two (ha : 0xC2 ≤ a.toNat ∧ a.toNat ≤ 0xDF) (hb : isTail b = true) :
    first a (b :: rest) = (some (.ofNat (a.toNat % 32 * 64 + payload b)), 1) := by
  have hone : ¬ a < 0x80 := by simp [UInt8.lt_iff_toNat_lt]; omega
  have htwo : (0xC2 ≤ a && a ≤ 0xDF) = true := by simpa [UInt8.le_iff_toNat_le] using ha
  simp only [first, hone, htwo, hb, if_true, if_false]

theorem first_three (ha : 0xE0 ≤ a.toNat ∧ a.toNat ≤ 0xEF) (hb : isSecond a b = true)
    (hc : isTail c = true) : first a (b :: c :: rest) =
      (some (.ofNat ((a.toNat % 16 * 64 + payload b) * 64 + payload c)), 2) := by
  have hone : ¬ a < 0x80 := by simp [UInt8.lt_iff_toNat_lt]; omega
  have htwo : (0xC2 ≤ a && a ≤ 0xDF) = false := by simp [UInt8.le_iff_toNat_le]; omega
  have hthree : (0xE0 ≤ a && a ≤ 0xEF) = true := by simpa [UInt8.le_iff_toNat_le] using ha
  simp [first, hone, htwo, hthree, hb, hc]

theorem first_four (ha : 0xF0 ≤ a.toNat ∧ a.toNat ≤ 0xF4) (hb : isSecond a b = true)
    (hc : isTail c = true) (hd : isTail d = true) : first a (b :: c :: d :: rest) =
      (some (.ofNat (((a.toNat % 8 * 64 + payload b) * 64 + payload c) * 64 + payload d)), 3) := by
  have hone : ¬ a < 0x80 := by simp [UInt8.lt_iff_toNat_lt]; omega
  have htwo : (0xC2 ≤ a && a ≤ 0xDF) = false := by simp [UInt8.le_iff_toNat_le]; omega
  have hthree : (0xE0 ≤ a && a ≤ 0xEF) = false := by simp [UInt8.le_iff_toNat_le]; omega
  have hfour : (0xF0 ≤ a && a ≤ 0xF4) = true := by simpa [UInt8.le_iff_toNat_le] using ha
  simp [first, hone, htwo, hthree, hfour, hb, hc, hd]

end

/-- The bytes of a character begin with that character, whatever follows them. -/
theorem exists_first (c : Char) (rest : List UInt8) :
    ∃ a others, String.utf8EncodeChar c = a :: others ∧
      first a (others ++ rest) = (some c, others.length) := by
  have hvalid : c.toNat < 0xD800 ∨ 0xDFFF < c.toNat ∧ c.toNat < 0x110000 := c.valid
  have hchar : ∀ {n : Nat}, n = c.toNat → Char.ofNat n = c := by
    rintro n rfl
    exact Char.ofNat_toNat c
  unfold String.utf8EncodeChar
  simp only [show c.val.toNat = c.toNat from rfl]
  -- the cases are those of the encoder: one byte to four
  split
  · have ha := toNat_ofNat_of_lt (show c.toNat < 256 by omega)
    refine ⟨_, [], rfl, ?_⟩
    rw [first_one _ (by omega), ha, hchar rfl]
    rfl
  split
  · have ha := toNat_ofNat_of_lt (show c.toNat / 64 % 32 + 192 < 256 by omega)
    refine ⟨_, _, rfl, ?_⟩
    rw [List.cons_append, List.nil_append, first_two _ (by omega) (isTail_tail _), ha, payload_tail,
      hchar (by omega)]
    rfl
  split
  · have ha := toNat_ofNat_of_lt (show c.toNat / 4096 % 16 + 224 < 256 by omega)
    have hb : isSecond (.ofNat (c.toNat / 4096 % 16 + 224))
        (.ofNat (c.toNat / 64 % 64 + 128)) = true := by
      rw [isSecond_iff, ha, toNat_tail]
      omega
    refine ⟨_, _, rfl, ?_⟩
    rw [List.cons_append, List.cons_append, List.nil_append,
      first_three _ (by omega) hb (isTail_tail _), ha, payload_tail, payload_tail, hchar (by omega)]
    rfl
  · have ha := toNat_ofNat_of_lt (show c.toNat / 262144 % 8 + 240 < 256 by omega)
    have hb : isSecond (.ofNat (c.toNat / 262144 % 8 + 240))
        (.ofNat (c.toNat / 4096 % 64 + 128)) = true := by
      rw [isSecond_iff, ha, toNat_tail]
      omega
    refine ⟨_, _, rfl, ?_⟩
    rw [List.cons_append, List.cons_append, List.cons_append, List.nil_append,
      first_four _ (by omega) hb (isTail_tail _) (isTail_tail _), ha, payload_tail, payload_tail,
      payload_tail, hchar (by omega)]
    rfl

/-! ### Characters one after the other -/

theorem encode_nil : encode [] = [] := rfl

theorem encode_cons (c : Char) (text : List Char) :
    encode (c :: text) = String.utf8EncodeChar c ++ encode text := List.flatMap_cons

theorem encode_append (s t : List Char) : encode (s ++ t) = encode s ++ encode t :=
  List.flatMap_append

/-- A character of the lower half is one byte. -/
theorem encode_cons_of_lt {c : Char} (h : c.toNat < 0x80) (text : List Char) :
    encode (c :: text) = .ofNat c.toNat :: encode text := by
  have hone : String.utf8EncodeChar c = [.ofNat c.toNat] := by
    unfold String.utf8EncodeChar
    exact if_pos (Nat.le_of_lt_succ h)
  rw [encode_cons, hone]
  rfl

/-- The bytes of any other character are none of the lower half, and none of the last ones, which no
text has. -/
theorem bounds_of_mem_utf8EncodeChar {c : Char} (h : 0x80 ≤ c.toNat) :
    ∀ b ∈ String.utf8EncodeChar c, 0x80 ≤ b.toNat ∧ b.toNat < 0xF8 := by
  unfold String.utf8EncodeChar
  simp only [show c.val.toNat = c.toNat from rfl]
  rw [if_neg (by omega)]
  repeat' split
  all_goals
    simp only [List.forall_mem_cons, List.not_mem_nil, false_implies, implies_true, and_true,
      UInt8.toNat_ofNat']
    omega

/-- The last bytes stand in no text. -/
theorem lt_of_mem_encode {text : List Char} {b : UInt8} (h : b ∈ encode text) : b.toNat < 0xF8 := by
  obtain ⟨c, -, hb⟩ := List.mem_flatMap.1 h
  by_cases hc : c.toNat < 0x80
  · have hone := encode_cons_of_lt hc []
    rw [encode_cons, encode_nil, List.append_nil] at hone
    rw [hone, List.mem_singleton] at hb
    rw [hb, toNat_ofNat_of_lt (by omega)]
    omega
  · exact (bounds_of_mem_utf8EncodeChar (Nat.le_of_not_lt hc) b hb).2

/-! ### A text -/

theorem readFrom_append (bytes rest : List UInt8) :
    readFrom bytes.length (bytes ++ rest) = readFrom 0 rest := by
  induction bytes with
  | nil => rfl
  | cons b bytes ih => simpa [readFrom] using ih

/-- **Reading back a text.** What is written for a text is read as its characters. -/
theorem read_encode (text : List Char) : read (encode text) = text.map some := by
  induction text with
  | nil => rfl
  | cons c text ih =>
      obtain ⟨a, others, hc, hfirst⟩ := exists_first c (encode text)
      have hencode : encode (c :: text) = a :: (others ++ encode text) := by
        rw [encode_cons, hc]
        rfl
      rw [read, hencode, readFrom, hfirst, readFrom_append]
      exact congrArg (some c :: ·) ih

theorem text?_encode (text : List Char) : text? (encode text) = some (.ofList text) := by
  have hmap : (text.map some).mapM id = some text := by
    rw [List.mapM_map]
    simpa using List.mapM_pure (m := Option) (l := text) (f := id)
  rw [text?, read_encode, hmap]
  rfl

theorem textWithReplacements_encode (text : List Char) :
    textWithReplacements (encode text) = .ofList text := by
  rw [textWithReplacements, read_encode, List.map_map]
  exact congrArg String.ofList (List.map_id text)

/-- Texts are kept apart by what is written for them. -/
theorem encode_injective {s t : List Char} (h : encode s = encode t) : s = t := by
  have hread := read_encode s
  rw [h, read_encode t] at hread
  exact (List.map_injective_iff.2 (fun _ _ => Option.some.inj) hread).symm

end ExtensionPlan.Text.Utf8
