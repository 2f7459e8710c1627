import ExtensionPlan.Package.Assignment
import Mathlib.Data.List.Basic
import Mathlib.Data.List.TakeWhile

/-!
# ExtensionPlan.Proofs.Package.Assignment

**The last assignment wins.** A text is taken for an assignment exactly if it begins with one,
however it is spaced (`Assignment.at?_eq_some_iff`). Wherever one stands, it is found there, and
what is found before it makes no difference (`Assignment.lastFrom_append`). So it decides the flags
unless the text after it assigns them again (`Assignment.flags_append`).

The text is searched from the left, and what is found is skipped. So it has to be excluded that
something that begins earlier ends inside of the assignment, a text with an open quote for example
(`Assignment.IsAssignment.eq_nil_of_straddles`). It would be an assignment as well, so the cases are
where its two quotes are.
-/

namespace ExtensionPlan

namespace Assignment

open Text (isBlank)

/-! ### White space -/

/-- White space, as much of it as there may be, none included. -/
def IsBlanks (cs : List Char) : Prop := ∀ c ∈ cs, isBlank c = true

theorem IsBlanks.not_mem {blanks : List Char} (h : IsBlanks blanks) {c : Char}
    (hc : isBlank c = false) : c ∉ blanks := by
  intro hmem
  rw [h c hmem] at hc
  cases hc

theorem exists_dropWhile_isBlank (cs : List Char) :
    ∃ blanks, IsBlanks blanks ∧ cs = blanks ++ cs.dropWhile isBlank :=
  ⟨cs.takeWhile isBlank, fun _ => List.mem_takeWhile_imp,
    List.takeWhile_append_dropWhile.symm⟩

theorem dropWhile_isBlank_append {blanks : List Char} (h : IsBlanks blanks) {c : Char}
    (hc : isBlank c = false) (rest : List Char) :
    (blanks ++ c :: rest).dropWhile isBlank = c :: rest := by
  rw [List.dropWhile_append_of_pos h, List.dropWhile_cons, hc]
  rfl

/-- Some of the white space that comes first is left out. -/
theorem exists_of_afterBlanks {α : Type} {next : List Char → Option α} {cs : List Char} {a : α}
    (h : afterBlanks next cs = some a) :
    ∃ blanks rest, IsBlanks blanks ∧ cs = blanks ++ rest ∧ next rest = some a := by
  induction cs with
  | nil => exact ⟨[], [], by simp [IsBlanks], rfl, h⟩
  | cons c cs ih =>
      rw [afterBlanks] at h
      split at h
      · next hc =>
        rw [Option.orElse_eq_orElse, Option.orElse_eq_or, Option.or_eq_some_iff] at h
        rcases h with h | ⟨-, h⟩
        · obtain ⟨blanks, rest, hblanks, rfl, hnext⟩ := ih h
          exact ⟨c :: blanks, rest, by simpa [IsBlanks, hc] using hblanks, rfl, hnext⟩
        · exact ⟨[], c :: cs, by simp [IsBlanks], rfl, h⟩
      · exact ⟨[], c :: cs, by simp [IsBlanks], rfl, h⟩

/-- If something comes of the text after some white space then something is found, though it may be
after more of it. -/
theorem exists_afterBlanks {α : Type} {next : List Char → Option α} {blanks rest : List Char}
    (hblanks : IsBlanks blanks) {a : α} (h : next rest = some a) :
    ∃ b, afterBlanks next (blanks ++ rest) = some b := by
  induction blanks with
  | nil =>
      cases rest with
      | nil => exact ⟨a, h⟩
      | cons c rest =>
          rw [List.nil_append, afterBlanks, h]
          split
          · cases afterBlanks next rest with
            | none => exact ⟨a, rfl⟩
            | some b => exact ⟨b, rfl⟩
          · exact ⟨a, rfl⟩
  | cons c blanks ih =>
      obtain ⟨b, hb⟩ := ih fun d hd => hblanks d (List.mem_cons_of_mem c hd)
      rw [List.cons_append, afterBlanks, if_pos (hblanks c List.mem_cons_self), hb]
      exact ⟨b, rfl⟩

/-! ### What is found -/

/-- The text is what an assignment to the variable begins with, up to the value. -/
def IsOpening (name text : List Char) : Prop :=
  ∃ before between, IsBlanks before ∧ IsBlanks between ∧ between ≠ [] ∧
    text = "set(".toList ++ (before ++ (name ++ between))

/-- The text is an assignment of the value to the variable. -/
def IsAssignment (name value text : List Char) : Prop :=
  ∃ front behind, IsOpening name front ∧ '"' ∉ value ∧ IsBlanks behind ∧
    text = front ++ '"' :: (value ++ '"' :: (behind ++ [')']))

theorem after?_eq_some_iff {mark cs rest : List Char} :
    after? mark cs = some rest ↔ cs = mark ++ rest := by
  unfold after?
  split
  · next h =>
    obtain ⟨more, rfl⟩ := List.isPrefixOf_iff_prefix.1 h
    simp
  · next h =>
    simp only [reduceCtorEq, false_iff]
    rintro rfl
    exact h (List.isPrefixOf_iff_prefix.2 (List.prefix_append mark rest))

theorem after?_append (mark rest : List Char) : after? mark (mark ++ rest) = some rest :=
  after?_eq_some_iff.2 rfl

theorem exists_of_nameAndValue? {name cs value rest : List Char}
    (h : nameAndValue? name cs = some (value, rest)) :
    ∃ between after, IsBlanks between ∧ between ≠ [] ∧ IsBlanks after ∧ '"' ∉ value ∧
      cs = name ++ (between ++ '"' :: (value ++ '"' :: (after ++ ')' :: rest))) := by
  unfold nameAndValue? at h
  obtain ⟨named, hnamed, h⟩ := Option.bind_eq_some_iff.1 h
  dsimp only at h
  split at h
  · next hblank =>
    obtain ⟨spaced, hdropped, h⟩ := Option.bind_eq_some_iff.1 h
    cases hdropped
    obtain ⟨quoted, hquoted, h⟩ := Option.bind_eq_some_iff.1 h
    obtain ⟨closed, hclosed, h⟩ := Option.bind_eq_some_iff.1 h
    obtain ⟨ended, hended, h⟩ := Option.bind_eq_some_iff.1 h
    cases h
    rw [after?_eq_some_iff] at hnamed hquoted hclosed hended
    obtain ⟨between, hbetween, hspaced⟩ := exists_dropWhile_isBlank named
    obtain ⟨after, hafter, htail⟩ := exists_dropWhile_isBlank closed
    have hvalue := List.takeWhile_append_dropWhile (p := (· != '"')) (l := quoted)
    have hunquoted : '"' ∉ quoted.takeWhile (· != '"') := by
      intro hmem
      simpa using List.mem_takeWhile_imp hmem
    generalize quoted.takeWhile (· != '"') = value at hvalue hunquoted
    rw [hclosed, htail, hended] at hvalue
    refine ⟨between, after, hbetween, ?_, hafter, hunquoted, ?_⟩
    · rintro rfl
      -- the quote is no white space
      rw [hspaced, hquoted] at hblank
      cases hblank
    · rw [hnamed, hspaced, hquoted, ← hvalue]
      simp
  · cases h

theorem nameAndValue?_append (name : List Char) {between value after : List Char}
    (hbetween : IsBlanks between) (hfilled : between ≠ []) (hvalue : '"' ∉ value)
    (hafter : IsBlanks after) (rest : List Char) :
    nameAndValue? name
      (name ++ (between ++ '"' :: (value ++ '"' :: (after ++ ')' :: rest)))) =
        some (value, rest) := by
  have hinside : ∀ c ∈ value, (c != '"') = true := by
    intro c hc
    rw [bne_iff_ne]
    rintro rfl
    exact hvalue hc
  have hblank : ∀ cs, (between ++ cs).head?.any isBlank = true := by
    intro cs
    obtain ⟨c, more, rfl⟩ := List.exists_cons_of_ne_nil hfilled
    exact hbetween c List.mem_cons_self
  have htake : (value ++ '"' :: (after ++ ')' :: rest)).takeWhile (· != '"') = value := by
    rw [List.takeWhile_append_of_pos hinside]
    simp
  have hdrop : (value ++ '"' :: (after ++ ')' :: rest)).dropWhile (· != '"') =
      '"' :: (after ++ ')' :: rest) := by
    rw [List.dropWhile_append_of_pos hinside]
    rfl
  have hquote : ∀ cs, after? ['"'] ('"' :: cs) = some cs := after?_append ['"']
  have hclose : after? [')'] (')' :: rest) = some rest := after?_append [')'] rest
  unfold nameAndValue?
  rw [after?_append]
  dsimp only [Option.bind_eq_bind, Option.bind_some]
  rw [if_pos (hblank _), dropWhile_isBlank_append hbetween (by decide), hquote]
  dsimp only [Option.bind_some]
  rw [htake, hdrop, hquote]
  dsimp only [Option.bind_some]
  rw [dropWhile_isBlank_append hafter (by decide), hclose]
  rfl

/-- Whatever is taken for an assignment begins the text and is one. -/
theorem exists_of_at? {name cs value rest : List Char} (h : at? name cs = some (value, rest)) :
    ∃ text, IsAssignment name value text ∧ cs = text ++ rest := by
  obtain ⟨opened, hopened, h⟩ := Option.bind_eq_some_iff.1 h
  rw [after?_eq_some_iff] at hopened
  obtain ⟨before, named, hbefore, hspaced, hnamed⟩ := exists_of_afterBlanks h
  obtain ⟨between, behind, hbetween, hfilled, hbehind, hvalue, hvalued⟩ :=
    exists_of_nameAndValue? hnamed
  have hfront : IsOpening name ("set(".toList ++ (before ++ (name ++ between))) :=
    ⟨before, between, hbefore, hbetween, hfilled, rfl⟩
  refine ⟨_, ⟨_, behind, hfront, hvalue, hbehind, rfl⟩, ?_⟩
  rw [hopened, hspaced, hvalued]
  simp only [List.append_assoc, List.cons_append, List.nil_append]

/-- Texts that are cut at the first place of a character agree if they do as a whole. -/
theorem cut_unique {c : Char} {front front' back back' : List Char} (hfront : c ∉ front)
    (hfront' : c ∉ front') (h : front ++ c :: back = front' ++ c :: back') :
    front = front' ∧ back = back' := by
  induction front generalizing front' with
  | nil =>
      cases front' with
      | nil => exact ⟨rfl, (List.cons.inj h).2⟩
      | cons d front' => exact absurd (List.cons.inj h).1 (fun hc => hfront' (by simp [hc]))
  | cons d front ih =>
      cases front' with
      | nil => exact absurd (List.cons.inj h).1 (fun hc => hfront (by simp [hc]))
      | cons d' front' =>
          obtain ⟨rfl, hrest⟩ := List.cons.inj h
          obtain ⟨rfl, rfl⟩ := ih (fun hc => hfront (List.mem_cons_of_mem d hc))
            (fun hc => hfront' (List.mem_cons_of_mem d hc)) hrest
          exact ⟨rfl, rfl⟩

theorem IsOpening.unquoted {name front : List Char} (h : IsOpening name front)
    (hname : '"' ∉ name) : '"' ∉ front := by
  obtain ⟨before, between, hbefore, hbetween, -, rfl⟩ := h
  have hset : '"' ∉ "set(".toList := by decide
  simp only [List.mem_append, not_or]
  exact ⟨hset, hbefore.not_mem (by decide), hname, hbetween.not_mem (by decide)⟩

/-- A text begins with one assignment at most: its quotes and the parenthesis at its end are the
first ones. -/
theorem IsAssignment.unique {name value value' text text' rest rest' : List Char}
    (hname : '"' ∉ name) (h : IsAssignment name value text) (h' : IsAssignment name value' text')
    (heq : text ++ rest = text' ++ rest') : value = value' ∧ rest = rest' := by
  obtain ⟨front, behind, hfront, hvalue, hbehind, rfl⟩ := h
  obtain ⟨front', behind', hfront', hvalue', hbehind', rfl⟩ := h'
  simp only [List.append_assoc, List.cons_append, List.nil_append] at heq
  obtain ⟨-, hvalues⟩ := cut_unique (hfront.unquoted hname) (hfront'.unquoted hname) heq
  obtain ⟨hsame, hends⟩ := cut_unique hvalue hvalue' hvalues
  have hclosed : ∀ {blanks : List Char}, IsBlanks blanks → ')' ∉ blanks := fun hblanks =>
    hblanks.not_mem (by decide)
  exact ⟨hsame, (cut_unique (hclosed hbehind) (hclosed hbehind') hends).2⟩

/-- **What is found.** A text is taken for an assignment exactly if it begins with one. However the
white space is shared out between the two places in front of the value, the value is the same. -/
theorem at?_eq_some_iff {name cs value rest : List Char} (hname : '"' ∉ name) :
    at? name cs = some (value, rest) ↔
      ∃ text, IsAssignment name value text ∧ cs = text ++ rest := by
  constructor
  · exact exists_of_at?
  · rintro ⟨text, hassigned, rfl⟩
    obtain ⟨⟨value', rest'⟩, hfound⟩ : ∃ found, at? name (text ++ rest) = some found := by
      obtain ⟨front, behind, ⟨before, between, hbefore, hbetween, hfilled, rfl⟩, hvalue, hbehind,
        rfl⟩ := hassigned
      have hnamed := nameAndValue?_append name hbetween hfilled hvalue hbehind rest
      simp only [List.append_assoc, List.cons_append, List.nil_append] at hnamed ⊢
      rw [at?, after?_append]
      exact exists_afterBlanks hbefore hnamed
    obtain ⟨text', hassigned', heq⟩ := exists_of_at? hfound
    obtain ⟨rfl, rfl⟩ := hassigned.unique hname hassigned' heq
    exact hfound

/-- An assignment begins with a letter, so there is no empty one. -/
theorem IsAssignment.exists_cons {name value text : List Char} (h : IsAssignment name value text) :
    ∃ more, text = 's' :: more := by
  obtain ⟨front, behind, ⟨before, between, -, -, -, rfl⟩, -, -, rfl⟩ := h
  exact ⟨_, rfl⟩

/-! ### Assignments next to each other -/

/-- A name that is told from what stands around it. -/
structure IsVariable (name : List Char) : Prop where
  unbroken : ∀ c ∈ name, isBlank c = false
  unopened : '(' ∉ name
  unquoted : '"' ∉ name

/-- Letters, digits and underscores make up such names. -/
theorem IsVariable.of_isAlphanum {name : List Char}
    (h : (name.all fun c => c.isAlphanum || c == '_') = true) : IsVariable name := by
  have hrange : ∀ c ∈ name, 48 ≤ c.toNat ∧ c.toNat ≤ 122 := by
    intro c hc
    have hmade := List.all_eq_true.1 h c hc
    rw [Bool.or_eq_true, beq_iff_eq] at hmade
    rcases hmade with hword | rfl
    · -- letters and digits are known by their codes
      change ((decide (65 ≤ c.val ∧ c.val ≤ 90) || (decide (97 ≤ c.val) && decide (c.val ≤ 122))) ||
        (decide (48 ≤ c.val) && decide (c.val ≤ 57))) = true at hword
      simp only [Bool.or_eq_true, Bool.and_eq_true, decide_eq_true_eq,
        UInt32.le_iff_toNat_le] at hword
      change ((65 ≤ c.toNat ∧ c.toNat ≤ 90) ∨ (97 ≤ c.toNat ∧ c.toNat ≤ 122)) ∨
        (48 ≤ c.toNat ∧ c.toNat ≤ 57) at hword
      omega
    · decide
  refine ⟨fun c hc => ?_, fun hc => absurd (hrange _ hc) (by decide),
    fun hc => absurd (hrange _ hc) (by decide)⟩
  have hc := hrange c hc
  simp only [isBlank, Bool.or_eq_false_iff, Bool.and_eq_false_iff, decide_eq_false_iff_not,
    beq_eq_false_iff_ne]
  omega

variable {name value text : List Char}

/-- In what stands before a value there is one parenthesis, so nothing of the kind begins inside of
it. -/
theorem IsOpening.eq_nil (hname : IsVariable name) {front back : List Char}
    (h : IsOpening name (front ++ back)) (hback : IsOpening name back) : front = [] := by
  obtain ⟨before, between, hbefore, hbetween, -, heq⟩ := h
  obtain ⟨before', between', -, -, -, rfl⟩ := hback
  have hset : "set(".toList = "set".toList ++ ['('] := by decide
  have hrest : '(' ∉ before ++ (name ++ between) := by
    simp only [List.mem_append, not_or]
    exact ⟨hbefore.not_mem (by decide), hname.unopened, hbetween.not_mem (by decide)⟩
  have hcut : "set".toList ++ '(' :: (before ++ (name ++ between)) =
      (front ++ "set".toList) ++ '(' :: (before' ++ (name ++ between')) := by
    simpa [hset] using heq.symm
  have hwhole : "set".toList = front ++ "set".toList :=
    ((List.append_cons_inj_of_notMem (by decide) hrest).1 hcut).1
  exact List.self_eq_append_left.1 hwhole

/-- An assignment that begins before another one does not end inside of it. Its quotes come both
before the other one, both inside of it, or one here and one there. -/
theorem IsAssignment.eq_nil_of_straddles (hname : IsVariable name)
    (h : IsAssignment name value text) (hvalue : ')' ∉ value)
    {front back other rest after : List Char} (hfront : front ≠ [])
    (hother : IsAssignment name other (front ++ back)) (hback : back ++ rest = text ++ after) :
    back = [] := by
  obtain ⟨opening, behind, hopening, -, hbehind, rfl⟩ := h
  obtain ⟨opening', behind', hopening', hother, hbehind', htext⟩ := hother
  have hunquoted := hopening.unquoted hname.unquoted
  by_contra hne
  obtain ⟨c, more, rfl⟩ := List.exists_cons_of_ne_nil hne
  obtain rfl : c = 's' := by
    obtain ⟨before, between, -, -, -, rfl⟩ := hopening
    exact (List.cons.inj hback).1
  simp only [List.append_assoc, List.cons_append, List.nil_append] at hback
  rw [← List.cons_append] at hback
  rcases List.append_eq_append_iff.1 htext with ⟨own, rfl, htail⟩ | ⟨own, -, hquoted⟩
  · -- both quotes inside: all that stands before a value is inside as well
    rw [htail, List.append_assoc, List.cons_append] at hback
    have hown : '"' ∉ own := fun hmem =>
      hopening'.unquoted hname.unquoted (List.mem_append_right front hmem)
    obtain ⟨rfl, -⟩ := cut_unique hown hunquoted hback
    exact hfront (hopening'.eq_nil hname hopening)
  · cases own with
    | nil => cases hquoted
    | cons quote own =>
        rcases List.append_eq_append_iff.1 (List.cons.inj hquoted).2 with
          ⟨own', -, htail⟩ | ⟨own', rfl, htail⟩
        · -- both quotes before: what follows them does not begin a word
          have hmem : 's' ∈ '"' :: (behind' ++ [')']) := by
            rw [htail]
            simp
          have hword := hbehind'.not_mem (c := 's') (by decide)
          simp [hword] at hmem
        · -- the opening quote is taken for a closing one, and no parenthesis follows
          rw [htail, List.append_assoc, List.cons_append] at hback
          have hown : '"' ∉ own' := fun hmem => hother (List.mem_append_right own hmem)
          obtain ⟨-, hends⟩ := cut_unique hown hunquoted hback
          have hcut : behind' ++ ')' :: rest = (value ++ '"' :: behind) ++ ')' :: after := by
            simpa using hends
          have hclosed : ')' ∉ value ++ '"' :: behind := by
            simpa [hvalue] using hbehind.not_mem (c := ')') (by decide)
          obtain ⟨rfl, -⟩ := cut_unique (hbehind'.not_mem (by decide)) hclosed hcut
          exact hbehind'.not_mem (c := '"') (by decide) (by simp)

/-- What begins before an assignment ends before it. -/
theorem IsAssignment.length_le_of_at? (hname : IsVariable name)
    (h : IsAssignment name value text) (hvalue : ')' ∉ value) {front after other rest : List Char}
    (hfront : front ≠ []) (hfound : at? name (front ++ (text ++ after)) = some (other, rest)) :
    (text ++ after).length ≤ rest.length := by
  obtain ⟨found, hother, heq⟩ := exists_of_at? hfound
  rcases List.append_eq_append_iff.1 heq with ⟨back, rfl, hback⟩ | ⟨between, -, rfl⟩
  · rw [hback, h.eq_nil_of_straddles hname hvalue hfront hother hback.symm, List.nil_append]
  · exact (List.suffix_append between _).length_le

/-! ### The search -/

/-- Where nothing that begins in front reaches into the rest, the search comes to the rest. -/
theorem exists_lastFrom_append {back : List Char}
    (h : ∀ front value rest, front ≠ [] → at? name (front ++ back) = some (value, rest) →
      back.length ≤ rest.length) {front : List Char} {skip : Nat} (hskip : skip ≤ front.length)
    (latest : Option (List Char)) :
    ∃ earlier, lastFrom name skip latest (front ++ back) = lastFrom name 0 earlier back := by
  induction front generalizing skip latest with
  | nil =>
      obtain rfl : skip = 0 := by simpa using hskip
      exact ⟨latest, rfl⟩
  | cons c front ih =>
      rw [List.cons_append]
      cases skip with
      | succ skip => exact ih (by simpa using hskip) latest
      | zero =>
          rw [lastFrom]
          split
          · next value rest hfound =>
            have hlength := h (c :: front) value rest (List.cons_ne_nil c front) hfound
            refine ih ?_ _
            rw [List.length_append]
            omega
          · exact ih (Nat.zero_le _) latest

theorem lastFrom_skip (front back : List Char) (latest : Option (List Char)) :
    lastFrom name front.length latest (front ++ back) = lastFrom name 0 latest back := by
  induction front with
  | nil => rfl
  | cons c front ih => exact ih

/-- What was found before counts only where nothing is found. -/
theorem lastFrom_eq_or (skip : Nat) (latest : Option (List Char)) (cs : List Char) :
    lastFrom name skip latest cs = (lastFrom name skip none cs).or latest := by
  induction cs generalizing skip latest with
  | nil => simp [lastFrom]
  | cons c cs ih =>
      cases skip with
      | succ skip => exact ih skip latest
      | zero =>
          rw [lastFrom, lastFrom]
          split
          · next found rest _ =>
            rw [ih _ (some found)]
            simp
          · exact ih 0 latest

/-- **The last assignment wins.** It is not missed, and after it only what follows counts. -/
theorem lastFrom_append (hname : IsVariable name) (h : IsAssignment name value text)
    (hvalue : ')' ∉ value) (before after : List Char) :
    lastFrom name 0 none (before ++ (text ++ after)) =
      (lastFrom name 0 none after).or (some value) := by
  have hends : ∀ front other rest, front ≠ [] →
      at? name (front ++ (text ++ after)) = some (other, rest) →
        (text ++ after).length ≤ rest.length :=
    fun front other rest hfront hfound => h.length_le_of_at? hname hvalue hfront hfound
  obtain ⟨earlier, hbefore⟩ := exists_lastFrom_append hends (Nat.zero_le before.length) none
  have hfound : at? name (text ++ after) = some (value, after) :=
    (at?_eq_some_iff hname.unquoted).2 ⟨text, h, rfl⟩
  obtain ⟨more, rfl⟩ := h.exists_cons
  rw [List.cons_append] at hbefore hfound
  rw [List.cons_append, hbefore, lastFrom, hfound]
  dsimp only
  rw [List.length_append, Nat.add_sub_cancel, lastFrom_skip, lastFrom_eq_or]

/-- What is found last is the value of an assignment after which nothing is found. -/
theorem exists_of_lastFrom {cs : List Char} {skip : Nat}
    (h : lastFrom name skip none cs = some value) :
    ∃ front text back, IsAssignment name value text ∧ cs = front ++ (text ++ back) ∧
      lastFrom name 0 none back = none := by
  induction cs generalizing skip with
  | nil => cases h
  | cons c cs ih =>
      have hrest : ∀ {skip : Nat}, lastFrom name skip none cs = some value →
          ∃ front text back, IsAssignment name value text ∧ c :: cs = front ++ (text ++ back) ∧
            lastFrom name 0 none back = none := by
        intro skip hlater
        obtain ⟨front, text, back, hassigned, rfl, hback⟩ := ih hlater
        exact ⟨c :: front, text, back, hassigned, rfl, hback⟩
      cases skip with
      | succ skip => exact hrest h
      | zero =>
          rw [lastFrom] at h
          split at h
          · next found rest hfound =>
            rw [lastFrom_eq_or, Option.or_eq_some_iff] at h
            rcases h with h | ⟨hnone, hvalue⟩
            · exact hrest h
            · cases hvalue
              obtain ⟨text, hassigned, heq⟩ := exists_of_at? hfound
              refine ⟨[], text, rest, hassigned, heq, ?_⟩
              -- what is skipped is the text without its first character
              obtain ⟨more, rfl⟩ := hassigned.exists_cons
              rw [List.cons_append] at heq
              obtain ⟨rfl, rfl⟩ := List.cons.inj heq
              rwa [List.length_append, Nat.add_sub_cancel, lastFrom_skip] at hnone
          · exact hrest h

/-- Without a quote nothing is assigned. -/
theorem lastFrom_of_unquoted {cs : List Char} (h : '"' ∉ cs) (name : List Char) (skip : Nat) :
    lastFrom name skip none cs = none := by
  induction cs generalizing skip with
  | nil => rfl
  | cons c cs ih =>
      have hrest : '"' ∉ cs := fun hmem => h (List.mem_cons_of_mem c hmem)
      cases skip with
      | succ skip => exact ih hrest skip
      | zero =>
          rw [lastFrom]
          split
          · next value rest hfound =>
            obtain ⟨text, hassigned, heq⟩ := exists_of_at? hfound
            obtain ⟨front, behind, -, -, -, rfl⟩ := hassigned
            rw [heq] at h
            simp at h
          · exact ih hrest 0

/-! ### Flags -/

section Flags

variable {name value before after : String}

theorem isAssignment_toList (name : String) (hquote : '"' ∉ value.toList) :
    IsAssignment name.toList value.toList ("set(" ++ name ++ " \"" ++ value ++ "\")").toList := by
  have hspace : " \"".toList = [' ', '"'] := rfl
  have hend : "\")".toList = ['"', ')'] := rfl
  have hblank : IsBlanks [' '] := by simp [IsBlanks, isBlank]
  have hfront : IsOpening name.toList ("set(".toList ++ ([] ++ (name.toList ++ [' ']))) :=
    ⟨[], [' '], by simp [IsBlanks], hblank, List.cons_ne_nil ' ' [], rfl⟩
  refine ⟨_, [], hfront, hquote, by simp [IsBlanks], ?_⟩
  simp [hspace, hend]

/-- What an assignment assigns counts unless the text after it assigns something else. -/
theorem last?_append (hname : IsVariable name.toList) (hquote : '"' ∉ value.toList)
    (hclose : ')' ∉ value.toList) (before after : String) :
    last? name (before ++ ("set(" ++ name ++ " \"" ++ value ++ "\")") ++ after) =
      (last? name after).or (some value) := by
  unfold last?
  rw [String.toList_append, String.toList_append, List.append_assoc,
    lastFrom_append hname (isAssignment_toList name hquote) hclose]
  cases lastFrom name.toList 0 none after.toList <;> simp

/-- The value that a text assigns last is assigned last in all that ends in the text. -/
theorem last?_append_of_eq_some {text : String} (hname : IsVariable name.toList)
    (h : last? name text = some value) (hclose : ')' ∉ value.toList) (before : String) :
    last? name (before ++ text) = some value := by
  obtain ⟨chars, hlast, rfl⟩ := Option.map_eq_some_iff.1 h
  rw [String.toList_ofList] at hclose
  obtain ⟨front, assigned, back, hassigned, htext, hnone⟩ := exists_of_lastFrom hlast
  rw [last?, String.toList_append, htext, ← List.append_assoc,
    lastFrom_append hname hassigned hclose, hnone]
  rfl

/-- **Later assignments win.** The flags are those of an assignment after which there is no quote,
whatever stands before it. -/
theorem flags_append (hname : IsVariable name.toList) (hquote : '"' ∉ value.toList)
    (hclose : ')' ∉ value.toList) (hafter : '"' ∉ after.toList) :
    flags name (before ++ ("set(" ++ name ++ " \"" ++ value ++ "\")") ++ after) =
      .parse value := by
  have hnone : last? name after = none := by
    rw [last?, lastFrom_of_unquoted hafter]
    rfl
  rw [flags, last?_append hname hquote hclose, hnone]
  rfl

/-- A quote that is left open in front does not take in what comes later. -/
theorem flags_append_open : IsVariable "CXX_FLAGS".toList ∧ '"' ∉ "-DNEW=1".toList ∧
    ')' ∉ "-DNEW=1".toList ∧ '"' ∉ "\nendif()\n".toList ∧
    flags "CXX_FLAGS" ("set(CXX_FLAGS \"-DOLD=0\")\nset( CXX_FLAGS \"\n" ++
      ("set(" ++ "CXX_FLAGS" ++ " \"" ++ "-DNEW=1" ++ "\")") ++ "\nendif()\n") =
        .parse "-DNEW=1" := by
  have hname : IsVariable "CXX_FLAGS".toList := .of_isAlphanum (by decide)
  exact ⟨hname, by decide, by decide, by decide,
    flags_append hname (by decide) (by decide) (by decide)⟩

end Flags

end Assignment

end ExtensionPlan
