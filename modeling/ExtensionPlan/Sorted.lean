/-!
# Putting lists in order

`Sorted.ofList` cuts a list in halves, puts each half in order and merges them, so that elements
that compare equal stay in the order in which they came. It is the sort of the standard library
(`Sorted.ofList_eq_mergeSort`), written by recursion on the list and on the number of cuts: the
order of a given list can be computed inside a proof.

`Sorted.dictionaryLe` is the order in which a dictionary has its words.
-/

namespace ExtensionPlan.Sorted

variable {α : Type} (le : α → α → Bool)

/-! ## Sorting -/

/-- What comes of `x` and more elements when they are merged with a list; `others` merges those
that come after `x`. -/
def mergeFrom (x : α) (others : List α → List α) : List α → List α
  | [] => x :: others []
  | y :: ys => if le x y then x :: others (y :: ys) else y :: mergeFrom x others ys

/-- The elements of two lists that are in order, in order. -/
def merge : List α → List α → List α
  | [], ys => ys
  | x :: xs, ys => mergeFrom le x (merge xs) ys

/-- The list in order, if it can be cut in halves `cuts` times at most. -/
def ofHalves : Nat → List α → List α
  | 0, xs => xs
  | _ + 1, [] => []
  | _ + 1, [x] => [x]
  | cuts + 1, x :: y :: xs =>
    let all := x :: y :: xs
    let half := (all.length + 1) / 2
    merge le (ofHalves cuts (all.take half)) (ofHalves cuts (all.drop half))

/-- The elements of the list in order. -/
def ofList (xs : List α) : List α := ofHalves le xs.length xs

variable {le}

theorem merge_eq (xs ys : List α) : merge le xs ys = xs.merge ys le := by
  induction xs generalizing ys with
  | nil => simp [merge]
  | cons x xs ih =>
    rw [merge]
    induction ys with
    | nil => simp [mergeFrom, ih]
    | cons y ys ihy =>
      rw [mergeFrom, List.cons_merge_cons, ih, ihy]

theorem ofHalves_eq {cuts : Nat} {xs : List α} (enough : xs.length ≤ cuts) :
    ofHalves le cuts xs = xs.mergeSort le := by
  induction cuts generalizing xs with
  | zero =>
    obtain rfl : xs = [] := by simpa using enough
    simp [ofHalves]
  | succ cuts ih =>
    match xs with
    | [] => simp [ofHalves]
    | [x] => simp [ofHalves]
    | x :: y :: xs =>
      have front : ((x :: y :: xs).take (((x :: y :: xs).length + 1) / 2)).length ≤ cuts := by
        simp only [List.length_take, List.length_cons] at *; omega
      have back : ((x :: y :: xs).drop (((x :: y :: xs).length + 1) / 2)).length ≤ cuts := by
        simp only [List.length_drop, List.length_cons] at *; omega
      rw [ofHalves, ih front, ih back, merge_eq, List.mergeSort]
      simp only [List.MergeSort.Internal.splitInTwo_fst,
        List.MergeSort.Internal.splitInTwo_snd]

/-- The order is that of the library's sort, whatever `le` is. -/
theorem ofList_eq_mergeSort (xs : List α) : ofList le xs = xs.mergeSort le :=
  ofHalves_eq (Nat.le_refl _)

/-- Nothing is lost and nothing is added. -/
theorem ofList_perm (xs : List α) : (ofList le xs).Perm xs :=
  ofList_eq_mergeSort xs ▸ List.mergeSort_perm xs le

theorem mem_ofList {x : α} {xs : List α} : x ∈ ofList le xs ↔ x ∈ xs := (ofList_perm xs).mem_iff

/-- Each element is followed by none that it is above. -/
theorem pairwise_ofList (trans : ∀ a b c, le a b → le b c → le a c)
    (total : ∀ a b, le a b || le b a) (xs : List α) :
    (ofList le xs).Pairwise fun a b => le a b :=
  ofList_eq_mergeSort xs ▸ List.pairwise_mergeSort trans total xs

/-! ## The order of a dictionary -/

section Dictionary

variable [DecidableEq α]

/-- Is the first list not above the second? The first place where they differ decides, and a list
stands before those that it begins. -/
def dictionaryLe (le : α → α → Bool) : List α → List α → Bool
  | [], _ => true
  | _ :: _, [] => false
  | a :: as, b :: bs => if a = b then dictionaryLe le as bs else le a b

theorem dictionaryLe_total (total : ∀ a b, le a b || le b a) (as bs : List α) :
    dictionaryLe le as bs || dictionaryLe le bs as := by
  induction as generalizing bs with
  | nil => rfl
  | cons a as ih =>
    cases bs with
    | nil => rfl
    | cons b bs =>
      by_cases h : a = b
      · simpa [dictionaryLe, h] using ih bs
      · simpa [dictionaryLe, h, Ne.symm h] using total a b

/-- What two lists begin with in common makes no difference. -/
theorem dictionaryLe_append_left (front as bs : List α) :
    dictionaryLe le (front ++ as) (front ++ bs) = dictionaryLe le as bs := by
  induction front with
  | nil => rfl
  | cons a front ih => rw [List.cons_append, List.cons_append, dictionaryLe, if_pos rfl, ih]

/-- Lists that are not above each other are equal. -/
theorem dictionaryLe_antisymm (antisymm : ∀ a b, le a b → le b a → a = b) {as bs : List α}
    (hab : dictionaryLe le as bs) (hba : dictionaryLe le bs as) : as = bs := by
  induction as generalizing bs with
  | nil =>
    cases bs with
    | nil => rfl
    | cons b bs => simp [dictionaryLe] at hba
  | cons a as ih =>
    cases bs with
    | nil => simp [dictionaryLe] at hab
    | cons b bs =>
      by_cases h : a = b
      · subst h
        simp only [dictionaryLe, if_true] at hab hba
        rw [ih hab hba]
      · simp only [dictionaryLe, h, Ne.symm h, if_false] at hab hba
        exact absurd (antisymm a b hab hba) h

theorem dictionaryLe_trans (trans : ∀ a b c, le a b → le b c → le a c)
    (antisymm : ∀ a b, le a b → le b a → a = b) {as bs cs : List α}
    (hab : dictionaryLe le as bs) (hbc : dictionaryLe le bs cs) : dictionaryLe le as cs := by
  induction as generalizing bs cs with
  | nil => rfl
  | cons a as ih =>
    cases bs with
    | nil => simp [dictionaryLe] at hab
    | cons b bs =>
      cases cs with
      | nil => simp [dictionaryLe] at hbc
      | cons c cs =>
        by_cases hb : a = b <;> by_cases hc : b = c
        · subst hb hc
          simp only [dictionaryLe, if_true] at hab hbc ⊢
          exact ih hab hbc
        · subst hb
          simpa [dictionaryLe, hc] using hbc
        · subst hc
          simpa [dictionaryLe, hb] using hab
        · simp only [dictionaryLe, hb, hc, if_false] at hab hbc
          have hac : a ≠ c := fun h => hb (antisymm a b hab (h ▸ hbc))
          simpa [dictionaryLe, hac] using trans a b c hab hbc

end Dictionary

end ExtensionPlan.Sorted
