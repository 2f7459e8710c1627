import ExtensionPlan.Proofs.Path.Distinct
import ExtensionPlan.Proofs.Path.Steps

/-!
# ExtensionPlan.Proofs.Path.Order

**Lists in the order of paths.** `Path.le` compares what paths mean, and that completely: paths
that are not above each other are the same (`Path.same_of_le_of_le`). So putting a list in order
makes every path of it stand strictly above the one before, unless two of them mean the same
(`Path.increasing_ofList`). The first path of it is the one that is above none of the others
(`Path.head?_ofList_eq_some_iff`).

The entries of one directory are in the order of their names (`Path.le_of_components`).
-/

namespace ExtensionPlan

/-! ### Components -/

/-- Texts are kept apart by the numbers of their characters. -/
theorem Text.map_toNat_injective : Function.Injective (List.map Char.toNat) :=
  List.map_injective_iff.2 fun _ _ h => Char.toNat_inj.1 h

/-- Components are kept apart by what they are ordered by. -/
theorem Component.key_injective {a b : Component} (h : a.key = b.key) : a = b := by
  cases a with
  | root => cases b <;> simp [key] at h ⊢
  | current => cases b <;> simp [key] at h ⊢
  | parent => cases b <;> simp [key] at h ⊢
  | name a =>
      cases b with
      | root => simp [key] at h
      | current => simp [key] at h
      | parent => simp [key] at h
      | name b =>
          rw [key, key, List.cons.injEq] at h
          rw [Text.map_toNat_injective h.2]

namespace Path

/-! ### The order of numbers, and of their dictionary -/

theorem natLe_trans (a b c : Nat) (hab : Nat.ble a b) (hbc : Nat.ble b c) : Nat.ble a c := by
  rw [Nat.ble_eq] at *
  omega

theorem natLe_total (a b : Nat) : Nat.ble a b || Nat.ble b a := by
  rw [Bool.or_eq_true, Nat.ble_eq, Nat.ble_eq]
  omega

theorem natLe_antisymm (a b : Nat) (hab : Nat.ble a b) (hba : Nat.ble b a) : a = b := by
  rw [Nat.ble_eq] at *
  omega

theorem keyLe_trans (a b c : List Nat) (hab : Sorted.dictionaryLe Nat.ble a b)
    (hbc : Sorted.dictionaryLe Nat.ble b c) : Sorted.dictionaryLe Nat.ble a c :=
  Sorted.dictionaryLe_trans natLe_trans natLe_antisymm hab hbc

theorem keyLe_antisymm (a b : List Nat) (hab : Sorted.dictionaryLe Nat.ble a b)
    (hba : Sorted.dictionaryLe Nat.ble b a) : a = b :=
  Sorted.dictionaryLe_antisymm natLe_antisymm hab hba

/-! ### The order of paths -/

theorem le_total (p q : Path) : p.le q || q.le p :=
  Sorted.dictionaryLe_total (Sorted.dictionaryLe_total natLe_total) _ _

theorem le_trans (p q r : Path) (hpq : p.le q) (hqr : q.le r) : p.le r :=
  Sorted.dictionaryLe_trans keyLe_trans keyLe_antisymm hpq hqr

/-- Paths that are not above each other mean the same. -/
theorem same_of_le_of_le {p q : Path} (hpq : p.le q) (hqp : q.le p) : p.same q = true := by
  have hkeys := Sorted.dictionaryLe_antisymm keyLe_antisymm hpq hqp
  have hinjective : Function.Injective (List.map Component.key) :=
    List.map_injective_iff.2 fun _ _ => Component.key_injective
  rw [same_iff]
  exact hinjective hkeys

/-! ### Increasing lists -/

/-- Every path stands strictly above those before it. -/
def Increasing (ps : List Path) : Prop := ps.Pairwise fun p q => q.le p = false

/-- Paths of different meaning are increasing once they are in order. -/
theorem increasing_ofList {ps : List Path} (h : ps.Pairwise fun p q => p.same q = false) :
    Increasing (Sorted.ofList le ps) := by
  have hordered := Sorted.pairwise_ofList le_trans le_total ps
  have hdistinct : (Sorted.ofList le ps).Pairwise fun p q => p.same q = false :=
    ((Sorted.ofList_perm ps).pairwise_iff fun hpq => by rwa [same_comm]).2 h
  refine hordered.imp₂ (fun p q hpq hsame => ?_) hdistinct
  by_contra habove
  rw [Bool.not_eq_false] at habove
  rw [same_of_le_of_le hpq habove] at hsame
  cases hsame

/-- The first of paths with different meanings, once they are in order, is the one that is above
none of them. -/
theorem head?_ofList_eq_some_iff {ps : List Path} (h : ps.Pairwise fun p q => p.same q = false)
    {p : Path} :
    (Sorted.ofList le ps).head? = some p ↔ p ∈ ps ∧ ∀ q ∈ ps, p.le q = true := by
  have hordered := Sorted.pairwise_ofList le_trans le_total ps
  have hincreasing := increasing_ofList h
  have hmem : ∀ q, q ∈ Sorted.ofList le ps ↔ q ∈ ps := fun q => Sorted.mem_ofList
  generalize Sorted.ofList le ps = sorted at hordered hincreasing hmem
  simp only [← hmem]
  cases sorted with
  | nil => simp
  | cons first rest =>
      rw [List.pairwise_cons] at hordered
      have hstrict := (List.pairwise_cons.1 hincreasing).1
      rw [List.head?_cons, Option.some.injEq]
      constructor
      · rintro rfl
        refine ⟨List.mem_cons_self, fun q hq => ?_⟩
        rcases List.mem_cons.1 hq with rfl | hq
        · simpa using le_total q q
        · exact hordered.1 q hq
      · rintro ⟨hp, hleast⟩
        rcases List.mem_cons.1 hp with rfl | hp
        · rfl
        · have hbelow := hleast first List.mem_cons_self
          rw [hstrict p hp] at hbelow
          cases hbelow

/-! ### Entries of a directory -/

section Named

variable {front : List Component} {path : FileName → Path}
  (hpath : ∀ name, (path name).components = front ++ [.name name.chars])

include hpath

/-- Paths that end in different names mean different files. -/
theorem pairwise_of_components {names : List FileName} (hnodup : names.Nodup) :
    (names.map path).Pairwise fun p q => p.same q = false := by
  rw [List.pairwise_map]
  refine hnodup.imp fun {a b} hne => ?_
  rw [← Bool.not_eq_true, same_iff, hpath, hpath]
  intro heq
  refine hne (FileName.chars_injective ?_)
  simpa using heq

/-- If they differ in nothing else, only the names count. -/
theorem le_of_components (a b : FileName) :
    (path a).le (path b) =
      Sorted.dictionaryLe Nat.ble (a.chars.map Char.toNat) (b.chars.map Char.toNat) := by
  have hkeys : ∀ as bs : List Nat, Sorted.dictionaryLe (Sorted.dictionaryLe Nat.ble) [as] [bs] =
      Sorted.dictionaryLe Nat.ble as bs := by
    intro as bs
    rw [Sorted.dictionaryLe]
    split
    · next hsame =>
      rw [hsame]
      simpa [Sorted.dictionaryLe] using (Sorted.dictionaryLe_total natLe_total bs bs).symm
    · rfl
  rw [le, hpath, hpath, List.map_append, List.map_append, Sorted.dictionaryLe_append_left]
  -- both names are ranked as names, so their characters decide
  exact hkeys (Component.name a.chars).key (Component.name b.chars).key

end Named

section Entries

variable {place : Path} (filled : place.chars ≠ [])

include filled

theorem components_join_path (name : FileName) :
    (place.join name.path).components = place.components ++ [.name name.chars] := by
  rw [FileName.path, components_join_eq filled name.isName.not_isAbsolute,
    steps_of_isName name.isName]

/-- The paths of entries with different names mean different files. -/
theorem pairwise_join {names : List FileName} (hnodup : names.Nodup) :
    (names.map fun name => place.join name.path).Pairwise fun p q => p.same q = false :=
  pairwise_of_components (components_join_path filled) hnodup

end Entries

end Path

end ExtensionPlan
