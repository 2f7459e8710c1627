import ExtensionPlan.Path.Basic
import Mathlib.Data.List.Basic

/-!
# ExtensionPlan.Proofs.Path.Distinct

**Lists of distinct paths.** `Path.register` is how every list of directories grows: a path is put
at the end unless one of its meaning is there. Three facts about it are all that is needed of such
lists: what was there stays in front (`prefix_foldl_register`), no two paths get the same meaning
(`pairwise_foldl_register`), and a list that grew from nothing holds the first occurrences in
their order (`dedup_eq_eraseDupsBy`).

The last one compares `Path.dedup` with the library's `List.eraseDupsBy`, which drops from the
tail of a list what its head makes superfluous. The two run in opposite directions, so the
comparison goes through `foldl_register`, which says what a started list becomes.

So a block of paths that comes again makes no difference to such a list (`dedup_absorb`), and
neither do spellings to what it means (`map_components_dedup`).
-/

namespace ExtensionPlan.Path

theorem same_comm (p q : Path) : p.same q = q.same p := by
  rw [same, same, Bool.beq_comm]

theorem isIn_append (p : Path) (ps qs : List Path) :
    p.isIn (ps ++ qs) = (p.isIn ps || p.isIn qs) := List.any_append

theorem isIn_singleton {p q : Path} : p.isIn [q] = q.same p := by simp [isIn, same]

/-! ### One more path -/

theorem register_of_isIn {ps : List Path} {p : Path} (h : p.isIn ps = true) :
    register ps p = ps := if_pos h

theorem register_of_not_isIn {ps : List Path} {p : Path} (h : p.isIn ps = false) :
    register ps p = ps ++ [p] := if_neg (by simp [h])

theorem prefix_register (ps : List Path) (p : Path) : ps <+: register ps p := by
  cases h : p.isIn ps with
  | true => simp [register_of_isIn h]
  | false =>
      rw [register_of_not_isIn h]
      exact List.prefix_append ps [p]

theorem mem_register {ps : List Path} {p q : Path} (h : q ∈ register ps p) :
    q ∈ ps ∨ q = p := by
  cases hp : p.isIn ps with
  | true =>
      rw [register_of_isIn hp] at h
      exact Or.inl h
  | false =>
      rw [register_of_not_isIn hp] at h
      simpa using h

theorem pairwise_register {ps : List Path} (p : Path)
    (h : ps.Pairwise fun a b => a.same b = false) :
    (register ps p).Pairwise fun a b => a.same b = false := by
  cases hp : p.isIn ps with
  | true => rwa [register_of_isIn hp]
  | false =>
      rw [register_of_not_isIn hp, List.pairwise_append]
      refine ⟨h, List.pairwise_singleton _ p, ?_⟩
      intro a ha b hb
      rw [List.mem_singleton] at hb
      subst hb
      -- `a` is in the list, so it would be what `b` was looked for with
      by_contra hsame
      rw [Bool.not_eq_false] at hsame
      exact Bool.false_ne_true (hp ▸ isIn_iff.2 ⟨a, ha, hsame⟩)

/-! ### Many more paths -/

theorem prefix_foldl_register (ps qs : List Path) : ps <+: qs.foldl register ps := by
  induction qs generalizing ps with
  | nil => exact List.prefix_refl ps
  | cons q qs ih => exact (prefix_register ps q).trans (ih (register ps q))

theorem mem_foldl_register {ps qs : List Path} {p : Path} (h : p ∈ qs.foldl register ps) :
    p ∈ ps ∨ p ∈ qs := by
  induction qs generalizing ps with
  | nil => exact Or.inl h
  | cons q qs ih =>
      rcases ih h with h | h
      · rcases mem_register h with h | rfl
        · exact Or.inl h
        · exact Or.inr List.mem_cons_self
      · exact Or.inr (List.mem_cons_of_mem q h)

theorem pairwise_foldl_register {ps : List Path} (qs : List Path)
    (h : ps.Pairwise fun a b => a.same b = false) :
    (qs.foldl register ps).Pairwise fun a b => a.same b = false := by
  induction qs generalizing ps with
  | nil => exact h
  | cons q qs ih => exact ih (pairwise_register q h)

/-- What a started list becomes: it stays in front, and of the paths whose meaning it does not
have the first occurrences follow. -/
theorem foldl_register (ps qs : List Path) :
    qs.foldl register ps = ps ++ (qs.filter fun q => !q.isIn ps).eraseDupsBy same := by
  induction qs generalizing ps with
  | nil => simp
  | cons q qs ih =>
      rw [List.foldl_cons, ih]
      cases hq : q.isIn ps with
      | true => rw [register_of_isIn hq, List.filter_cons_of_neg (by simp [hq])]
      | false =>
          rw [register_of_not_isIn hq, List.filter_cons_of_pos (by simp [hq]),
            List.eraseDupsBy_cons, List.filter_filter, List.append_assoc, List.singleton_append]
          congr 4
          funext r
          -- `r` is new after `q` if it is new before and not the same as `q`
          rw [isIn_append, isIn_singleton, same_comm q r]
          cases r.isIn ps <;> cases r.same q <;> rfl

/-- A list without repeats holds the first occurrences, in their order. -/
theorem dedup_eq_eraseDupsBy (ps : List Path) : dedup ps = ps.eraseDupsBy same := by
  rw [dedup, foldl_register, List.nil_append, List.filter_eq_self.2 (by simp [isIn])]

theorem dedup_append (ps qs : List Path) : dedup (ps ++ qs) = qs.foldl register (dedup ps) :=
  List.foldl_append

theorem pairwise_dedup (ps : List Path) : (dedup ps).Pairwise fun a b => a.same b = false :=
  pairwise_foldl_register ps List.Pairwise.nil

/-- Paths of different meaning are spelled differently. -/
theorem nodup_dedup (ps : List Path) : (dedup ps).Nodup := by
  refine (pairwise_dedup ps).imp ?_
  intro p q hsame heq
  rw [heq, same_refl] at hsame
  cases hsame

theorem mem_of_mem_dedup {ps : List Path} {p : Path} (h : p ∈ dedup ps) : p ∈ ps :=
  (mem_foldl_register h).resolve_left (by simp)

theorem dedup_ne_nil {ps : List Path} (h : ps ≠ []) : dedup ps ≠ [] := by
  cases ps with
  | nil => exact absurd rfl h
  | cons p ps =>
      intro hnil
      have hp : [p] <+: dedup (p :: ps) := prefix_foldl_register [p] ps
      rw [hnil] at hp
      exact absurd (List.prefix_nil.1 hp) (by simp)

/-! ### What is there already -/

/-- Whether a path is in a list depends on its meaning only. -/
theorem isIn_congr {p q : Path} (h : q.same p = true) (ps : List Path) : p.isIn ps = q.isIn ps := by
  rw [isIn, isIn, same_iff.1 h]

theorem isIn_register (p : Path) (ps : List Path) (q : Path) :
    p.isIn (register ps q) = p.isIn (ps ++ [q]) := by
  cases hq : q.isIn ps with
  | false => rw [register_of_not_isIn hq]
  | true =>
      rw [register_of_isIn hq, isIn_append, isIn_singleton]
      cases hsame : q.same p with
      | false => rw [Bool.or_false]
      | true => rw [isIn_congr hsame, hq, Bool.true_or]

/-- The meanings in a list that grew are those that were in it and those that were put to it. -/
theorem isIn_foldl_register (p : Path) (ps qs : List Path) :
    p.isIn (qs.foldl register ps) = p.isIn (ps ++ qs) := by
  induction qs generalizing ps with
  | nil => rw [List.append_nil, List.foldl_nil]
  | cons q qs ih =>
      rw [List.foldl_cons, ih, isIn_append, isIn_register, ← isIn_append, List.append_assoc,
        List.singleton_append]

theorem isIn_dedup (p : Path) (ps : List Path) : p.isIn (dedup ps) = p.isIn ps :=
  isIn_foldl_register p [] ps

theorem foldl_register_of_isIn {ps qs : List Path} (h : ∀ q ∈ qs, q.isIn ps = true) :
    qs.foldl register ps = ps := by
  rw [foldl_register, List.filter_eq_nil_iff.2 fun q hq => by simp [h q hq]]
  exact List.append_nil ps

/-- **Absorption.** Paths whose meanings all stand before them make no difference. -/
theorem dedup_absorb {front block : List Path} (h : ∀ q ∈ block, q.isIn front = true)
    (back : List Path) : dedup (front ++ (block ++ back)) = dedup (front ++ back) := by
  have hblock : block.foldl register (dedup front) = dedup front :=
    foldl_register_of_isIn fun q hq => (isIn_dedup q front).trans (h q hq)
  rw [dedup_append, dedup_append, List.foldl_append, hblock]

/-- What a list without repeats means is what the list means, each meaning once. -/
theorem map_components_dedup (ps : List Path) :
    (dedup ps).map components = (ps.map components).eraseDups := by
  rw [dedup_eq_eraseDupsBy]
  induction hn : ps.length using Nat.strongRecOn generalizing ps with
  | _ n ih =>
      cases ps with
      | nil => rfl
      | cons p ps =>
          -- what the first path makes superfluous is what means the same
          have hrest : (fun q : Path => decide (q.same p = false)) =
              (fun meaning => !meaning == p.components) ∘ components := by
            funext q
            cases hsame : q.components == p.components <;> simp [same, hsame]
          have hshorter : (ps.filter fun q => decide (q.same p = false)).length < n :=
            hn ▸ Nat.lt_succ_of_le (List.length_filter_le _ ps)
          rw [List.eraseDupsBy_cons, List.map_cons, List.map_cons, List.eraseDups_cons,
            List.filter_map, ← hrest, ih _ hshorter _ rfl]

end ExtensionPlan.Path
