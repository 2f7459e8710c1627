import ExtensionPlan.Run
import Mathlib.Data.List.Forall2

/-!
# ExtensionPlan.Proofs.Run

**Taking runs apart.** What a run leaves behind is a trace and a result, and the result is all that
most statements are about. `Run.result_bind` says that taking the result turns a sequence of runs
into a sequence of `Except` values, and the `_iff` lemmas on those say what must have happened for
a sequence to end in a value or in a failure. No proof above this module unfolds a run.

`Run.FailsOnly` collects the kinds of failure that a run can end in. It goes through every way of
putting runs together, so it is shown of a long run by naming its parts.
-/

namespace ExtensionPlan

variable {ε ε' α β : Type}

/-! ### Sequences of results -/

theorem ok_bind (a : α) (f : α → Except ε β) : (.ok a >>= f) = f a := rfl

/-- A sequence has a value when both of its parts have one. -/
theorem bind_eq_ok_iff {x : Except ε α} {f : α → Except ε β} {b : β} :
    (x >>= f) = .ok b ↔ ∃ a, x = .ok a ∧ f a = .ok b := by
  cases x with
  | error e => simp [bind, Except.bind]
  | ok a => simp [bind, Except.bind]

/-- A sequence fails as its first part does, or after that as its second. -/
theorem bind_eq_error_iff {x : Except ε α} {f : α → Except ε β} {e : ε} :
    (x >>= f) = .error e ↔ x = .error e ∨ ∃ a, x = .ok a ∧ f a = .error e := by
  cases x with
  | error e' => simp [bind, Except.bind]
  | ok a => simp [bind, Except.bind]

theorem pure_eq_ok_iff {a b : α} : (pure a : Except ε α) = .ok b ↔ a = b := by
  simp [pure, Except.pure]

theorem map_eq_ok_iff {x : Except ε α} {f : α → β} {b : β} :
    x.map f = .ok b ↔ ∃ a, x = .ok a ∧ f a = b := by
  cases x <;> simp [Except.map]

theorem map_eq_error_iff {x : Except ε α} {f : α → β} {e : ε} :
    x.map f = .error e ↔ x = .error e := by
  cases x <;> simp [Except.map]

theorem mapError_eq_ok_iff {x : Except ε α} {f : ε → ε'} {a : α} :
    x.mapError f = .ok a ↔ x = .ok a := by
  cases x <;> simp [Except.mapError]

theorem mapError_eq_error_iff {x : Except ε α} {f : ε → ε'} {e : ε'} :
    x.mapError f = .error e ↔ ∃ e', x = .error e' ∧ f e' = e := by
  cases x <;> simp [Except.mapError]

theorem toOption_eq_some_iff {x : Except ε α} {a : α} : x.toOption = some a ↔ x = .ok a := by
  cases x <;> simp [Except.toOption]

/-- A list is gone through when each of its elements has a value. -/
theorem mapM_eq_ok_iff {f : α → Except ε β} {as : List α} {bs : List β} :
    as.mapM f = .ok bs ↔ List.Forall₂ (fun a b => f a = .ok b) as bs := by
  induction as generalizing bs with
  | nil =>
      rw [List.mapM_nil, pure_eq_ok_iff, List.forall₂_nil_left_iff]
      exact eq_comm
  | cons a as ih =>
      rw [List.mapM_cons, bind_eq_ok_iff, List.forall₂_cons_left_iff]
      refine exists_congr fun b => ?_
      simp only [bind_eq_ok_iff, pure_eq_ok_iff, ih]
      constructor
      · rintro ⟨hb, bs', hbs', rfl⟩
        exact ⟨bs', hb, hbs', rfl⟩
      · rintro ⟨bs', hb, hbs', rfl⟩
        exact ⟨hb, bs', hbs', rfl⟩

/-- Each value of a list that was gone through is the value of an element. -/
theorem exists_of_mapM_eq_ok {f : α → Except ε β} {as : List α} {bs : List β}
    (h : as.mapM f = .ok bs) {b : β} (hb : b ∈ bs) : ∃ a ∈ as, f a = .ok b := by
  have hall := mapM_eq_ok_iff.1 h
  induction hall with
  | nil => cases hb
  | @cons a b' as bs hab hall ih =>
      rcases List.mem_cons.1 hb with rfl | hb
      · exact ⟨a, List.mem_cons_self, hab⟩
      · obtain ⟨a', ha', hab'⟩ := ih (mapM_eq_ok_iff.2 hall) hb
        exact ⟨a', List.mem_cons_of_mem a ha', hab'⟩

/-- A list is stopped at by one of its elements. -/
theorem exists_of_mapM_eq_error {f : α → Except ε β} {as : List α} {e : ε}
    (h : as.mapM f = .error e) : ∃ a ∈ as, f a = .error e := by
  induction as with
  | nil => simp [pure, Except.pure] at h
  | cons a as ih =>
      rw [List.mapM_cons, bind_eq_error_iff] at h
      rcases h with h | ⟨b, -, h⟩
      · exact ⟨a, List.mem_cons_self, h⟩
      · rcases bind_eq_error_iff.1 h with h | ⟨bs, -, h⟩
        · obtain ⟨a', ha', he⟩ := ih h
          exact ⟨a', List.mem_cons_of_mem a ha', he⟩
        · simp [pure, Except.pure] at h

/-- A list is gone through if and only if each of its elements is. -/
theorem exists_mapM_eq_ok_iff {f : α → Except ε β} {as : List α} :
    (∃ bs, as.mapM f = .ok bs) ↔ ∀ a ∈ as, ∃ b, f a = .ok b := by
  induction as with
  | nil => simp [pure, Except.pure]
  | cons a as ih =>
      simp only [List.mapM_cons, bind_eq_ok_iff, pure_eq_ok_iff, List.forall_mem_cons, ← ih]
      constructor
      · intro ⟨_, b, hb, bs, hbs, _⟩
        exact ⟨⟨b, hb⟩, bs, hbs⟩
      · intro ⟨⟨b, hb⟩, bs, hbs⟩
        exact ⟨b :: bs, b, hb, bs, hbs, rfl⟩

namespace Run

/-! ### The result of a run -/

@[simp] theorem result_pure (a : α) (w : World) : ((pure a : Run ε α) w).result = .ok a := rfl

/-- Taking the result of runs one after the other is taking their results one after the other. -/
@[simp] theorem result_bind (m : Run ε α) (f : α → Run ε β) (w : World) :
    ((m >>= f) w).result = (m w).result >>= fun a => (f a w).result := by
  cases h : (m w).result with
  | error e => rw [bind_apply_error h]; rfl
  | ok a => rw [bind_apply_ok h]; rfl

/-- What is only put in another form at the end has a value or fails as before. -/
theorem result_bind_pure (m : Run ε α) (f : α → β) (w : World) :
    ((m >>= fun a => pure (f a)) w).result = (m w).result.map f := by
  rw [result_bind]
  cases (m w).result <;> rfl

@[simp] theorem result_look (f : World → Except ε α) (w : World) : (look f w).result = f w := rfl

@[simp] theorem result_fail (e : ε) (w : World) :
    ((fail e : Run ε α) w).result = .error e := rfl

@[simp] theorem result_read (reader : Reader) (name : String) (w : World) :
    ((read reader name : Run ε _) w).result = .ok (w.value? reader name) := rfl

@[simp] theorem result_readFilled (reader : Reader) (name : String) (w : World) :
    ((readFilled reader name : Run ε _) w).result =
      .ok ((w.value? reader name).filter (· ≠ "")) := rfl

@[simp] theorem result_warn (text : String) (w : World) :
    ((warn text : Run ε _) w).result = .ok () := rfl

@[simp] theorem result_log (event : Event) (w : World) :
    ((log event : Run ε _) w).result = .ok () := rfl

@[simp] theorem result_mapError (f : ε → ε') (m : Run ε α) (w : World) :
    (m.mapError f w).result = (m w).result.mapError f := rfl

@[simp] theorem result_attempt (m : Run ε α) (w : World) :
    ((m.attempt : Run ε' _) w).result = .ok (m w).result := rfl

/-! ### The failures of a run -/

/-- Whatever the surroundings, the run ends in a value or in a failure of which `p` holds. -/
def FailsOnly (p : ε → Prop) (m : Run ε α) : Prop :=
  ∀ w e, (m w).result = .error e → p e

variable {p : ε → Prop} {m : Run ε α}

theorem FailsOnly.imp {q : ε → Prop} (hm : FailsOnly p m) (h : ∀ e, p e → q e) :
    FailsOnly q m := fun w e he => h e (hm w e he)

theorem FailsOnly.pure (a : α) : FailsOnly p (Pure.pure a : Run ε α) := by
  intro w e h
  rw [result_pure] at h
  cases h

theorem FailsOnly.fail {e : ε} (he : p e) : FailsOnly p (fail e : Run ε α) := by
  intro w e' h
  rw [result_fail] at h
  cases h
  exact he

theorem FailsOnly.look {f : World → Except ε α} (hf : ∀ w e, f w = .error e → p e) :
    FailsOnly p (look f) := hf

/-- What never fails has no failure to speak of. -/
theorem FailsOnly.of_ok {f : World → α} (hm : ∀ w, (m w).result = .ok (f w)) :
    FailsOnly p m := by
  intro w e h
  rw [hm w] at h
  cases h

theorem FailsOnly.bind {f : α → Run ε β} (hm : FailsOnly p m) (hf : ∀ a, FailsOnly p (f a)) :
    FailsOnly p (m >>= f) := by
  intro w e h
  rw [result_bind] at h
  rcases bind_eq_error_iff.1 h with h | ⟨a, -, h⟩
  · exact hm w e h
  · exact hf a w e h

theorem FailsOnly.mapError {f : ε' → ε} (m : Run ε' α) (hf : ∀ e, p (f e)) :
    FailsOnly p (m.mapError f) := by
  intro w e h
  rw [result_mapError] at h
  obtain ⟨e', -, rfl⟩ := mapError_eq_error_iff.1 h
  exact hf e'

/-! ### Runs in other words -/

/-- A sequence fails in other words if each of its parts does. -/
theorem mapError_bind (f : ε → ε') (m : Run ε α) (g : α → Run ε β) :
    (m >>= g).mapError f = m.mapError f >>= fun a => (g a).mapError f := by
  funext w
  cases h : (m w).result with
  | error e =>
      have h' : (m.mapError f w).result = .error (f e) := by
        rw [result_mapError, h]
        rfl
      rw [bind_apply_error h', mapError, bind_apply_error h]
      rfl
  | ok a =>
      have h' : (m.mapError f w).result = .ok a := by
        rw [result_mapError, h]
        rfl
      rw [bind_apply_ok h', mapError, bind_apply_ok h]
      rfl

/-- Words that stand for themselves are no other words. -/
theorem mapError_of_failsOnly {f : ε → ε} {m : Run ε α} (h : m.FailsOnly fun e => f e = e) :
    m.mapError f = m := by
  funext w
  have hresult : (m w).result.mapError f = (m w).result := by
    cases hm : (m w).result with
    | error e => exact congrArg Except.error (h w e hm)
    | ok a => rfl
  rw [mapError, hresult]

/-- What a sequence does in some surroundings depends on what its parts do in them. -/
theorem bind_apply_congr {m m' : Run ε α} {f f' : α → Run ε β} {w : World} (hm : m w = m' w)
    (hf : ∀ a, f a w = f' a w) : (m >>= f) w = (m' >>= f') w := by
  rw [bind_apply, bind_apply, andThen, andThen, hm]
  simp only [hf]

end Run

end ExtensionPlan
