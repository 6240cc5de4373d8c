import GoAgent.Foundation.Raising

/-!
# What a raise leaves behind

`Leaves s₀ m s`: if the method `m` raises when called on `s`, the object it leaves is `s₀`. A method
called on `s₀` itself that leaves `s₀` is one whose rejection changes nothing.

The rules read a method from its front. As long as it has only read, the object is still `s₀` and
a raise is harmless (`leaves_lift_bind`, `leaves_check_bind`). Once it has written, every raise
counts, and what follows must not raise at all (`leaves_lift_bind_of_ne`).
-/

namespace GoAgent.Foundation

variable {ε σ α β : Type} {s s₀ : σ} {m : EStateM ε σ α} {f : α → EStateM ε σ β}

def Leaves (s₀ : σ) (m : EStateM ε σ α) (s : σ) : Prop := ∀ e t, m s = .error e t → t = s₀

theorem leaves_bind : Leaves s₀ (m >>= f) s ↔
    Leaves s₀ m s ∧ ∀ a t, m s = .ok a t → Leaves s₀ (f a) t := by
  constructor
  · intro h
    constructor
    · intro e t hm
      exact h e t (bind_error.2 (Or.inl hm))
    · intro a t hm e u hf
      exact h e u (bind_error.2 (Or.inr ⟨a, t, hm, hf⟩))
  · intro h e u hu
    rcases bind_error.1 hu with hm | ⟨a, t, hm, hf⟩
    · exact h.1 e u hm
    · exact h.2 a t hm e u hf

/-! ## Before the first write -/

theorem leaves_of_reads (h : Reads m) : Leaves s m s := (h s).2

theorem leaves_read_bind (h : Reads m) :
    Leaves s (m >>= f) s ↔ ∀ a, m s = .ok a s → Leaves s (f a) s := by
  rw [leaves_bind]
  constructor
  · intro hall a hm
    exact hall.2 a s hm
  · intro hall
    refine ⟨leaves_of_reads h, ?_⟩
    intro a t hm
    have heq : t = s := (h s).1 a t hm
    subst heq
    exact hall a hm

@[simp] theorem leaves_get_bind {f : σ → EStateM ε σ β} :
    Leaves s₀ ((get : EStateM ε σ σ) >>= f) s ↔ Leaves s₀ (f s) s := Iff.rfl

@[simp] theorem leaves_lift_bind {y : Except ε α} :
    Leaves s (lift y >>= f) s ↔ ∀ a, y = .ok a → Leaves s (f a) s := by
  rw [leaves_read_bind fixes_lift]
  simp only [lift_ok, and_true]

@[simp] theorem leaves_check_bind {p : Prop} [Decidable p] {e : ε} {f : Unit → EStateM ε σ β} :
    Leaves s (check p e >>= f) s ↔ (p → Leaves s (f ()) s) := by
  rw [leaves_read_bind fixes_check]
  simp only [check_ok, and_true]
  exact ⟨fun h => h (), fun h _ => h⟩

@[simp] theorem leaves_throw {e : ε} : Leaves s (throw e : EStateM ε σ α) s :=
  leaves_of_reads fixes_throw

@[simp] theorem leaves_throw_bind {e : ε} : Leaves s ((throw e : EStateM ε σ α) >>= f) s := by
  rw [leaves_read_bind fixes_throw]
  intro a h
  exact (throw_ok.1 h).elim

theorem leaves_lift {y : Except ε α} : Leaves s (lift y) s := leaves_of_reads fixes_lift

@[simp] theorem leaves_pure {a : α} : Leaves s₀ (pure a : EStateM ε σ α) s :=
  fun _ _ h => nomatch h

theorem leaves_discard : Leaves s₀ (discard m) s ↔ Leaves s₀ m s := by
  simp only [Leaves, discard_error]

/-! ## After a write -/

@[simp] theorem leaves_modify_bind {g : σ → σ} {f : Unit → EStateM ε σ β} :
    Leaves s₀ ((modify g : EStateM ε σ Unit) >>= f) s ↔ Leaves s₀ (f ()) (g s) := Iff.rfl

@[simp] theorem leaves_modify {g : σ → σ} : Leaves s₀ (modify g : EStateM ε σ Unit) s :=
  fun _ _ h => nomatch h

@[simp] theorem leaves_pure_bind {a : α} :
    Leaves s₀ ((pure a : EStateM ε σ α) >>= f) s ↔ Leaves s₀ (f a) s := Iff.rfl

theorem leaves_bind_of_ok {a : α} {t : σ} (h : m s = .ok a t) :
    Leaves s₀ (m >>= f) s ↔ Leaves s₀ (f a) t := by
  simp only [Leaves, bind_of_ok h]

/-- A method that returns does not raise. -/
theorem leaves_of_ok {a : α} {t : σ} (h : m s = .ok a t) : Leaves s₀ m s := by
  intro e u hu
  rw [h] at hu
  cases hu

/-- A check made after a write has to pass. -/
theorem leaves_lift_bind_of_ne {y : Except ε α} (hs : s ≠ s₀) :
    Leaves s₀ (lift y >>= f) s ↔ ∃ a, y = .ok a ∧ Leaves s₀ (f a) s := by
  cases y with
  | ok a =>
    rw [leaves_bind_of_ok (lift_ok.2 ⟨rfl, rfl⟩)]
    simp only [Except.ok.injEq, exists_eq_left']
  | error e =>
    simp only [reduceCtorEq, false_and, exists_false, iff_false]
    intro h
    exact hs (h e s (bind_error.2 (Or.inl (lift_error.2 ⟨rfl, rfl⟩))))

theorem leaves_lift_of_ne {y : Except ε α} (hs : s ≠ s₀) :
    Leaves s₀ (lift y) s ↔ ∃ a, y = .ok a := by
  cases y with
  | ok a => exact iff_of_true (leaves_of_ok (lift_ok.2 ⟨rfl, rfl⟩)) ⟨a, rfl⟩
  | error e =>
    refine iff_of_false (fun h => hs (h e s (lift_error.2 ⟨rfl, rfl⟩))) ?_
    rintro ⟨a, ha⟩
    cases ha

theorem leaves_check_bind_of_ne {p : Prop} [Decidable p] {e : ε} {f : Unit → EStateM ε σ β}
    (hs : s ≠ s₀) : Leaves s₀ (check p e >>= f) s ↔ p ∧ Leaves s₀ (f ()) s := by
  by_cases hp : p
  · rw [leaves_bind_of_ok (a := ()) (check_ok.2 ⟨hp, rfl⟩)]
    simp only [hp, true_and]
  · simp only [hp, false_and, iff_false]
    intro h
    exact hs (h e s (bind_error.2 (Or.inl (check_error.2 ⟨hp, rfl, rfl⟩))))

end GoAgent.Foundation
