import GoAgent.Foundation.Raising

/-!
# Two computations that cannot be told apart

`Simulates R S x y` relates two computations on two objects: from objects that `R` relates, both
return values that `S` relates and leave related objects, or both raise the same error. What an
object looks like after an error is left open, since the caller drops it.

The rules follow the statements of a method: a sequence is simulated by a sequence
(`Simulates.bind`), a branch by a branch on the same condition (`Simulates.ite`), and so on.
-/

namespace GoAgent.Foundation

variable {ε σ τ α β α' β' : Type} {R : σ → τ → Prop} {S : α → β → Prop} {S' : α' → β' → Prop}

/-- Both return, or both raise the same error. -/
inductive Agree (R : σ → τ → Prop) (S : α → β → Prop) :
    EStateM.Result ε σ α → EStateM.Result ε τ β → Prop
  | ok {a : α} {b : β} {s : σ} {t : τ} (hvalue : S a b) (hstate : R s t) :
      Agree R S (.ok a s) (.ok b t)
  | error {e : ε} {s : σ} {t : τ} : Agree R S (.error e s) (.error e t)

def Simulates (R : σ → τ → Prop) (S : α → β → Prop) (x : EStateM ε σ α) (y : EStateM ε τ β) : Prop :=
  ∀ s t, R s t → Agree R S (x s) (y t)

/-- The same for pure checks. -/
inductive Alike (S : α → β → Prop) : Except ε α → Except ε β → Prop
  | ok {a : α} {b : β} (hvalue : S a b) : Alike S (.ok a) (.ok b)
  | error {e : ε} : Alike S (.error e) (.error e)

theorem alike_refl {x : Except ε α} : Alike Eq x x := by
  cases x with
  | ok a => exact .ok rfl
  | error e => exact .error

theorem Agree.bind {x : EStateM ε σ α} {y : EStateM ε τ β} {f : α → EStateM ε σ α'}
    {g : β → EStateM ε τ β'} {s : σ} {t : τ} (hx : Agree R S (x s) (y t))
    (hf : ∀ a b s' t', x s = .ok a s' → y t = .ok b t' → S a b → R s' t' →
      Agree R S' (f a s') (g b t')) : Agree R S' ((x >>= f) s) ((y >>= g) t) := by
  show Agree R S' (EStateM.bind x f s) (EStateM.bind y g t)
  unfold EStateM.bind
  generalize hxs : x s = p at hx hf
  generalize hyt : y t = q at hx hf
  cases hx with
  | ok hvalue hstate => exact hf _ _ _ _ rfl rfl hvalue hstate
  | error => exact .error

namespace Simulates

variable {x : EStateM ε σ α} {y : EStateM ε τ β}

theorem pure {a : α} {b : β} (h : S a b) :
    Simulates R S (Pure.pure a : EStateM ε σ α) (Pure.pure b : EStateM ε τ β) :=
  fun _ _ hst => .ok h hst

theorem throw {e : ε} :
    Simulates R S (throw e : EStateM ε σ α) (MonadExcept.throw e : EStateM ε τ β) :=
  fun _ _ _ => .error

theorem get : Simulates R R (get : EStateM ε σ σ) (MonadState.get : EStateM ε τ τ) :=
  fun _ _ hst => .ok hst hst

theorem check {p q : Prop} [Decidable p] [Decidable q] {e : ε} (h : p ↔ q) :
    Simulates R Eq (check p e : EStateM ε σ Unit) (check q e : EStateM ε τ Unit) := by
  intro s t hst
  unfold Foundation.check
  by_cases hp : p
  · rw [if_pos hp, if_pos (h.1 hp)]
    exact .ok rfl hst
  · rw [if_neg hp, if_neg fun hq => hp (h.2 hq)]
    exact .error

theorem lift {u : Except ε α} {w : Except ε β} (h : Alike S u w) :
    Simulates R S (lift u : EStateM ε σ α) (lift w : EStateM ε τ β) := by
  intro s t hst
  cases h with
  | ok hvalue => exact .ok hvalue hst
  | error => exact .error

theorem modify {f : σ → σ} {g : τ → τ} (h : ∀ s t, R s t → R (f s) (g t)) :
    Simulates R Eq (modify f : EStateM ε σ Unit) (modify g : EStateM ε τ Unit) :=
  fun s t hst => .ok rfl (h s t hst)

theorem bind {f : α → EStateM ε σ α'} {g : β → EStateM ε τ β'} (hx : Simulates R S x y)
    (hf : ∀ a b, S a b → Simulates R S' (f a) (g b)) : Simulates R S' (x >>= f) (y >>= g) :=
  fun s t hst => (hx s t hst).bind fun a b s' t' _ _ hab hst' => hf a b hab s' t' hst'

/-- A statement whose value is dropped. -/
theorem seq {x : EStateM ε σ Unit} {y : EStateM ε τ Unit} {f : Unit → EStateM ε σ α'}
    {g : Unit → EStateM ε τ β'} (hx : Simulates R Eq x y) (hf : Simulates R S' (f ()) (g ())) :
    Simulates R S' (x >>= f) (y >>= g) :=
  hx.bind fun _ _ _ => hf

theorem ite {p q : Prop} [Decidable p] [Decidable q] {x' : EStateM ε σ α} {y' : EStateM ε τ β}
    (h : p ↔ q) (hx : Simulates R S x y) (hx' : Simulates R S x' y') :
    Simulates R S (if p then x else x') (if q then y else y') := by
  by_cases hp : p
  · rwa [if_pos hp, if_pos (h.1 hp)]
  · rwa [if_neg hp, if_neg fun hq => hp (h.2 hq)]

theorem discard (h : Simulates R S x y) : Simulates R (fun _ _ => True) (discard x) (discard y) := by
  intro s t hst
  show Agree R _ (EStateM.map _ x s) (EStateM.map _ y t)
  unfold EStateM.map
  have hxy := h s t hst
  generalize x s = p at hxy
  generalize y t = q at hxy
  cases hxy with
  | ok hvalue hstate => exact .ok trivial hstate
  | error => exact .error

theorem mono {T : α → β → Prop} (h : Simulates R S x y) (hST : ∀ a b, S a b → T a b) :
    Simulates R T x y := by
  intro s t hst
  have hxy := h s t hst
  generalize x s = p at hxy
  generalize y t = q at hxy
  cases hxy with
  | ok hvalue hstate => exact .ok (hST _ _ hvalue) hstate
  | error => exact .error

end Simulates

end GoAgent.Foundation
