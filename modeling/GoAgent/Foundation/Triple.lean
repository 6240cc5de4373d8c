import GoAgent.Foundation.Raising

/-!
# Pre- and postconditions

`Triple P m Q E` says what a computation that mutates and may raise does from a state with `P`:
if it returns, `Q` holds of the value and of the state it leaves, and if it raises, `E` holds of
the state. There is one rule for each way to build a computation.
-/

namespace GoAgent.Foundation

variable {ε σ α β : Type}

def Triple (P : σ → Prop) (m : EStateM ε σ α) (Q : α → σ → Prop) (E : σ → Prop) : Prop :=
  ∀ s, P s → (∀ a t, m s = .ok a t → Q a t) ∧ ∀ e t, m s = .error e t → E t

/-- `P` holds at the end of `m`, returned or raised, if it holds at its start. -/
abbrev Upholds (P : σ → Prop) (m : EStateM ε σ α) : Prop := Triple P m (fun _ => P) P

namespace Triple

variable {P P' : σ → Prop} {Q Q' : α → σ → Prop} {E E' : σ → Prop} {m : EStateM ε σ α}

theorem imp (h : Triple P m Q E) (hP : ∀ s, P' s → P s) (hQ : ∀ a s, Q a s → Q' a s)
    (hE : ∀ s, E s → E' s) : Triple P' m Q' E' := fun s hs =>
  ⟨fun a t ht => hQ a t ((h s (hP s hs)).1 a t ht), fun e t ht => hE t ((h s (hP s hs)).2 e t ht)⟩

theorem pre (h : Triple P m Q E) (hP : ∀ s, P' s → P s) : Triple P' m Q E :=
  h.imp hP (fun _ _ h => h) fun _ h => h

theorem post (h : Triple P m Q E) (hQ : ∀ a s, Q a s → Q' a s) : Triple P m Q' E :=
  h.imp (fun _ h => h) hQ fun _ h => h

theorem pure {a : α} (h : ∀ s, P s → Q a s) : Triple P (pure a : EStateM ε σ α) Q E := by
  refine fun s hs => ⟨fun b t ht => ?_, fun e t ht => ?_⟩
  · cases ht
    exact h s hs
  · cases ht

theorem throw {e : ε} (h : ∀ s, P s → E s) : Triple P (throw e : EStateM ε σ α) Q E := by
  refine fun s hs => ⟨fun b t ht => ?_, fun e t ht => ?_⟩
  · cases ht
  · cases ht
    exact h s hs

theorem bind {R : β → σ → Prop} {x : EStateM ε σ β} {f : β → EStateM ε σ α}
    (hx : Triple P x R E) (hf : ∀ b, Triple (R b) (f b) Q E) : Triple P (x >>= f) Q E := by
  refine fun s hs => ⟨fun a t ht => ?_, fun e t ht => ?_⟩
  · obtain ⟨b, u, hu, ht⟩ := bind_ok.1 ht
    exact (hf b u ((hx s hs).1 b u hu)).1 a t ht
  · rcases bind_error.1 ht with hu | ⟨b, u, hu, ht⟩
    · exact (hx s hs).2 e t hu
    · exact (hf b u ((hx s hs).1 b u hu)).2 e t ht

theorem get : Triple P (get : EStateM ε σ σ) (fun a s => a = s ∧ P s) E := by
  refine fun s hs => ⟨fun a t ht => ?_, fun e t ht => ?_⟩
  · cases ht
    exact ⟨rfl, hs⟩
  · cases ht

theorem modify {f : σ → σ} {Q : Unit → σ → Prop} (h : ∀ s, P s → Q () (f s)) :
    Triple P (modify f : EStateM ε σ Unit) Q E := by
  refine fun s hs => ⟨fun a t ht => ?_, fun e t ht => ?_⟩
  · cases ht
    exact h s hs
  · cases ht

/-- A pure check changes nothing. -/
theorem lift {y : Except ε α} (hok : ∀ a s, y = .ok a → P s → Q a s)
    (herror : ∀ e s, y = .error e → P s → E s) : Triple P (lift y) Q E := by
  cases y with
  | ok a => exact pure fun s hs => hok a s rfl hs
  | error e => exact throw fun s hs => herror e s rfl hs

/-- What does not depend on the state. -/
theorem fact {F : Prop} (h : F → Triple P m Q E) : Triple (fun s => P s ∧ F) m Q E :=
  fun s hs => h hs.2 s hs.1

theorem set {t : σ} {Q : Unit → σ → Prop} (h : ∀ s, P s → Q () t) :
    Triple P (set t : EStateM ε σ Unit) Q E := by
  refine fun s hs => ⟨fun a u hu => ?_, fun e u hu => ?_⟩
  · cases hu
    exact h s hs
  · cases hu

theorem check {p : Prop} [Decidable p] {e : ε} {Q : Unit → σ → Prop}
    (hok : ∀ s, p → P s → Q () s) (herror : ∀ s, ¬p → P s → E s) :
    Triple P (check p e : EStateM ε σ Unit) Q E := by
  unfold Foundation.check
  split
  · next hp => exact pure fun s hs => hok s hp hs
  · next hp => exact throw fun s hs => herror s hp hs

/-- What is raised is handled, in the state it is raised in. -/
theorem handle {R : σ → Prop} {h : ε → EStateM ε σ α} (hm : Triple P m Q R)
    (hh : ∀ e, Triple R (h e) Q E) : Triple P (tryCatch m h) Q E := by
  have hrun : ∀ s, (tryCatch m h : EStateM ε σ α) s =
      match m s with
      | .ok a t => .ok a t
      | .error e t => h e t := by
    intro s
    show EStateM.tryCatch m h s = _
    unfold EStateM.tryCatch
    cases m s <;> rfl
  intro s hs
  rw [hrun]
  cases hms : m s with
  | ok a t =>
    refine ⟨fun b u hu => ?_, fun e u hu => by cases hu⟩
    cases hu
    exact (hm s hs).1 a t hms
  | error e t => exact hh e t ((hm s hs).2 e t hms)

end Triple

end GoAgent.Foundation
