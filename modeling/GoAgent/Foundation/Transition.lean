import Mathlib.Data.List.Induction

/-!
# Runs of a labelled transition system

A component is given by a relation `step s a t`: in state `s` the request `a` may lead to `t`.
`Steps step s as t` is a run from `s` to `t` that answers the requests `as` in order, and
`Guarded step good` keeps only the steps whose source state and request satisfy `good`.

The rules below turn a fact about one step into a fact about every run:

* `Steps.invariant` — what every step preserves holds at the end of every run;
* `Steps.related` — a preorder that contains every step relates the ends of every run;
* `Steps.map` — a simulation carries runs to runs.
-/

namespace GoAgent.Foundation

variable {σ τ α β : Type*}

/-- A run: the requests `as` lead from `s` to `t`. -/
inductive Steps (step : σ → α → σ → Prop) : σ → List α → σ → Prop
  | nil (s : σ) : Steps step s [] s
  | cons {s t u : σ} {a : α} {as : List α} :
      step s a t → Steps step t as u → Steps step s (a :: as) u

/-- A state some run from an initial state ends in. -/
def Reachable (init : σ → Prop) (step : σ → α → σ → Prop) (s : σ) : Prop :=
  ∃ s₀ as, init s₀ ∧ Steps step s₀ as s

/-- The steps whose source state and request satisfy `good`. -/
def Guarded (step : σ → α → σ → Prop) (good : σ → α → Prop) (s : σ) (a : α) (t : σ) : Prop :=
  step s a t ∧ good s a

namespace Steps

variable {step : σ → α → σ → Prop}

theorem single {s t : σ} {a : α} (h : step s a t) : Steps step s [a] t := cons h (nil t)

theorem of_single {s t : σ} {a : α} (h : Steps step s [a] t) : step s a t := by
  cases h with
  | cons h hnil =>
    cases hnil
    exact h

theorem append {s t u : σ} {as bs : List α} (h₁ : Steps step s as t) (h₂ : Steps step t bs u) :
    Steps step s (as ++ bs) u := by
  induction h₁ with
  | nil => exact h₂
  | cons h _ ih => exact cons h (ih h₂)

theorem snoc {s t u : σ} {as : List α} {a : α} (h₁ : Steps step s as t) (h₂ : step t a u) :
    Steps step s (as ++ [a]) u := h₁.append (single h₂)

/-- A run over `as ++ bs` passes through a state between the two parts. -/
theorem split {s u : σ} {as bs : List α} (h : Steps step s (as ++ bs) u) :
    ∃ t, Steps step s as t ∧ Steps step t bs u := by
  induction as generalizing s with
  | nil => exact ⟨s, nil s, h⟩
  | cons a as ih =>
    cases h with
    | cons hs ht =>
      obtain ⟨t, h₁, h₂⟩ := ih ht
      exact ⟨t, cons hs h₁, h₂⟩

/-- Induction at the end of a run: the last step is taken from the state the rest ends in. -/
theorem snocInduction {s : σ} {P : List α → σ → Prop} (hnil : P [] s)
    (hsnoc : ∀ {as : List α} {t u : σ} {a : α},
      Steps step s as t → P as t → step t a u → P (as ++ [a]) u)
    {as : List α} {t : σ} (h : Steps step s as t) : P as t := by
  induction as using List.reverseRecOn generalizing t with
  | nil => cases h; exact hnil
  | append_singleton as a ih =>
    obtain ⟨u, h₁, h₂⟩ := h.split
    cases h₂ with
    | cons hs hn =>
      cases hn
      exact hsnoc h₁ (ih h₁) hs

/-- **Invariant rule.** -/
theorem invariant {P : σ → Prop} (hstep : ∀ {s a t}, P s → step s a t → P t)
    {s t : σ} {as : List α} (h : Steps step s as t) (hs : P s) : P t := by
  induction h with
  | nil => exact hs
  | cons h _ ih => exact ih (hstep hs h)

/-- **Relation rule.** Under an invariant `P`, a preorder that holds across each step holds
across each run. -/
theorem related {P : σ → Prop} {R : σ → σ → Prop} (hstep : ∀ {s a t}, P s → step s a t → P t)
    (hrefl : ∀ s, R s s) (htrans : ∀ {s t u}, R s t → R t u → R s u)
    (hrel : ∀ {s a t}, P s → step s a t → R s t)
    {s t : σ} {as : List α} (h : Steps step s as t) (hs : P s) : R s t := by
  induction h with
  | nil s => exact hrefl s
  | cons h _ ih => exact htrans (hrel hs h) (ih (hstep hs h))

theorem mono {step' : σ → α → σ → Prop} (himp : ∀ {s a t}, step s a t → step' s a t)
    {s t : σ} {as : List α} (h : Steps step s as t) : Steps step' s as t := by
  induction h with
  | nil s => exact nil s
  | cons h _ ih => exact cons (himp h) ih

/-- **Simulation rule.** If every step is matched, through `f`, by a run of the other system
(its requests given by `g`), then so is every run. -/
theorem map {step' : τ → β → τ → Prop} {P : σ → Prop} (f : σ → τ)
    (hstep : ∀ {s a t}, P s → step s a t → P t)
    (hsim : ∀ {s a t}, P s → step s a t → ∃ bs, Steps step' (f s) bs (f t))
    {s t : σ} {as : List α} (h : Steps step s as t) (hs : P s) :
    ∃ bs, Steps step' (f s) bs (f t) := by
  induction h with
  | nil s => exact ⟨[], nil (f s)⟩
  | cons h _ ih =>
    obtain ⟨bs, hbs⟩ := hsim hs h
    obtain ⟨cs, hcs⟩ := ih (hstep hs h)
    exact ⟨bs ++ cs, hbs.append hcs⟩

theorem of_guarded {good : σ → α → Prop} {s t : σ} {as : List α}
    (h : Steps (Guarded step good) s as t) : Steps step s as t :=
  h.mono fun h => h.1

theorem guarded {good : α → Prop} {s t : σ} {as : List α} (h : Steps step s as t)
    (hgood : ∀ a ∈ as, good a) : Steps (Guarded step fun _ a => good a) s as t := by
  induction h with
  | nil s => exact nil s
  | cons h _ ih =>
    exact cons ⟨h, hgood _ List.mem_cons_self⟩ (ih fun a ha => hgood a (List.mem_cons_of_mem _ ha))

/-- A component given by a function runs by folding it over the requests. -/
theorem of_foldlM {f : σ → α → Option σ} {s t : σ} {as : List α} (h : as.foldlM f s = some t) :
    Steps (fun s a t => f s a = some t) s as t := by
  induction as generalizing s with
  | nil =>
    cases h
    exact nil _
  | cons a as ih =>
    rw [List.foldlM_cons] at h
    obtain ⟨u, hu, h⟩ := Option.bind_eq_some_iff.1 h
    exact cons hu (ih h)

/-- The same for the guarded steps. -/
theorem guarded_of_foldlM {f : σ → α → Option σ} {good : σ → α → Prop}
    [∀ s a, Decidable (good s a)] {s t : σ} {as : List α}
    (h : as.foldlM (fun s a => if good s a then f s a else none) s = some t) :
    Steps (Guarded (fun s a t => f s a = some t) good) s as t := by
  refine (of_foldlM h).mono fun {s a t} hs => ?_
  by_cases hgood : good s a
  · rw [if_pos hgood] at hs
    exact ⟨hs, hgood⟩
  · rw [if_neg hgood] at hs
    cases hs

end Steps

namespace Reachable

variable {init : σ → Prop} {step : σ → α → σ → Prop}

theorem start {s : σ} (h : init s) : Reachable init step s := ⟨s, [], h, .nil s⟩

theorem next {s t : σ} {a : α} (h : Reachable init step s) (hs : step s a t) :
    Reachable init step t := by
  obtain ⟨s₀, as, h₀, h⟩ := h
  exact ⟨s₀, as ++ [a], h₀, h.snoc hs⟩

theorem steps {s t : σ} {as : List α} (h : Reachable init step s) (hs : Steps step s as t) :
    Reachable init step t := by
  obtain ⟨s₀, bs, h₀, h⟩ := h
  exact ⟨s₀, bs ++ as, h₀, h.append hs⟩

theorem invariant {P : σ → Prop} (hinit : ∀ {s}, init s → P s)
    (hstep : ∀ {s a t}, P s → step s a t → P t) {s : σ} (h : Reachable init step s) : P s := by
  obtain ⟨s₀, as, h₀, h⟩ := h
  exact Steps.invariant (P := P) hstep h (hinit h₀)

end Reachable

end GoAgent.Foundation
