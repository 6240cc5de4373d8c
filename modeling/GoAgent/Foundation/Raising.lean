import Mathlib.Data.List.Forall2
import Mathlib.Tactic.SplitIfs

/-!
# Computations that mutate an object and may raise

A method of a mutable object is a value of `EStateM ε σ α`: from the object `s` it either
returns a value and the object as it left it, or raises an error, and then the mutations made
before the error persist. A pure check is a value of `Except ε α`.

`check p e` raises `e` unless `p`, and `lift` runs a pure check inside a method. The lemmas
`*_ok` invert an accepted computation: they say what must hold for it to return, and with
which object. They are the simp set of the development's inversion lemmas.
-/

namespace GoAgent.Foundation

variable {ε σ α β : Type}

/-- What a coroutine or a thread can raise: an `Exception` by its type, or what is none. -/
inductive BaseException where
  | cancelledError
  | generatorExit
  | exception (type : String)
  | other (type : String)
  deriving DecidableEq

/-- Raise `e` unless `p` holds. -/
def check (p : Prop) [Decidable p] (e : ε) : EStateM ε σ Unit :=
  if p then pure () else throw e

/-- Run a pure check inside a method. -/
def lift (x : Except ε α) : EStateM ε σ α :=
  match x with
  | .ok a => pure a
  | .error e => throw e

/-- `check` for pure code. -/
def require (p : Prop) [Decidable p] (e : ε) : Except ε Unit :=
  if p then .ok () else .error e

/-- A step that returns nothing leaves no result to name. -/
@[simp] theorem exists_unit {p : Unit → Prop} : (∃ u, p u) ↔ p () :=
  ⟨fun ⟨(), h⟩ => h, fun h => ⟨(), h⟩⟩

section Inversion

variable {s t : σ}

@[simp] theorem bind_ok {x : EStateM ε σ α} {f : α → EStateM ε σ β} {b : β} :
    (x >>= f) s = .ok b t ↔ ∃ a u, x s = .ok a u ∧ f a u = .ok b t := by
  show EStateM.bind x f s = _ ↔ _
  unfold EStateM.bind
  cases h : x s <;> simp

theorem bind_of_ok {x : EStateM ε σ α} {f : α → EStateM ε σ β} {a : α} (h : x s = .ok a t) :
    (x >>= f) s = f a t := by
  show EStateM.bind x f s = _
  rw [EStateM.bind, h]

/-- What raises stops the computation. -/
theorem bind_of_error {x : EStateM ε σ α} {f : α → EStateM ε σ β} {e : ε} (h : x s = .error e t) :
    (x >>= f) s = .error e t := by
  show EStateM.bind x f s = _
  rw [EStateM.bind, h]

theorem check_of_not {p : Prop} [Decidable p] {e : ε} (h : ¬p) :
    (check p e : EStateM ε σ Unit) s = .error e s := by
  rw [check, if_neg h]
  rfl

@[simp] theorem map_ok {x : EStateM ε σ α} {f : α → β} {b : β} :
    (f <$> x) s = .ok b t ↔ ∃ a, x s = .ok a t ∧ b = f a := by
  show EStateM.map f x s = _ ↔ _
  unfold EStateM.map
  cases h : x s <;> simp [eq_comm, and_comm]

theorem discard_ok {x : EStateM ε σ α} {u : PUnit} :
    (discard x) s = .ok u t ↔ ∃ a, x s = .ok a t := by
  show (Function.const α PUnit.unit <$> x) s = .ok u t ↔ _
  simp [map_ok]

@[simp] theorem pure_ok {a b : α} : (pure a : EStateM ε σ α) s = .ok b t ↔ b = a ∧ t = s := by
  show EStateM.Result.ok a s = _ ↔ _
  rw [EStateM.Result.ok.injEq, eq_comm (a := a), eq_comm (a := s)]

@[simp] theorem throw_ok {e : ε} {b : α} : (throw e : EStateM ε σ α) s = .ok b t ↔ False := by
  show EStateM.Result.error e s = _ ↔ _
  simp

@[simp] theorem get_ok {a : σ} : (get : EStateM ε σ σ) s = .ok a t ↔ a = s ∧ t = s := by
  show EStateM.Result.ok s s = _ ↔ _
  rw [EStateM.Result.ok.injEq, eq_comm (a := s), eq_comm (a := s) (b := t)]

@[simp] theorem modify_ok {f : σ → σ} {a : Unit} :
    (modify f : EStateM ε σ Unit) s = .ok a t ↔ t = f s := by
  show EStateM.Result.ok () (f s) = _ ↔ _
  rw [EStateM.Result.ok.injEq, eq_comm (a := f s)]
  exact ⟨fun h => h.2, fun h => ⟨rfl, h⟩⟩

@[simp] theorem check_ok {p : Prop} [Decidable p] {e : ε} {a : Unit} :
    (check p e : EStateM ε σ Unit) s = .ok a t ↔ p ∧ t = s := by
  unfold check
  split_ifs with h <;> simp [h]

/-- `try x except e: h(e)` keeps what `x` wrote before it raised. -/
@[simp] theorem tryCatch_ok {x : EStateM ε σ α} {h : ε → EStateM ε σ α} {a : α} :
    (tryCatch x h) s = .ok a t ↔
      x s = .ok a t ∨ ∃ e u, x s = .error e u ∧ h e u = .ok a t := by
  show EStateM.tryCatch x h s = _ ↔ _
  unfold EStateM.tryCatch
  cases hx : x s with
  | ok b u => simp
  | error e u =>
    show h e u = _ ↔ _
    simp

@[simp] theorem lift_ok {x : Except ε α} {a : α} :
    (lift x : EStateM ε σ α) s = .ok a t ↔ x = .ok a ∧ t = s := by
  unfold lift
  cases x with
  | ok b => simp only [pure_ok, Except.ok.injEq, eq_comm (a := b)]
  | error e => simp

end Inversion

/-! ## What a method keeps -/

/-- What holds of the object when the method is called still holds when it returns. -/
def Keeps (P : σ → Prop) (m : EStateM ε σ α) : Prop := ∀ s a t, P s → m s = .ok a t → P t

section Keeping

variable {P : σ → Prop} {x : EStateM ε σ α}

/-- A method that only reads keeps everything. -/
theorem keeps_of_read (h : ∀ s a t, x s = .ok a t → t = s) : Keeps P x :=
  fun s a t hs hx => (h s a t hx).symm ▸ hs

theorem keeps_get : Keeps P (get : EStateM ε σ σ) := keeps_of_read fun _ _ _ h => (get_ok.1 h).2

theorem keeps_pure {a : α} : Keeps P (pure a : EStateM ε σ α) :=
  keeps_of_read fun _ _ _ h => (pure_ok.1 h).2

theorem keeps_throw {e : ε} : Keeps P (throw e : EStateM ε σ α) :=
  keeps_of_read fun _ _ _ h => (throw_ok.1 h).elim

theorem keeps_check {p : Prop} [Decidable p] {e : ε} : Keeps P (check p e : EStateM ε σ Unit) :=
  keeps_of_read fun _ _ _ h => (check_ok.1 h).2

theorem keeps_lift {y : Except ε α} : Keeps P (lift y : EStateM ε σ α) :=
  keeps_of_read fun _ _ _ h => (lift_ok.1 h).2

theorem keeps_modify {f : σ → σ} (h : ∀ s, P s → P (f s)) :
    Keeps P (modify f : EStateM ε σ Unit) :=
  fun s _ _ hs ht => (modify_ok.1 ht).symm ▸ h s hs

theorem keeps_bind {f : α → EStateM ε σ β} (hx : Keeps P x) (hf : ∀ a, Keeps P (f a)) :
    Keeps P (x >>= f) := by
  intro s b t hs h
  obtain ⟨a, u, hu, ht⟩ := bind_ok.1 h
  exact hf a u b t (hx s a u hs hu) ht

/-- What follows a pure check may use what it checked. -/
theorem keeps_lift_bind {y : Except ε α} {f : α → EStateM ε σ β}
    (hf : ∀ a, y = .ok a → Keeps P (f a)) : Keeps P (lift y >>= f) := by
  intro s b t hs h
  obtain ⟨a, u, hu, ht⟩ := bind_ok.1 h
  obtain ⟨hy, rfl⟩ := lift_ok.1 hu
  exact hf a hy u b t hs ht

theorem keeps_discard (hx : Keeps P x) : Keeps P (discard x) := by
  intro s u t hs h
  obtain ⟨a, ha⟩ := discard_ok.1 h
  exact hx s a t hs ha

end Keeping

/-! ## What a method leaves alone -/

/-- The method leaves `g` of the object as it was, whether it returns or raises. -/
def Fixes {τ : Type} (g : σ → τ) (m : EStateM ε σ α) : Prop :=
  ∀ s, (∀ a t, m s = .ok a t → g t = g s) ∧ ∀ e t, m s = .error e t → g t = g s

/-- The method only reads the object. -/
abbrev Reads (m : EStateM ε σ α) : Prop := Fixes id m

/-- The method never raises. -/
def Total (m : EStateM ε σ α) : Prop := ∀ s e t, m s ≠ .error e t

/-- When the method raises, the object before and the one it leaves are related. -/
def OnError (P : σ → σ → Prop) (m : EStateM ε σ α) : Prop := ∀ s e t, m s = .error e t → P s t

/-- When the method raises, the object is as it was before. -/
abbrev Atomic (m : EStateM ε σ α) : Prop := OnError (fun s t => t = s) m

section Leaving

variable {τ : Type} {g : σ → τ} {x : EStateM ε σ α} {f : α → EStateM ε σ β} {s t : σ}

theorem bind_error {e : ε} : (x >>= f) s = .error e t ↔
    x s = .error e t ∨ ∃ a u, x s = .ok a u ∧ f a u = .error e t := by
  show EStateM.bind x f s = _ ↔ _
  unfold EStateM.bind
  cases h : x s <;> simp

theorem discard_error {e : ε} : discard x s = .error e t ↔ x s = .error e t := by
  show EStateM.map _ x s = _ ↔ _
  unfold EStateM.map
  cases h : x s <;> simp

theorem check_error {p : Prop} [Decidable p] {e e' : ε} :
    (check p e : EStateM ε σ Unit) s = .error e' t ↔ ¬p ∧ e' = e ∧ t = s := by
  unfold check
  split_ifs with h
  · simp [h, show (pure () : EStateM ε σ Unit) s = .ok () s from rfl]
  · simp [h, show (throw e : EStateM ε σ Unit) s = .error e s from rfl, eq_comm]

theorem lift_error {y : Except ε α} {e : ε} :
    (lift y : EStateM ε σ α) s = .error e t ↔ y = .error e ∧ t = s := by
  unfold lift
  cases y with
  | ok a => simp [show (pure a : EStateM ε σ α) s = .ok a s from rfl]
  | error e₀ => simp [show (throw e₀ : EStateM ε σ α) s = .error e₀ s from rfl, eq_comm]

theorem fixes_get : Fixes g (get : EStateM ε σ σ) :=
  fun _ => ⟨fun _ _ h => congrArg g (get_ok.1 h).2, fun _ _ h => nomatch h⟩

theorem fixes_pure {a : α} : Fixes g (pure a : EStateM ε σ α) :=
  fun _ => ⟨fun _ _ h => congrArg g (pure_ok.1 h).2, fun _ _ h => nomatch h⟩

theorem fixes_throw {e : ε} : Fixes g (throw e : EStateM ε σ α) :=
  fun _ => ⟨fun _ _ h => (throw_ok.1 h).elim,
    fun _ _ h => congrArg g (EStateM.Result.error.inj h).2.symm⟩

theorem fixes_check {p : Prop} [Decidable p] {e : ε} :
    Fixes g (check p e : EStateM ε σ Unit) := by
  unfold check
  split_ifs
  · exact fixes_pure
  · exact fixes_throw

theorem fixes_lift {y : Except ε α} : Fixes g (lift y : EStateM ε σ α) := by
  unfold lift
  cases y with
  | ok a => exact fixes_pure
  | error e => exact fixes_throw

theorem fixes_modify {h : σ → σ} (hg : ∀ s, g (h s) = g s) :
    Fixes g (modify h : EStateM ε σ Unit) :=
  fun s => ⟨fun _ _ ht => (modify_ok.1 ht).symm ▸ hg s, fun _ _ h => nomatch h⟩

theorem fixes_bind (hx : Fixes g x) (hf : ∀ a, Fixes g (f a)) : Fixes g (x >>= f) := by
  intro s
  constructor
  · intro b t h
    obtain ⟨a, u, hu, ht⟩ := bind_ok.1 h
    rw [(hf a u).1 b t ht, (hx s).1 a u hu]
  · intro e t h
    obtain h | ⟨a, u, hu, ht⟩ := bind_error.1 h
    · exact (hx s).2 e t h
    · rw [(hf a u).2 e t ht, (hx s).1 a u hu]

theorem Fixes.onError {P : σ → σ → Prop} (hP : ∀ s, P s s) (h : Reads x) : OnError P x := by
  intro s e t ht
  have heq : t = s := (h s).2 e t ht
  rw [heq]
  exact hP s

/-- An error after a method that reads is its own, or comes from the same object. -/
theorem error_of_reads {e : ε} (hx : Reads x) (h : (x >>= f) s = .error e t) :
    x s = .error e s ∧ t = s ∨ ∃ a, x s = .ok a s ∧ f a s = .error e t := by
  obtain hx' | ⟨a, u, hu, ht⟩ := bind_error.1 h
  · have heq : t = s := (hx s).2 e t hx'
    exact Or.inl ⟨heq ▸ hx', heq⟩
  · have heq : u = s := (hx s).1 a u hu
    exact Or.inr ⟨a, heq ▸ hu, heq ▸ ht⟩

/-- What reads may come first. -/
theorem onError_bind {P : σ → σ → Prop} (hP : ∀ s, P s s) (hx : Reads x)
    (hf : ∀ a, OnError P (f a)) : OnError P (x >>= f) := by
  intro s e t h
  obtain h | ⟨a, u, hu, ht⟩ := bind_error.1 h
  · exact hx.onError hP s e t h
  · have heq : u = s := (hx s).1 a u hu
    exact heq ▸ hf a u e t ht

/-- What cannot raise may follow. -/
theorem OnError.bind {P : σ → σ → Prop} (hx : OnError P x) (hf : ∀ a, Total (f a)) :
    OnError P (x >>= f) := by
  intro s e t h
  obtain h | ⟨a, u, -, ht⟩ := bind_error.1 h
  · exact hx s e t h
  · exact absurd ht (hf a u e t)

theorem Fixes.atomic (h : Reads x) : Atomic x := h.onError fun _ => rfl

theorem atomic_bind (hx : Reads x) (hf : ∀ a, Atomic (f a)) : Atomic (x >>= f) :=
  onError_bind (fun _ => rfl) hx hf

theorem total_pure {a : α} : Total (pure a : EStateM ε σ α) := fun _ _ _ h => nomatch h

theorem total_modify {h : σ → σ} : Total (modify h : EStateM ε σ Unit) := fun _ _ _ h => nomatch h

theorem total_bind (hx : Total x) (hf : ∀ a, Total (f a)) : Total (x >>= f) := by
  intro s e t h
  obtain h | ⟨a, u, -, ht⟩ := bind_error.1 h
  · exact hx s e t h
  · exact hf a u e t ht

theorem Total.atomic (h : Total x) : Atomic x := fun s e t hs => absurd hs (h s e t)

end Leaving

section Pure

@[simp] theorem mapError_ok {ε' : Type} {x : Except ε α} {f : ε → ε'} {a : α} :
    x.mapError f = .ok a ↔ x = .ok a := by
  cases x <;> simp [Except.mapError]

@[simp] theorem ok_bind (a : α) (f : α → Except ε β) : (Except.ok a >>= f) = f a := rfl

@[simp] theorem except_bind_ok {x : Except ε α} {f : α → Except ε β} {b : β} :
    (x >>= f) = .ok b ↔ ∃ a, x = .ok a ∧ f a = .ok b := by
  cases x with
  | ok a => simp [bind, Except.bind]
  | error e => simp [bind, Except.bind]

@[simp] theorem except_pure_ok {a b : α} : (pure a : Except ε α) = .ok b ↔ a = b := by
  simp [pure, Except.pure]

@[simp] theorem except_map_ok {x : Except ε α} {f : α → β} {b : β} :
    f <$> x = .ok b ↔ ∃ a, x = .ok a ∧ f a = b := by
  cases x with
  | ok a => simp [Functor.map, Except.map]
  | error e => simp [Functor.map, Except.map]

@[simp] theorem require_ok {p : Prop} [Decidable p] {e : ε} {a : Unit} :
    require p e = .ok a ↔ p := by
  unfold require
  split_ifs with h <;> simp [h]

end Pure

/-! ## Loops that may raise -/

/-- `for a in as: f(a)`, where the body only checks. -/
def forEach (f : α → Except ε Unit) : List α → Except ε Unit
  | [] => .ok ()
  | a :: as => do
    f a
    forEach f as

@[simp] theorem forEach_ok {f : α → Except ε Unit} {as : List α} {u : Unit} :
    forEach f as = .ok u ↔ ∀ a ∈ as, f a = .ok () := by
  induction as with
  | nil => simp [forEach]
  | cons a as ih =>
    simp only [forEach, except_bind_ok, exists_unit, ih, List.mem_cons, forall_eq_or_imp]

/-- Whatever the computation raises satisfies `P`. -/
def RaisesOnly (P : ε → Prop) (x : Except ε α) : Prop := ∀ e, x = .error e → P e

section

variable {P : ε → Prop} {p : Prop} [Decidable p] {e : ε}

theorem raisesOnly_ok {a : α} : RaisesOnly P (.ok a) := fun _ h => nomatch h

theorem raisesOnly_error (h : P e) : RaisesOnly P (.error e : Except ε α) := by
  intro e' h'
  cases h'
  exact h

theorem raisesOnly_require (h : P e) : RaisesOnly P (require p e) := by
  unfold require
  split_ifs
  · exact raisesOnly_ok
  · exact raisesOnly_error h

theorem raisesOnly_bind {x : Except ε α} {f : α → Except ε β} (hx : RaisesOnly P x)
    (hf : ∀ a, RaisesOnly P (f a)) : RaisesOnly P (x >>= f) := by
  cases x with
  | ok a => exact hf a
  | error e => exact raisesOnly_error (hx e rfl)

theorem raisesOnly_forEach {f : α → Except ε Unit} (hf : ∀ a, RaisesOnly P (f a)) {as : List α} :
    RaisesOnly P (forEach f as) := by
  induction as with
  | nil => exact raisesOnly_ok
  | cons a as ih => exact raisesOnly_bind (hf a) fun _ => ih

end

/-- `[f(a) for a in as]`. -/
def mapEach (f : α → Except ε β) : List α → Except ε (List β)
  | [] => .ok []
  | a :: as => do
    let b ← f a
    let bs ← mapEach f as
    pure (b :: bs)

/-- An accepted `mapEach` is an elementwise correspondence. -/
theorem mapEach_ok {f : α → Except ε β} {as : List α} {bs : List β} :
    mapEach f as = .ok bs ↔ List.Forall₂ (fun a b => f a = .ok b) as bs := by
  induction as generalizing bs with
  | nil => simp [mapEach, eq_comm]
  | cons a as ih =>
    simp only [mapEach, except_bind_ok, except_pure_ok, List.forall₂_cons_left_iff, ih]
    constructor
    · rintro ⟨b, hb, cs, hcs, rfl⟩
      exact ⟨b, cs, hb, hcs, rfl⟩
    · rintro ⟨b, cs, hb, hcs, rfl⟩
      exact ⟨b, hb, cs, hcs, rfl⟩

/-- A body that never raises makes `mapEach` a `map`. -/
theorem mapEach_eq_map {f : α → Except ε β} {g : α → β} {as : List α}
    (h : ∀ a ∈ as, f a = .ok (g a)) : mapEach f as = .ok (as.map g) := by
  induction as with
  | nil => rfl
  | cons a as ih =>
    have hrest := ih fun b hb => h b (List.mem_cons_of_mem _ hb)
    simp only [mapEach, h a List.mem_cons_self, hrest, List.map_cons]
    rfl

/-- `all(p(a) for a in as)`: stops at the first `False`. -/
def allHold (p : α → Except ε Bool) : List α → Except ε Bool
  | [] => .ok true
  | a :: as => do
    if ← p a then allHold p as else pure false

theorem allHold_eq_all {p : α → Except ε Bool} {q : α → Bool} {as : List α}
    (h : ∀ a ∈ as, p a = .ok (q a)) : allHold p as = .ok (as.all q) := by
  induction as with
  | nil => rfl
  | cons a as ih =>
    have hrest := ih fun b hb => h b (List.mem_cons_of_mem _ hb)
    simp only [allHold, h a List.mem_cons_self, List.all_cons]
    cases q a
    · rfl
    · simpa [bind, Except.bind] using hrest

theorem allHold_true {p : α → Except ε Bool} {as : List α} :
    allHold p as = .ok true ↔ ∀ a ∈ as, p a = .ok true := by
  induction as with
  | nil => simp [allHold]
  | cons a as ih =>
    simp only [allHold, except_bind_ok, List.mem_cons, forall_eq_or_imp, ← ih]
    constructor
    · rintro ⟨b, hb, h⟩
      cases b
      · simp at h
      · exact ⟨hb, by simpa using h⟩
    · rintro ⟨hb, h⟩
      exact ⟨true, hb, by simpa using h⟩

/-- `[a for a in as if p(a)]`. -/
def keepIf (p : α → Except ε Bool) : List α → Except ε (List α)
  | [] => .ok []
  | a :: as => do
    let b ← p a
    let rest ← keepIf p as
    pure (if b then a :: rest else rest)

theorem keepIf_eq_filter {p : α → Except ε Bool} {q : α → Bool} {l : List α}
    (h : ∀ a ∈ l, p a = .ok (q a)) : keepIf p l = .ok (l.filter q) := by
  induction l with
  | nil => rfl
  | cons a l ih =>
    have hrest := ih fun b hb => h b (List.mem_cons_of_mem _ hb)
    simp only [keepIf, h a List.mem_cons_self, hrest, List.filter_cons]
    rfl

/-- Membership in an accepted `keepIf`. -/
theorem mem_keepIf {p : α → Except ε Bool} {as bs : List α} (h : keepIf p as = .ok bs) {a : α} :
    a ∈ bs ↔ a ∈ as ∧ p a = .ok true := by
  induction as generalizing bs with
  | nil =>
    simp only [keepIf, Except.ok.injEq] at h
    simp [← h]
  | cons c as ih =>
    simp only [keepIf, except_bind_ok, except_pure_ok] at h
    obtain ⟨b, hb, rest, hrest, rfl⟩ := h
    cases b with
    | true =>
      simp only [if_true, List.mem_cons, ih hrest]
      constructor
      · rintro (rfl | ⟨ha, hp⟩)
        · exact ⟨Or.inl rfl, hb⟩
        · exact ⟨Or.inr ha, hp⟩
      · rintro ⟨rfl | ha, hp⟩
        · exact Or.inl rfl
        · exact Or.inr ⟨ha, hp⟩
    | false =>
      simp only [Bool.false_eq_true, if_false, List.mem_cons, ih hrest]
      constructor
      · rintro ⟨ha, hp⟩
        exact ⟨Or.inr ha, hp⟩
      · rintro ⟨rfl | ha, hp⟩
        · rw [hb] at hp
          cases hp
        · exact ⟨ha, hp⟩

end GoAgent.Foundation
