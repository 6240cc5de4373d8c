import GoAgent.Foundation.Transition
import Mathlib.Logic.Function.Basic
import Mathlib.Logic.Relation

/-!
# Transactions that run at the same time

**Programs.** A client runs a program, statement by statement. A statement sees what is committed
when it runs; a lock is held until the transaction ends; what a transaction writes becomes visible
at once, when it commits, and the constraints may refuse it. A program may have several
transactions, one after the other.

**The database.** Any number of clients, each between two statements. Any of them may fail, which
rolls its transaction back.

**Rely and guarantee.** A contract has an invariant of the store, what a commit of a request may do
to the store when its transaction holds some locks and what it may answer then, and what must hold
of the store when an answer is given without a commit. Between two statements of a transaction the
others commit any number of times, under locks that are not its own. `Contract.Safe` says of a
program that, whatever they do, it keeps the contract.

* `Contract.Later.keeps` — what only the holder of a lock changes, nobody else does.
* `sane_of_reachable` — clients with safe programs keep the invariant, in every interleaving.
* `allows_of_answer` — and their answers are what the contract says.
* `serial` — where a request is answered by its one commit, the requests are served one at a time.
* `steps_of_schedule` — a schedule is a run.
* `related_of_keeping` — a preorder that contains every commit relates the ends of every run.
-/

namespace GoAgent.Foundation

variable {τ κ σ ρ α : Type}

/-! ## Programs -/

inductive Program (κ σ ρ : Type)
  | answer (a : ρ)
  | lock (key : κ) (next : Program κ σ ρ)
  | read (next : σ → Program κ σ ρ)
  | commit (write : σ → Option σ) (next refused : Program κ σ ρ)

def Program.answer? : Program κ σ ρ → Option ρ
  | .answer a => some a
  | _ => none

/-- A client between two statements, with the locks of its transaction. -/
structure Client (κ σ α ρ : Type) where
  request : α
  held : List κ
  program : Program κ σ ρ

/-- A client that has its answer is gone. -/
def Client.settled (c : Client κ σ α ρ) : Option (Client κ σ α ρ) :=
  match c.program with
  | .answer _ => none
  | _ => some c

/-- The request and its answer. -/
def Client.answer? (c : Client κ σ α ρ) : Option (α × ρ) :=
  c.program.answer?.map fun r => (c.request, r)

/-- One statement; `free` are the keys that no other client holds. -/
inductive Statement (free : κ → Prop) : σ → Client κ σ α ρ → σ → Client κ σ α ρ → Prop
  | lock {s : σ} {q : α} {held : List κ} {key : κ} {next : Program κ σ ρ} (h : free key) :
      Statement free s ⟨q, held, .lock key next⟩ s ⟨q, key :: held, next⟩
  | read {s : σ} {q : α} {held : List κ} {next : σ → Program κ σ ρ} :
      Statement free s ⟨q, held, .read next⟩ s ⟨q, held, next s⟩
  | commit {s s' : σ} {q : α} {held : List κ} {write : σ → Option σ}
      {next refused : Program κ σ ρ} (h : write s = some s') :
      Statement free s ⟨q, held, .commit write next refused⟩ s' ⟨q, [], next⟩
  | refuse {s : σ} {q : α} {held : List κ} {write : σ → Option σ}
      {next refused : Program κ σ ρ} (h : write s = none) :
      Statement free s ⟨q, held, .commit write next refused⟩ s ⟨q, [], refused⟩

/-! ## The database -/

structure Database (τ κ σ α ρ : Type) where
  store : σ
  clients : τ → Option (Client κ σ α ρ)

namespace Database

/-- The keys that nobody but the client holds. -/
def Free (x : Database τ κ σ α ρ) (t : τ) (key : κ) : Prop :=
  ∀ t' c, t' ≠ t → x.clients t' = some c → key ∉ c.held

def put [DecidableEq τ] (x : Database τ κ σ α ρ) (t : τ) (c : Option (Client κ σ α ρ)) (s : σ) :
    Database τ κ σ α ρ where
  store := s
  clients := Function.update x.clients t c

theorem put_self [DecidableEq τ] {x : Database τ κ σ α ρ} {t : τ}
    {c : Option (Client κ σ α ρ)} {s : σ} : (x.put t c s).clients t = c := by
  simp [put]

theorem put_of_ne [DecidableEq τ] {x : Database τ κ σ α ρ} {t t' : τ}
    {c : Option (Client κ σ α ρ)} {s : σ} (h : t' ≠ t) : (x.put t c s).clients t' = x.clients t' := by
  simp [put, h]

end Database

/-- A client is given a request, runs a statement, or fails; `answer` is what it answers then. -/
inductive DatabaseAction (τ α ρ : Type)
  | start (t : τ) (request : α) (answer : Option (α × ρ))
  | run (t : τ) (answer : Option (α × ρ))
  | fail (t : τ)

def DatabaseAction.answer? : DatabaseAction τ α ρ → Option (α × ρ)
  | .start _ _ answer => answer
  | .run _ answer => answer
  | .fail _ => none

inductive DatabaseStep [DecidableEq τ] (serve : α → Program κ σ ρ) :
    Database τ κ σ α ρ → DatabaseAction τ α ρ → Database τ κ σ α ρ → Prop
  | start {x : Database τ κ σ α ρ} {t : τ} {request : α} (h : x.clients t = none) :
      DatabaseStep serve x (.start t request (Client.mk request [] (serve request)).answer?)
        (x.put t (Client.mk request [] (serve request)).settled x.store)
  | run {x : Database τ κ σ α ρ} {t : τ} {c c' : Client κ σ α ρ} {s : σ}
      (h : x.clients t = some c) (hs : Statement (x.Free t) x.store c s c') :
      DatabaseStep serve x (.run t c'.answer?) (x.put t c'.settled s)
  | fail {x : Database τ κ σ α ρ} {t : τ} {c : Client κ σ α ρ} (h : x.clients t = some c) :
      DatabaseStep serve x (.fail t) (x.put t none x.store)

/-! ## Contracts -/

structure Contract (κ σ α ρ : Type) where
  invariant : σ → Prop
  guarantee : α → Option ρ → List κ → σ → σ → Prop
  answers : α → ρ → σ → Prop

namespace Contract

variable (C : Contract κ σ α ρ)

/-- A commit of a transaction that holds none of the keys. -/
def Interferes (held : List κ) (s s' : σ) : Prop :=
  C.invariant s ∧ C.invariant s' ∧
    ∃ q a held', (∀ key ∈ held', key ∉ held) ∧ C.guarantee q a held' s s'

/-- What the others make of the store between two statements. -/
abbrev Later (held : List κ) : σ → σ → Prop := Relation.ReflTransGen (C.Interferes held)

/-- From the store on, the program keeps the contract as it serves the request. -/
def Safe (q : α) : Program κ σ ρ → List κ → σ → Prop
  | .answer a, _, s => C.answers q a s
  | .lock key next, held, s => ∀ s', C.Later held s s' → C.invariant s' → Safe q next (key :: held) s'
  | .read next, held, s => ∀ s', C.Later held s s' → C.invariant s' → Safe q (next s') held s'
  | .commit write next refused, held, s => ∀ s', C.Later held s s' → C.invariant s' →
      (∀ s'', write s' = some s'' →
        C.invariant s'' ∧ C.guarantee q next.answer? held s' s'' ∧
          (next.answer? = none → Safe q next [] s'')) ∧
      (write s' = none → Safe q refused [] s')

variable {C}

/-- Whatever the others do is allowed for. -/
theorem Safe.interferes {q : α} {p : Program κ σ ρ} {held : List κ} {s s' : σ}
    (h : C.Safe q p held s) (hp : p.answer? = none) (hs : C.Interferes held s s') :
    C.Safe q p held s' := by
  cases p with
  | answer a => cases hp
  | lock key next => exact fun u hu => h u (.head hs hu)
  | read next => exact fun u hu => h u (.head hs hu)
  | commit write next refused => exact fun u hu => h u (.head hs hu)

/-- **What only the holder of a lock changes** stays while the lock is held. -/
theorem Later.keeps {P : σ → Prop} {held : List κ} {key : κ} {s s' : σ} (h : C.Later held s s')
    (hkey : key ∈ held)
    (hP : ∀ q a held' u u', key ∉ held' → C.invariant u → C.invariant u' →
      C.guarantee q a held' u u' → P u → P u')
    (hs : P s) : P s' := by
  induction h with
  | refl => exact hs
  | tail _ hu ih =>
    obtain ⟨hinv, hinv', q, a, held', hdisjoint, hg⟩ := hu
    exact hP q a held' _ _ (fun hmem => hdisjoint key hmem hkey) hinv hinv' hg ih

/-- What no commit undoes stays. -/
theorem Later.stays {P : σ → Prop} {held : List κ} {s s' : σ} (h : C.Later held s s')
    (hP : ∀ q a held' u u', C.invariant u → C.invariant u' → C.guarantee q a held' u u' →
      P u → P u')
    (hs : P s) : P s' := by
  induction h with
  | refl => exact hs
  | tail _ hu ih =>
    obtain ⟨hinv, hinv', q, a, held', -, hg⟩ := hu
    exact hP q a held' _ _ hinv hinv' hg ih

/-- A further lock only keeps others out. -/
theorem Later.unlock {held : List κ} {key : κ} {s s' : σ} (h : C.Later (key :: held) s s') :
    C.Later held s s' :=
  Relation.ReflTransGen.mono (fun _ _ ⟨hinv, hinv', q, a, held', hdisjoint, hg⟩ =>
    ⟨hinv, hinv', q, a, held',
      fun key hkey hmem => hdisjoint key hkey (List.mem_cons_of_mem _ hmem), hg⟩) _ _ h

end Contract

/-! ## Every interleaving -/

variable {C : Contract κ σ α ρ} {serve : α → Program κ σ ρ} {x y : Database τ κ σ α ρ}
  {a : DatabaseAction τ α ρ} {t t' : τ} {c c' : Client κ σ α ρ}

/-- The invariant of the database: no two clients hold one key, and each may go on. -/
structure Sane (C : Contract κ σ α ρ) (x : Database τ κ σ α ρ) : Prop where
  invariant : C.invariant x.store
  safe : ∀ {t c}, x.clients t = some c → C.Safe c.request c.program c.held x.store
  working : ∀ {t c}, x.clients t = some c → c.program.answer? = none
  exclusive : ∀ {t t' c c'}, t ≠ t' → x.clients t = some c → x.clients t' = some c' →
    ∀ key ∈ c.held, key ∉ c'.held

/-- Every program is safe from its start. -/
def Serves (C : Contract κ σ α ρ) (serve : α → Program κ σ ρ) : Prop :=
  ∀ request s, C.invariant s → C.Safe request (serve request) [] s

/-- No client is at work. -/
def Opened (C : Contract κ σ α ρ) (x : Database τ κ σ α ρ) : Prop :=
  C.invariant x.store ∧ ∀ t, x.clients t = none

theorem settled_eq_some (h : c.settled = some c') : c' = c ∧ c.program.answer? = none := by
  obtain ⟨request, held, program⟩ := c
  cases program with
  | answer a => cases h
  | lock | read | commit =>
    cases h
    exact ⟨rfl, rfl⟩

theorem sane_of_opened (h : Opened C x) : Sane C x where
  invariant := h.1
  safe {t c} hc := by
    rw [h.2 t] at hc
    cases hc
  working {t c} hc := by
    rw [h.2 t] at hc
    cases hc
  exclusive {t _ c _} _ hc := by
    rw [h.2 t] at hc
    cases hc

/-- What a step does to the store and answers. -/
def Contract.Allows (C : Contract κ σ α ρ) (q : α) (a : Option ρ) (held : List κ) (s s' : σ) : Prop :=
  s' = s ∧ (∀ r, a = some r → C.answers q r s') ∨ C.guarantee q a held s s'

/-- A statement of a safe client: the locks it holds then were its own or free, the store and the
answer are as the contract allows, and without an answer the client may go on. -/
theorem statement_safe {free : κ → Prop} {s s' : σ} (hinv : C.invariant s)
    (hsafe : C.Safe c.request c.program c.held s) (h : Statement free s c s' c') :
    c'.request = c.request ∧ C.invariant s' ∧
      (c'.program.answer? = none → C.Safe c'.request c'.program c'.held s') ∧
      (∀ key ∈ c'.held, key ∈ c.held ∨ free key) ∧
      C.Allows c.request c'.program.answer? c.held s s' := by
  have hanswers {q : α} {p : Program κ σ ρ} {held : List κ} {u : σ} (hp : C.Safe q p held u) (r : ρ)
      (hr : p.answer? = some r) : C.answers q r u := by
    cases p with
    | answer a =>
      obtain rfl := Option.some.inj hr
      exact hp
    | lock | read | commit => cases hr
  cases h with
  | lock hfree =>
    have hnext := hsafe s .refl hinv
    refine ⟨rfl, hinv, fun _ => hnext, fun key hkey => ?_, Or.inl ⟨rfl, hanswers hnext⟩⟩
    rcases List.mem_cons.1 hkey with rfl | hkey
    · exact Or.inr hfree
    · exact Or.inl hkey
  | read =>
    have hnext := hsafe s .refl hinv
    exact ⟨rfl, hinv, fun _ => hnext, fun _ hkey => Or.inl hkey, Or.inl ⟨rfl, hanswers hnext⟩⟩
  | commit hw =>
    obtain ⟨hinv', hg, hnext⟩ := (hsafe s .refl hinv).1 s' hw
    exact ⟨rfl, hinv', hnext, fun _ hkey => absurd hkey List.not_mem_nil, Or.inr hg⟩
  | refuse hw =>
    have hnext := (hsafe s .refl hinv).2 hw
    exact ⟨rfl, hinv, fun _ => hnext, fun _ hkey => absurd hkey List.not_mem_nil,
      Or.inl ⟨rfl, hanswers hnext⟩⟩

theorem Sane.free (h : Sane C x) (hc : x.clients t = some c) : ∀ key ∈ c.held, x.Free t key :=
  fun key hkey _ _ hne hc' => h.exclusive (Ne.symm hne) hc hc' key hkey

variable [DecidableEq τ]

/-- A client is put back or goes, after a commit of its own or none. -/
theorem Sane.put {o : Option (Client κ σ α ρ)} {held : List κ} {s : σ} (h : Sane C x)
    (hinv : C.invariant s) (hstore : s = x.store ∨ ∃ q a, C.guarantee q a held x.store s)
    (hheld : ∀ key ∈ held, x.Free t key)
    (ho : ∀ {c}, o = some c → C.Safe c.request c.program c.held s ∧ c.program.answer? = none ∧
      ∀ key ∈ c.held, x.Free t key) : Sane C (x.put t o s) := by
  have hself {c : Client κ σ α ρ} (hc : (x.put t o s).clients t = some c) : o = some c :=
    Database.put_self.symm.trans hc
  refine ⟨hinv, fun {t' c} hc => ?_, fun {t' c} hc => ?_, fun {t₁ t₂ c₁ c₂} hne h₁ h₂ => ?_⟩
  · by_cases ht : t' = t
    · exact (ho (hself (ht ▸ hc))).1
    rw [Database.put_of_ne ht] at hc
    rcases hstore with rfl | ⟨q, a, hg⟩
    · exact h.safe hc
    · exact (h.safe hc).interferes (h.working hc)
        ⟨h.invariant, hinv, q, a, held, fun key hkey => hheld key hkey t' c ht hc, hg⟩
  · by_cases ht : t' = t
    · exact (ho (hself (ht ▸ hc))).2.1
    · exact h.working ((Database.put_of_ne ht).symm.trans hc)
  · intro key hkey hkey'
    by_cases ht₁ : t₁ = t
    · subst ht₁
      rw [Database.put_of_ne hne.symm] at h₂
      exact (ho (hself h₁)).2.2 key hkey t₂ c₂ hne.symm h₂ hkey'
    rw [Database.put_of_ne ht₁] at h₁
    by_cases ht₂ : t₂ = t
    · subst ht₂
      exact (ho (hself h₂)).2.2 key hkey' t₁ c₁ ht₁ h₁ hkey
    rw [Database.put_of_ne ht₂] at h₂
    exact h.exclusive hne h₁ h₂ key hkey hkey'

/-- **One step** keeps the database sane; what it does to the store and answers is allowed. -/
theorem sane_step (hserve : Serves C serve) (h : Sane C x) (hs : DatabaseStep serve x a y) :
    Sane C y ∧ (a.answer? = none ∧ y.store = x.store ∨
      ∃ q r held, a.answer? = r.map (fun r => (q, r)) ∧ C.Allows q r held x.store y.store) := by
  cases hs with
  | @start t request hfree =>
    have hsafe := hserve request x.store h.invariant
    have hfree : ∀ key ∈ ([] : List κ), x.Free t key := fun _ hkey => absurd hkey List.not_mem_nil
    refine ⟨h.put h.invariant (Or.inl rfl) hfree fun {c} hc => ?_,
      Or.inr ⟨request, (serve request).answer?, [], rfl, Or.inl ⟨rfl, fun r hr => ?_⟩⟩⟩
    · obtain ⟨rfl, hwork⟩ := settled_eq_some hc
      exact ⟨hsafe, hwork, fun _ hkey => absurd hkey List.not_mem_nil⟩
    · generalize serve request = p at hsafe hr
      cases p with
      | answer a =>
        obtain rfl := Option.some.inj hr
        exact hsafe
      | lock | read | commit => cases hr
  | @run t c c' s hc hs =>
    obtain ⟨hrequest, hinv, hsafe, hheld, hstore⟩ := statement_safe h.invariant (h.safe hc) hs
    refine ⟨h.put hinv (hstore.imp And.left fun hg => ⟨_, _, hg⟩) (h.free hc) fun {c''} hc'' => ?_,
      Or.inr ⟨c.request, c'.program.answer?, c.held, ?_, hstore⟩⟩
    · obtain ⟨rfl, hwork⟩ := settled_eq_some hc''
      exact ⟨hsafe hwork, hwork, fun key hkey => (hheld key hkey).elim (h.free hc key) id⟩
    · show c'.program.answer?.map _ = _
      rw [hrequest]
  | fail hc =>
    refine ⟨h.put h.invariant (Or.inl rfl) (h.free hc) fun {c'} hc' => ?_, Or.inl ⟨rfl, rfl⟩⟩
    cases hc'

/-- The answer of a step. -/
theorem allows_of_answer (hserve : Serves C serve) (h : Sane C x) (hs : DatabaseStep serve x a y)
    {q : α} {r : ρ} (hr : a.answer? = some (q, r)) :
    ∃ held, C.Allows q (some r) held x.store y.store := by
  rcases (sane_step hserve h hs).2 with ⟨hnone, -⟩ | ⟨q', r', held, hanswer, hallows⟩
  · rw [hnone] at hr
    cases hr
  · rw [hr] at hanswer
    obtain ⟨r'', rfl, heq⟩ := Option.map_eq_some_iff.1 hanswer.symm
    cases heq
    exact ⟨held, hallows⟩

/-- **The invariant holds in every interleaving.** -/
theorem sane_of_reachable (hserve : Serves C serve)
    (h : Reachable (Opened C) (DatabaseStep serve) x) : Sane C x :=
  h.invariant (P := Sane C) (fun h => sane_of_opened h) fun hs h => (sane_step hserve hs h).1

theorem invariant_of_reachable (hserve : Serves C serve)
    (h : Reachable (Opened C) (DatabaseStep serve) x) : C.invariant x.store :=
  (sane_of_reachable hserve h).invariant

/-- The steps that lead to a store of some kind. -/
def Keeping (good : σ → Prop) (serve : α → Program κ σ ρ) (x : Database τ κ σ α ρ)
    (a : DatabaseAction τ α ρ) (y : Database τ κ σ α ρ) : Prop :=
  DatabaseStep serve x a y ∧ good y.store

/-- A preorder that contains every commit relates the ends of a run. -/
theorem related_of_keeping {R : σ → σ → Prop} {good : σ → Prop} (hserve : Serves C serve)
    (hrefl : ∀ s, R s s) (htrans : ∀ {s s' s''}, R s s' → R s' s'' → R s s'')
    (hcommit : ∀ q a held s s', C.invariant s → C.invariant s' → good s' →
      C.guarantee q a held s s' → R s s')
    {as : List (DatabaseAction τ α ρ)} (hx : Sane C x) (h : Steps (Keeping good serve) x as y) :
    R x.store y.store := by
  refine h.related (P := Sane C) (R := fun x y => R x.store y.store)
    (fun hs h => (sane_step hserve hs h.1).1) (fun _ => hrefl _) htrans ?_ hx
  intro x a y hs h
  obtain ⟨hs', ⟨-, hstore⟩ | ⟨q, r, held, -, ⟨hstore, -⟩ | hg⟩⟩ := sane_step hserve hs h.1
  · rw [hstore]
    exact hrefl _
  · rw [hstore]
    exact hrefl _
  · exact hcommit q r held _ _ hs.invariant hs'.invariant h.2 hg

/-- **Commit points.** Where a request commits once, and is answered then, the answers are those of
a system that serves one request at a time, in the order in which they are given. -/
theorem serial {step : σ → α × ρ → σ → Prop} (hserve : Serves C serve)
    (hanswer : ∀ q r s, C.invariant s → C.answers q r s → step s (q, r) s)
    (hcommit : ∀ q a held s s', C.invariant s → C.guarantee q a held s s' →
      ∃ r, a = some r ∧ step s (q, r) s')
    {as : List (DatabaseAction τ α ρ)} (hx : Sane C x) (h : Steps (DatabaseStep serve) x as y) :
    Steps step x.store (as.filterMap DatabaseAction.answer?) y.store := by
  induction h with
  | nil => exact .nil _
  | cons hs _ ih =>
    obtain ⟨hsane, hstore⟩ := sane_step hserve hx hs
    rw [List.filterMap_cons]
    rcases hstore with ⟨hnone, hstore⟩ | ⟨q, r, held, hr, hallows⟩
    · rw [hnone, ← hstore]
      exact ih hsane
    rcases hallows with ⟨hstore, hanswers⟩ | hg
    · rw [hr]
      cases r with
      | none =>
        rw [← hstore]
        exact ih hsane
      | some r =>
        have hserved := hanswer q r _ hsane.invariant (hanswers r rfl)
        rw [← hstore]
        exact .cons hserved (ih hsane)
    · obtain ⟨r, rfl, hstep⟩ := hcommit q r held _ _ hx.invariant hg
      rw [hr]
      exact .cons hstep (ih hsane)

/-! ## Schedules -/

section Schedules

variable {n : Nat} {z : Database (Fin n) κ σ α ρ}

def Client.advance (free : κ → Bool) (s : σ) (c : Client κ σ α ρ) : Option (σ × Client κ σ α ρ) :=
  match c.program with
  | .answer _ => none
  | .lock key next => if free key then some (s, ⟨c.request, key :: c.held, next⟩) else none
  | .read next => some (s, ⟨c.request, c.held, next s⟩)
  | .commit write next refused =>
    match write s with
    | some s' => some (s', ⟨c.request, [], next⟩)
    | none => some (s, ⟨c.request, [], refused⟩)

theorem statement_of_advance {free : κ → Bool} {Free : κ → Prop}
    (hfree : ∀ key, free key = true → Free key) {s s' : σ}
    (h : c.advance free s = some (s', c')) : Statement Free s c s' c' := by
  obtain ⟨request, held, program⟩ := c
  cases program with
  | answer a => cases h
  | lock key next =>
    simp only [Client.advance] at h
    split_ifs at h with hkey
    cases h
    exact .lock (hfree key hkey)
  | read next =>
    cases h
    exact .read
  | commit write next refused =>
    simp only [Client.advance] at h
    cases hw : write s with
    | none =>
      rw [hw] at h
      cases h
      exact .refuse hw
    | some u =>
      rw [hw] at h
      cases h
      exact .commit hw

variable [DecidableEq κ]

def Database.free (x : Database (Fin n) κ σ α ρ) (t : Fin n) (key : κ) : Bool :=
  (List.finRange n).all fun t' => t' = t || decide (key ∉ (x.clients t').elim [] Client.held)

/-- What a client does in its turn. -/
def Database.turn (serve : α → Program κ σ ρ) (x : Database (Fin n) κ σ α ρ) (t : Fin n) :
    Option α → Option (DatabaseAction (Fin n) α ρ × Database (Fin n) κ σ α ρ)
  | some request =>
    match x.clients t with
    | none =>
      let c : Client κ σ α ρ := ⟨request, [], serve request⟩
      some (.start t request c.answer?, x.put t c.settled x.store)
    | some _ => none
  | none =>
    match x.clients t with
    | none => none
    | some c => (c.advance (x.free t) x.store).map fun next =>
        (.run t next.2.answer?, x.put t next.2.settled next.1)

/-- The actions of a schedule, and where they lead. A turn in which nothing can be done is passed
over. -/
def Database.schedule (serve : α → Program κ σ ρ) :
    List (Fin n × Option α) → Database (Fin n) κ σ α ρ →
      List (DatabaseAction (Fin n) α ρ) × Database (Fin n) κ σ α ρ
  | [], x => ([], x)
  | (t, q) :: turns, x =>
    match x.turn serve t q with
    | none => schedule serve turns x
    | some (a, y) => (a :: (schedule serve turns y).1, (schedule serve turns y).2)

theorem Database.free_of_free {t : Fin n} {key : κ} (h : z.free t key = true) : z.Free t key := by
  intro t' c hne hc hkey
  have := List.all_eq_true.1 h t' (List.mem_finRange t')
  rw [hc, Bool.or_eq_true, decide_eq_true_eq, decide_eq_true_eq] at this
  exact this.elim hne fun hfree => hfree hkey

/-- **A turn is a step.** -/
theorem step_of_turn {t : Fin n} {q : Option α} {a : DatabaseAction (Fin n) α ρ}
    {z' : Database (Fin n) κ σ α ρ} (h : z.turn serve t q = some (a, z')) :
    DatabaseStep serve z a z' := by
  cases q with
  | some request =>
    cases hc : z.clients t with
    | some c =>
      simp only [Database.turn, hc] at h
      cases h
    | none =>
      simp only [Database.turn, hc] at h
      cases h
      exact .start hc
  | none =>
    cases hc : z.clients t with
    | none =>
      simp only [Database.turn, hc] at h
      cases h
    | some c =>
      simp only [Database.turn, hc] at h
      obtain ⟨⟨s, c'⟩, hadvance, heq⟩ := Option.map_eq_some_iff.1 h
      cases heq
      exact .run hc (statement_of_advance (fun _ => Database.free_of_free) hadvance)

/-- **A schedule is a run.** -/
theorem steps_of_schedule {turns : List (Fin n × Option α)} :
    Steps (DatabaseStep serve) z (Database.schedule serve turns z).1
      (Database.schedule serve turns z).2 := by
  induction turns generalizing z with
  | nil => exact .nil z
  | cons turn turns ih =>
    unfold Database.schedule
    split
    · exact ih
    · next hturn => exact .cons (step_of_turn hturn) ih

end Schedules

end GoAgent.Foundation
