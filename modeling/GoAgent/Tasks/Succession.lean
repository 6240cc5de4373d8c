import GoAgent.Tasks.Lifecycle

/-!
# One attempt after another

An attempt keeps its identity and its holder for good (`Continues`), a settled attempt is never
touched again, and only the last attempt can be active.

* `attempts_of_effect` — what any command does to the list of attempts.
* `lastActive_of_reachable` — an active attempt is the last one.
-/

namespace GoAgent.Tasks

open GoAgent.Foundation GoAgent.Tasks.Task GoAgent.Tasks.TaskAttempt

variable {t t' : Task} {call : Call} {j k : Nat} {a a' : TaskAttempt}

/-- The columns of an attempt that no command writes. -/
structure TaskAttempt.Continues (a a' : TaskAttempt) : Prop where
  taskId : a'.taskId = a.taskId
  number : a'.number = a.number
  workerId : a'.workerId = a.workerId
  claimId : a'.claimId = a.claimId
  leaseToken : a'.leaseToken = a.leaseToken
  id : a'.id = a.id
  createdAt : a'.createdAt = a.createdAt

theorem TaskAttempt.Continues.refl (a : TaskAttempt) : a.Continues a :=
  ⟨rfl, rfl, rfl, rfl, rfl, rfl, rfl⟩

theorem TaskAttempt.Continues.trans {b c : TaskAttempt} (h : a.Continues b)
    (h' : b.Continues c) : a.Continues c where
  taskId := h'.taskId.trans h.taskId
  number := h'.number.trans h.number
  workerId := h'.workerId.trans h.workerId
  claimId := h'.claimId.trans h.claimId
  leaseToken := h'.leaseToken.trans h.leaseToken
  id := h'.id.trans h.id
  createdAt := h'.createdAt.trans h.createdAt

/-- What a command does to the attempts: nothing, one more of them, or a new state of an active
one. -/
inductive Succeeds (t : Task) : List TaskAttempt → Prop
  | same : Succeeds t t.attempts
  | claimed {a : TaskAttempt} (hq : t.status = .queued) (hactive : a.isActive) :
      Succeeds t (t.attempts ++ [a])
  | put {k : Nat} {a a' : TaskAttempt} (ha : t.attempts[k]? = some a) (hactive : a.isActive)
      (hsame : a.Continues a') : Succeeds t (t.attempts.set k a')

theorem continues_finished {s : AttemptStatus} {now : DateTime} {f : Option FailureCategory}
    {code fingerprint : Option String} : a.Continues (a.finished s now f code fingerprint) :=
  ⟨rfl, rfl, rfl, rfl, rfl, rfl, rfl⟩

theorem attempts_of_effect {c : TaskCommand} (h : Effect call t c t') :
    Succeeds t t'.attempts := by
  cases h with
  | claim hq _ _ ha =>
    refine .claimed hq ?_
    obtain ⟨-, -, -, -, -, -, -, -, rfl⟩ := (TaskAttempt.make_ok rfl).1 ha
    rfl
  | renew hn hholds => exact .put hn.2 hholds.active ⟨rfl, rfl, rfl, rfl, rfl, rfl, rfl⟩
  | confirm _ hn hholds | complete _ hn hholds | failRetry _ hn hholds | fail _ hn hholds =>
    exact .put hn.2 hholds.active continues_finished
  | recover _ _ ha _ hstatus => exact .put ha hstatus continues_finished
  | _ => exact .same

theorem getElem?_set_of (ha : t.attempts[k]? = some a) :
    (t.attempts.set k a')[j]? = if j = k then some a' else t.attempts[j]? := by
  have hk := (List.getElem?_eq_some_iff.1 ha).1
  rw [List.getElem?_set, if_pos hk]
  simp only [eq_comm]

/-- A column that attempts keep only grows. -/
theorem columns_of_succeeds {β : Type} {f : TaskAttempt → β} {l : List TaskAttempt}
    (hf : ∀ a a', TaskAttempt.Continues a a' → f a' = f a) (h : Succeeds t l) :
    t.attempts.map f <+: l.map f := by
  cases h with
  | same => exact List.prefix_refl _
  | claimed => exact List.map_append ▸ List.prefix_append _ _
  | put ha _ hsame => exact (map_put ha (hf _ _ hsame)).symm ▸ List.prefix_refl _

theorem settled_of_succeeds {l : List TaskAttempt} (h : Succeeds t l)
    (ha : t.attempts[k]? = some a) (hsettled : ¬a.isActive) : l[k]? = some a := by
  cases h with
  | same => exact ha
  | claimed => rwa [List.getElem?_append_left (List.getElem?_eq_some_iff.1 ha).1]
  | put hb hactive =>
    rw [getElem?_set_of hb, if_neg ?_, ha]
    rintro rfl
    rw [ha, Option.some.injEq] at hb
    exact hsettled (hb ▸ hactive)

/-! ## Active attempts -/

theorem live_of_active (hs : Sound t) (ha : t.attempts[k]? = some a) (h : a.isActive) :
    t.status.Live := by
  by_contra hlive
  have hnone := hs.active
  rw [if_neg hlive, List.countP_eq_zero] at hnone
  exact hnone a (List.mem_of_getElem? ha) (decide_eq_true h)

/-- Only the last attempt can be active. -/
def LastActive (t : Task) : Prop :=
  ∀ k a, t.attempts[k]? = some a → a.isActive → k + 1 = t.attempts.length

theorem lastActive_of_effect {c : TaskCommand} (hs : Sound t) (hlast : LastActive t)
    (h : Effect call t c t') : LastActive t' := by
  intro j b hb hactive
  have hsucc := attempts_of_effect h
  revert hb
  generalize t'.attempts = l at hsucc ⊢
  intro hb
  cases hsucc with
  | same => exact hlast j b hb hactive
  | claimed hq =>
    rw [List.length_append, List.length_singleton]
    rcases Nat.lt_or_ge j t.attempts.length with hj | hj
    · rw [List.getElem?_append_left hj] at hb
      have hlive := live_of_active hs hb hactive
      simp [TaskStatus.Live, hq] at hlive
    · have hj' := (List.getElem?_eq_some_iff.1 hb).1
      rw [List.length_append, List.length_singleton] at hj'
      omega
  | put ha hk =>
    rw [getElem?_set_of ha] at hb
    rw [List.length_set]
    split_ifs at hb with hj
    · exact hj ▸ hlast _ _ ha hk
    · exact hlast j b hb hactive

theorem lastActive_of_created (h : Created t) : LastActive t := by
  intro k a ha
  rw [(created_ok h).2.1] at ha
  cases ha

theorem lastActive_of_reachable (h : Reachable Created Accepts t) : LastActive t :=
  (h.invariant (P := fun t => Healthy t ∧ LastActive t)
    (fun hc => ⟨healthy_of_created hc, lastActive_of_created hc⟩)
    fun hinv hr => ⟨healthy_of_execute hinv.1 hr,
      lastActive_of_effect hinv.1.sound hinv.2 (effect_of_execute hr)⟩).2

/-- An active attempt put back is still the last one. -/
theorem getLast?_put (hlast : LastActive t) (ha : t.attempts[k]? = some a) (hk : a.isActive) :
    (t.put k a').attempts.getLast? = some a' := by
  have hlen := hlast k a ha hk
  rw [List.getLast?_eq_getElem?, length_put, Task.put, getElem?_set_of ha, if_pos (by omega)]

end GoAgent.Tasks
