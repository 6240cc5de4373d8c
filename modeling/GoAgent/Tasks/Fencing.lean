import GoAgent.Tasks.Service

/-!
# Fencing

Any number of workers, cancel requests, recovery and retry scheduling call the service on one
task, each at a time of its own. The code compares lease tokens after it has stripped them.

* `settled_by_effect` — a call that takes effect on an attempt finds it active and leaves it
  settled.
* `fenced` — one success at most, no late or foreign settlement, and one settlement an attempt.
-/

namespace GoAgent.Tasks

open GoAgent.Foundation GoAgent.Tasks.Task GoAgent.Tasks.TaskAttempt

variable {t t' : Task} {s s' s₁ s₂ s₃ s₄ : Record} {r r₁ r₂ : Request} {rs : List Request}
  {call : Call} {j k : Nat} {a a' : TaskAttempt}

/-- The attempt and the lease token that a report of a worker names. -/
def TaskCommand.report : TaskCommand → Option (UUID × String)
  | .confirmCancel attemptId leaseToken => some (attemptId, leaseToken)
  | .complete attemptId leaseToken _ _ => some (attemptId, leaseToken)
  | .fail attemptId leaseToken _ _ _ _ => some (attemptId, leaseToken)
  | _ => none

def TaskCommand.Recovery (c : TaskCommand) : Prop :=
  ∃ commandId retryAt attemptId, c = .recoverExpiredAttempt commandId retryAt attemptId

/-- The call changed the task, as a report on the attempt at position `k` or as its recovery. -/
def TakesEffect (k : Nat) (s : Record) (r : Request) (s' : Record) : Prop :=
  s'.task ≠ s.task ∧
    ((∃ attemptId leaseToken, r.command.report = some (attemptId, leaseToken) ∧
        s.task.findAttempt attemptId = .ok k) ∨
      r.command.Recovery ∧ s.task.activeAttempt = .ok (some k))

/-- A report that changes the task comes from the holder of a valid lease. -/
theorem holds_of_report {c : TaskCommand} {attemptId : UUID} {leaseToken : String}
    (h : Effect call t c t') (hreport : c.report = some (attemptId, leaseToken))
    (hchanged : t' ≠ t) :
    ∃ k a a', t.Names attemptId k a ∧ a.Holds leaseToken call.now ∧ ¬a'.isActive ∧
      t'.attempts = t.attempts.set k a' := by
  cases h with
  | confirmAgain | completeAgain | failAgain => exact absurd rfl hchanged
  | confirm _ hn hholds | complete _ hn hholds | failRetry _ hn hholds | fail _ hn hholds =>
    cases hreport
    exact ⟨_, _, _, hn, hholds, by simp [TaskAttempt.isActive, finished], rfl⟩
  | _ => cases hreport

theorem expired_of_recovery {c : TaskCommand} (h : Effect call t c t') (hc : c.Recovery) :
    ∃ k a a', t.activeAttempt = .ok (some k) ∧ t.attempts[k]? = some a ∧ a.isActive ∧
      ¬a'.isActive ∧ t'.attempts = t.attempts.set k a' := by
  obtain ⟨_, _, _, rfl⟩ := hc
  cases h with
  | recover _ hactive ha _ hstatus =>
    exact ⟨_, _, _, hactive, ha, hstatus, by simp [TaskAttempt.isActive, finished], rfl⟩

theorem settled_by_effect (h : Accepts s.task r s'.task) (htakes : TakesEffect k s r s') :
    (∃ a, s.task.attempts[k]? = some a ∧ a.isActive) ∧
      ∃ a', s'.task.attempts[k]? = some a' ∧ ¬a'.isActive := by
  obtain ⟨hchanged, ⟨attemptId, leaseToken, hreport, hfind⟩ | ⟨hc, hactive⟩⟩ := htakes
  · obtain ⟨j, a, a', hn, hholds, hdone, hput⟩ :=
      holds_of_report (effect_of_execute h) hreport hchanged
    obtain rfl : k = j := Except.ok.inj (hfind.symm.trans hn.1)
    exact ⟨⟨a, hn.2, hholds.active⟩, a', by rw [hput, getElem?_set_of hn.2, if_pos rfl], hdone⟩
  · obtain ⟨j, a, a', hactive', ha, hstatus, hdone, hput⟩ :=
      expired_of_recovery (effect_of_execute h) hc
    obtain rfl : k = j := Option.some.inj (Except.ok.inj (hactive.symm.trans hactive'))
    exact ⟨⟨a, ha, hstatus⟩, a', by rw [hput, getElem?_set_of ha, if_pos rfl], hdone⟩

/-! ## Successes -/

def successes (t : Task) : Nat := t.events.countP fun e => e.eventType = .taskSucceeded

/-- A command logs nothing, or one event, which tells of a success exactly if the task succeeds
by it. -/
theorem logged_of_effect {c : TaskCommand} (h : Effect call t c t') :
    t'.events = t.events ∧ t'.status = t.status ∨
      t.status ≠ .succeeded ∧ ∃ e, t'.events = t.events ++ [e] ∧
        (e.eventType = .taskSucceeded ↔ t'.status = .succeeded) := by
  cases h with
  | renewAgain | confirmAgain | completeAgain | failAgain | renew => exact Or.inl ⟨rfl, rfl⟩
  | cancelWaiting hs he =>
    refine Or.inr ⟨?_, _, rfl, by simp [he.eventType]⟩
    rcases hs with hs | hs <;> simp [hs]
  | recover hlive _ _ _ _ hout he =>
    refine Or.inr ⟨?_, _, rfl, ?_⟩
    · rcases hlive with hs | hs <;> simp [hs]
    · cases hout <;> simp [he.eventType]
  | claim hs _ _ _ he | cancelRunning hs he | confirm hs _ _ he | complete hs _ _ _ he
    | failRetry hs _ _ _ _ _ _ he | fail hs _ _ _ _ he | requeue hs _ he
    | manualRetry hs _ _ he =>
    exact Or.inr ⟨by simp [hs], _, rfl, by simp [he.eventType]⟩

theorem successes_of_reachable (h : Reachable Created Accepts t) :
    successes t = if t.status = .succeeded then 1 else 0 := by
  refine h.invariant (P := fun t => successes t = if t.status = .succeeded then 1 else 0) ?_ ?_
  · intro t hc
    obtain ⟨hs, -, -, e, hevents, hty, -⟩ := created_ok hc
    simp [successes, hevents, hty, hs]
  · intro t r t' ht hr
    rcases logged_of_effect (effect_of_execute hr) with ⟨hlog, hs⟩ | ⟨hne, e, hlog, hiff⟩
    · rw [successes, hlog, hs]
      exact ht
    · rw [if_neg hne] at ht
      rw [successes, hlog, List.countP_append]
      unfold successes at ht
      rw [ht, List.countP_singleton]
      simp [hiff]

/-! ## The fence -/

theorem unchanged_of_unheld {attemptId : UUID} {leaseToken : String} (h : Serves s r s')
    (hreport : r.command.report = some (attemptId, leaseToken)) (hn : s.task.Names attemptId k a)
    (hout : a.leaseToken ≠ strip leaseToken ∨ a.leaseExpiresAt.instant ≤ r.call.now.instant ∨
      a.status = .expired) : s'.task = s.task := by
  by_contra hchanged
  rcases accepts_of_serves h with rfl | ⟨h, -⟩
  · exact hchanged rfl
  · obtain ⟨j, b, -, hn', hholds, -⟩ := holds_of_report (effect_of_execute h) hreport hchanged
    obtain rfl : k = j := Except.ok.inj (hn.1.symm.trans hn'.1)
    obtain rfl : a = b := Option.some.inj (hn.2.symm.trans hn'.2)
    rcases hout with htoken | hexpired | hstatus
    · exact htoken hholds.token
    · exact Int.not_lt.2 hexpired hholds.valid
    · have hactive := hholds.active
      rw [TaskAttempt.isActive, hstatus] at hactive
      cases hactive

/-- An attempt is settled once. -/
theorem settled_once (h₁ : Serves s₁ r₁ s₂) (heffect : TakesEffect k s₁ r₁ s₂)
    (h : Steps Serves s₂ rs s₃) (h₂ : Serves s₃ r₂ s₄) : ¬TakesEffect k s₃ r₂ s₄ := by
  intro heffect'
  rcases accepts_of_serves h₁ with rfl | ⟨h₁, -⟩
  · exact heffect.1 rfl
  rcases accepts_of_serves h₂ with rfl | ⟨h₂, -⟩
  · exact heffect'.1 rfl
  obtain ⟨-, a, ha, hdone⟩ := settled_by_effect h₁ heffect
  obtain ⟨⟨b, hb, hactive⟩, -⟩ := settled_by_effect h₂ heffect'
  rw [settled_of_steps h ha hdone, Option.some.injEq] at hb
  exact hdone (hb ▸ hactive)

/-- **Fencing.** Whatever calls are served, in any order and at any times: a task records one
success at most; a report whose stripped token is not that of the attempt it names, or that comes
when the lease has run out or recovery has expired the attempt, changes nothing; and of all
reports on an attempt and its recovery only one ever takes effect. -/
theorem fenced (h : Reachable Submitted Serves s) :
    successes s.task ≤ 1 ∧
    (∀ r s' attemptId leaseToken k a, Serves s r s' →
      r.command.report = some (attemptId, leaseToken) → s.task.Names attemptId k a →
      (a.leaseToken ≠ strip leaseToken ∨ a.leaseExpiresAt.instant ≤ r.call.now.instant ∨
        a.status = .expired) → s'.task = s.task) ∧
    ∀ k r₁ s₂ rs s₃ r₂ s₄, Serves s r₁ s₂ → Steps Serves s₂ rs s₃ → Serves s₃ r₂ s₄ →
      TakesEffect k s r₁ s₂ → ¬TakesEffect k s₃ r₂ s₄ := by
  refine ⟨?_, ?_, ?_⟩
  · rw [successes_of_reachable (task_reachable h)]
    split_ifs <;> omega
  · intro r s' attemptId leaseToken k a hr hreport hn hout
    exact unchanged_of_unheld hr hreport hn hout
  · intro k r₁ s₂ rs s₃ r₂ s₄ h₁ hsteps h₂ heffect
    exact settled_once h₁ heffect hsteps h₂

/-- A worker reports success under another token, and then under a padded one. -/
def foreignReport : Request := ⟨.complete 11 "tok2" "f1" "done", callAt 2⟩

def paddedReport : Request := ⟨.complete 11 " tok1" "f1" "done", callAt 2⟩

theorem fenced_foreign : (respond claimedRecord foreignReport).task = claimedRecord.task :=
  (fenced claimedRecord_reachable).2.1 foreignReport _ 11 "tok2" 0
    (claimedRecord.task.attempts.head (by decide +kernel)) rfl rfl
    ⟨by decide +kernel, by decide +kernel⟩ (Or.inl (by decide +kernel))

theorem padded_token_accepted : ¬∀ s r s' attemptId leaseToken k a, Reachable Submitted Serves s →
    Serves s r s' → r.command.report = some (attemptId, leaseToken) →
    s.task.Names attemptId k a → a.leaseToken ≠ leaseToken → s'.task = s.task := by
  intro hall
  have h := hall claimedRecord paddedReport _ 11 " tok1" 0
    (claimedRecord.task.attempts.head (by decide +kernel)) claimedRecord_reachable rfl rfl
    ⟨by decide +kernel, by decide +kernel⟩ (by decide +kernel)
  have hs := congrArg Task.status h
  exact absurd hs (by decide +kernel)

end GoAgent.Tasks
