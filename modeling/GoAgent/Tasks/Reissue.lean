import GoAgent.Tasks.Service

/-!
# Commands issued again

`Shows s c` is what the record shows of a command `c` that was accepted: a receipt, an attempt
under the worker and claim id, or a settled attempt with the result. It stays true, and it makes
the same command succeed again without a change. A failure report is the exception: its shortcut
only looks at a task that waits for a retry or has failed, so once the task was queued again the
same report is rejected.

* `shows_of_handle` — an accepted command leaves its trace.
* `shows_of_steps` — the trace stays.
* `reissued` — the trace answers the command when it is issued again, at any later time.
-/

namespace GoAgent.Tasks

open GoAgent.Foundation GoAgent.Tasks.Task GoAgent.Tasks.TaskAttempt TaskLifecycleService

variable {t t' : Task} {s s' s₁ s₂ s₃ : Record} {r : Request} {rs : List Request} {call : Call}
  {c : TaskCommand} {j k : Nat} {a a' : TaskAttempt} {u : Unit}

/-- The id names an attempt that was settled under the token, with the result. -/
def ShowsReport (t : Task) (attemptId : UUID) (leaseToken fingerprint : String)
    (status : AttemptStatus) : Prop :=
  ∃ k a, t.SettledAs attemptId leaseToken status k a ∧
    requireSafeFingerprint fingerprint = .ok (strip fingerprint) ∧
    a.resultFingerprint = some (strip fingerprint)

/-- What a record shows of an accepted command. -/
def Shows (s : Record) : TaskCommand → Prop
  | .claim workerId claimId leaseToken _ =>
    isBlank workerId = false ∧ isBlank claimId = false ∧ isBlank leaseToken = false ∧
      ∃ a, (s.task.attempts.find? fun a =>
        a.workerId = strip workerId ∧ a.claimId = strip claimId) = some a ∧
        a.leaseToken = strip leaseToken
  | .renewLease .. => True
  | .requestCancel commandId => isBlank commandId = false ∧ ⟨"cancel", strip commandId⟩ ∈ s.receipts
  | .confirmCancel attemptId leaseToken =>
    s.task.status = .cancelled ∧ ∃ k a, s.task.SettledAs attemptId leaseToken .cancelled k a
  | .complete attemptId leaseToken fingerprint _ =>
    s.task.status = .succeeded ∧ ShowsReport s.task attemptId leaseToken fingerprint .succeeded
  | .fail attemptId leaseToken _ _ fingerprint _ =>
    ShowsReport s.task attemptId leaseToken fingerprint .failed
  | .requeueDue commandId => isBlank commandId = false ∧ ⟨"requeue", strip commandId⟩ ∈ s.receipts
  | .requestManualRetry commandId =>
    isBlank commandId = false ∧ ⟨"manual-retry", strip commandId⟩ ∈ s.receipts
  | .recoverExpiredAttempt commandId _ _ =>
    isBlank commandId = false ∧ ⟨"recover", strip commandId⟩ ∈ s.receipts

/-! ## The trace of an accepted command -/

theorem receipt_of_once {commandType commandId : String} {method : TaskM Unit}
    (h : once commandType commandId method s = .ok u s') :
    isBlank commandId = false ∧ ⟨commandType, strip commandId⟩ ∈ s'.receipts := by
  obtain ⟨hb, ⟨hr, rfl⟩ | ⟨-, t, -, rfl⟩⟩ := once_ok.1 h
  · exact ⟨hb, hr⟩
  · exact ⟨hb, List.mem_append_right _ (List.mem_singleton_self _)⟩

theorem findAttempt_ok {attemptId : UUID} : t.findAttempt attemptId = .ok k ↔
    (t.attempts.map TaskAttempt.id).findIdx? (fun i => i = attemptId) = some k := by
  rw [List.findIdx?_map, findAttempt]
  simp only [Function.comp_def]
  cases t.attempts.findIdx? fun a => a.id = attemptId <;> simp

/-- An id names the same position as long as the ids only grow. -/
theorem findAttempt_extended {attemptId : UUID}
    (hids : t.attempts.map TaskAttempt.id <+: t'.attempts.map TaskAttempt.id)
    (h : t.findAttempt attemptId = .ok k) : t'.findAttempt attemptId = .ok k := by
  rw [findAttempt_ok] at h ⊢
  obtain ⟨rest, hrest⟩ := hids
  rw [← hrest, List.findIdx?_append, h]
  rfl

/-- The attempt that a report put in place is named by the same id. -/
theorem names_put {attemptId : UUID} (hn : t.Names attemptId k a) (hsame : a.Continues a') :
    (t.put k a').Names attemptId k a' := by
  refine ⟨findAttempt_extended ?_ hn.1, (getElem?_set_of hn.2).trans (if_pos rfl)⟩
  rw [map_put hn.2 hsame.id]

theorem shows_of_handle (h : handle r s = .ok u s') : Shows s' r.command := by
  obtain ⟨command, call⟩ := r
  cases command with
  | claim workerId claimId leaseToken expiry =>
    obtain ⟨a, h⟩ := discard_ok.1 h
    obtain ⟨hw, hc, ⟨hfind, hl, htoken, rfl⟩ | ⟨hnone, t, ht, rfl⟩⟩ := claim_ok.1 h
    · exact ⟨hw, hc, hl, a, hfind, htoken⟩
    · have heffect := (claim_effect ht).1
      cases heffect with
      | @claim _ _ _ _ b _ _ _ _ hmake =>
        obtain ⟨-, -, -, hl, -, -, -, -, rfl⟩ := (TaskAttempt.make_ok rfl).1 hmake
        refine ⟨hw, hc, hl, ?_⟩
        rw [List.find?_append, hnone]
        simp
  | renewLease => trivial
  | requestCancel | requeueDue | requestManualRetry | recoverExpiredAttempt =>
    exact receipt_of_once h
  | confirmCancel =>
    obtain ⟨t, ht, rfl⟩ := saved_ok.1 h
    have heffect := (confirmCancel_effect ht).1
    cases heffect with
    | confirmAgain hs ha => exact ⟨hs, _, _, ha⟩
    | confirm _ hn hholds =>
      exact ⟨rfl, _, _, names_put hn continues_finished, rfl, hholds.given, hholds.token⟩
  | complete =>
    obtain ⟨t, ht, rfl⟩ := saved_ok.1 h
    have heffect := (complete_effect ht).1
    cases heffect with
    | completeAgain hs ha hfp hsame => exact ⟨hs, _, _, ha, hfp, hsame⟩
    | complete _ hn hholds hfp =>
      exact ⟨rfl, _, _, ⟨names_put hn continues_finished, rfl, hholds.given, hholds.token⟩, hfp, rfl⟩
  | fail =>
    obtain ⟨t, ht, rfl⟩ := saved_ok.1 h
    have heffect := (fail_effect ht).1
    cases heffect with
    | failAgain hs ha hfp hsame => exact ⟨_, _, ha, hfp, hsame⟩
    | failRetry _ hn hholds _ _ _ hfp | fail _ hn hholds _ hfp =>
      exact ⟨_, _, ⟨names_put hn continues_finished, rfl, hholds.given, hholds.token⟩, hfp, rfl⟩

/-! ## The trace stays -/

theorem settledAs_of_steps {attemptId : UUID} {leaseToken : String} {status : AttemptStatus}
    (h : Steps Serves s rs s') (ha : s.task.SettledAs attemptId leaseToken status k a)
    (hstatus : status ≠ .active) : s'.task.SettledAs attemptId leaseToken status k a where
  names := by
    refine ⟨findAttempt_extended (columns_of_steps (fun _ _ h => h.id) h) ha.names.1, ?_⟩
    refine settled_of_steps h ha.names.2 ?_
    rw [TaskAttempt.isActive, ha.status]
    exact hstatus
  status := ha.status
  given := ha.given
  token := ha.token

/-- A claim finds the same holder and token at any later time. -/
theorem claim_of_steps {worker claim token : String} (h : Steps Serves s rs s')
    (hfind : ∃ a, (s.task.attempts.find? fun a => a.workerId = worker ∧ a.claimId = claim) =
      some a ∧ a.leaseToken = token) :
    ∃ a, (s'.task.attempts.find? fun a => a.workerId = worker ∧ a.claimId = claim) =
      some a ∧ a.leaseToken = token := by
  obtain ⟨a, hfind, htoken⟩ := hfind
  have hcols := columns_of_steps (f := fun a => (a.workerId, a.claimId, a.leaseToken))
    (fun _ _ h => by rw [h.workerId, h.claimId, h.leaseToken]) h
  obtain ⟨rest, hrest⟩ := hcols
  have hkeys (l : List TaskAttempt) :
      (l.map fun a => (a.workerId, a.claimId, a.leaseToken)).find?
        (fun x => x.1 = worker ∧ x.2.1 = claim) =
      (l.find? fun a => a.workerId = worker ∧ a.claimId = claim).map
        fun a => (a.workerId, a.claimId, a.leaseToken) := List.find?_map
  have h' := hkeys s'.task.attempts
  rw [← hrest, List.find?_append, hkeys, hfind, Option.map_some, Option.some_or] at h'
  obtain ⟨a', ha', hsame⟩ := Option.map_eq_some_iff.1 h'.symm
  simp only [Prod.mk.injEq] at hsame
  exact ⟨a', ha', hsame.2.2.trans htoken⟩

theorem showsReport_of_steps {attemptId : UUID} {leaseToken fingerprint : String}
    {status : AttemptStatus} (h : Steps Serves s rs s') (hstatus : status ≠ .active)
    (hs : ShowsReport s.task attemptId leaseToken fingerprint status) :
    ShowsReport s'.task attemptId leaseToken fingerprint status := by
  obtain ⟨k, a, ha, hfp, hsame⟩ := hs
  exact ⟨k, a, settledAs_of_steps h ha hstatus, hfp, hsame⟩

theorem shows_of_steps (h : Steps Serves s rs s') (hs : Shows s c) : Shows s' c := by
  have hreceipts := (receipts_of_steps h).subset
  cases c with
  | claim =>
    obtain ⟨hw, hc, hl, hfind⟩ := hs
    exact ⟨hw, hc, hl, claim_of_steps h hfind⟩
  | renewLease => trivial
  | requestCancel | requeueDue | requestManualRetry | recoverExpiredAttempt =>
    exact ⟨hs.1, hreceipts hs.2⟩
  | confirmCancel =>
    obtain ⟨hs, k, a, ha⟩ := hs
    exact ⟨(final_of_serves h (hs ▸ rfl)).trans hs, k, a, settledAs_of_steps h ha (by simp)⟩
  | complete =>
    exact ⟨(final_of_serves h (hs.1 ▸ rfl)).trans hs.1,
      showsReport_of_steps h (by simp) hs.2⟩
  | fail => exact showsReport_of_steps h (by simp) hs

/-! ## Issuing a command again -/

def TaskCommand.Renewal (c : TaskCommand) : Prop :=
  ∃ attemptId leaseToken seq expiry, c = .renewLease attemptId leaseToken seq expiry

def TaskCommand.Failure (c : TaskCommand) : Prop :=
  ∃ attemptId leaseToken category code fingerprint retryAt,
    c = .fail attemptId leaseToken category code fingerprint retryAt

theorem once_of_receipt {commandType commandId : String} {method : TaskM Unit}
    (hb : isBlank commandId = false) (hr : ⟨commandType, strip commandId⟩ ∈ s.receipts) :
    once commandType commandId method s = .ok () s :=
  once_ok.2 ⟨hb, Or.inl ⟨hr, rfl⟩⟩

/-- A method that returns and leaves the task alone leaves the record alone. -/
theorem saved_of_same {method : TaskM Unit} (h : method s.task = .ok () s.task) :
    saved method none s = .ok () s := saved_ok.2 ⟨s.task, h, rfl⟩

theorem complete_again {attemptId : UUID} {leaseToken fingerprint summary : String}
    (hs : t.status = .succeeded)
    (ha : ShowsReport t attemptId leaseToken fingerprint .succeeded) :
    Task.complete attemptId leaseToken fingerprint summary call t = .ok () t := by
  obtain ⟨k, a, ha, hfp, hsame⟩ := ha
  simp only [Task.complete, bind_ok, get_ok, lift_ok, exists_eq_left, exists_and_left, and_assoc]
  refine ⟨k, ha.names.1, a, attempt_ok.2 ha.names.2, _, hfp, ?_⟩
  rw [if_pos ⟨hs, ha.status⟩]
  exact assertSameTerminalResult_ok.2 ⟨ha.given, ha.token, hsame, rfl⟩

theorem confirmCancel_again {attemptId : UUID} {leaseToken : String} (hs : t.status = .cancelled)
    (ha : t.SettledAs attemptId leaseToken .cancelled k a) :
    confirmCancel attemptId leaseToken call t = .ok () t := by
  simp only [confirmCancel, bind_ok, get_ok, lift_ok, exists_eq_left, exists_and_left, and_assoc]
  refine ⟨k, ha.names.1, a, attempt_ok.2 ha.names.2, ?_⟩
  rw [if_pos ⟨hs, ha.status⟩]
  simp only [bind_ok, lift_ok, requireText_ok, check_ok, exists_eq_left, exists_and_left,
    and_assoc]
  exact ⟨ha.given, ha.token, trivial⟩

theorem fail_again {attemptId : UUID} {leaseToken : String} {category : FailureCategory}
    {code fingerprint : String} {retryAt : Option DateTime}
    (hs : t.status = .retryWait ∨ t.status = .failed)
    (ha : ShowsReport t attemptId leaseToken fingerprint .failed) :
    Task.fail attemptId leaseToken category code fingerprint retryAt call t = .ok () t := by
  obtain ⟨k, a, ha, hfp, hsame⟩ := ha
  simp only [Task.fail, bind_ok, get_ok, lift_ok, exists_eq_left, exists_and_left, and_assoc]
  refine ⟨k, ha.names.1, a, attempt_ok.2 ha.names.2, _, hfp, ?_⟩
  rw [if_pos ⟨hs, ha.status⟩]
  exact assertSameTerminalResult_ok.2 ⟨ha.given, ha.token, hsame, rfl⟩

/-- Once the task has left those states, the report meets a settled attempt and is rejected. -/
theorem fail_rejected {attemptId : UUID} {leaseToken : String} {category : FailureCategory}
    {code fingerprint : String} {retryAt : Option DateTime}
    (ha : ShowsReport t attemptId leaseToken fingerprint .failed)
    (hs : ¬(t.status = .retryWait ∨ t.status = .failed)) :
    Task.fail attemptId leaseToken category code fingerprint retryAt call t ≠ .ok () t' := by
  obtain ⟨k, a, ha, -, -⟩ := ha
  intro h
  have heffect := (fail_effect h).1
  cases heffect with
  | failAgain hs' => exact hs hs'
  | failRetry _ hn hholds | fail _ hn hholds =>
    obtain rfl := Except.ok.inj (ha.names.1.symm.trans hn.1)
    obtain rfl := Option.some.inj (ha.names.2.symm.trans hn.2)
    have hactive := hholds.active
    rw [TaskAttempt.isActive, ha.status] at hactive
    cases hactive

/-- What is on record answers the command again and changes nothing. -/
theorem handle_again (hs : Shows s c) (hc : ¬c.Renewal)
    (hfail : c.Failure → s.task.status = .retryWait ∨ s.task.status = .failed) :
    handle ⟨c, call⟩ s = .ok () s := by
  cases c with
  | claim =>
    obtain ⟨hw, hc, hl, a, hfind, htoken⟩ := hs
    exact discard_ok.2 ⟨a, claim_ok.2 ⟨hw, hc, Or.inl ⟨hfind, hl, htoken, rfl⟩⟩⟩
  | renewLease => exact absurd ⟨_, _, _, _, rfl⟩ hc
  | requestCancel | requeueDue | requestManualRetry | recoverExpiredAttempt =>
    exact once_of_receipt hs.1 hs.2
  | confirmCancel =>
    obtain ⟨hs, k, a, ha⟩ := hs
    exact saved_of_same (confirmCancel_again hs ha)
  | complete => exact saved_of_same (complete_again hs.1 hs.2)
  | fail => exact saved_of_same (fail_again (hfail ⟨_, _, _, _, _, _, rfl⟩) hs)

/-- **Commands issued again.** Issue a command that was accepted once more, at any later time and
after any other calls: the record stays as it is, and the call is answered exactly unless it is a
failure report on a task that has left the state the failure put it in. -/
theorem reissued (h : handle r s₁ = .ok () s₂) (hr : ¬r.command.Renewal)
    (hsteps : Steps Serves s₂ rs s₃) (call : Call) :
    respond s₃ ⟨r.command, call⟩ = s₃ ∧
      ((∃ s', handle ⟨r.command, call⟩ s₃ = .ok () s') ↔
        (r.command.Failure → s₃.task.status = .retryWait ∨ s₃.task.status = .failed)) := by
  have hs := shows_of_steps hsteps (shows_of_handle h)
  by_cases hfail : r.command.Failure → s₃.task.status = .retryWait ∨ s₃.task.status = .failed
  · have hagain : handle ⟨r.command, call⟩ s₃ = .ok () s₃ := handle_again hs hr hfail
    exact ⟨by rw [respond, hagain], iff_of_true ⟨s₃, hagain⟩ hfail⟩
  · have hrejected : ¬∃ s', handle ⟨r.command, call⟩ s₃ = .ok () s' := by
      rintro ⟨s', h⟩
      rw [Classical.not_imp] at hfail
      obtain ⟨⟨_, _, _, _, _, _, hc⟩, hstatus⟩ := hfail
      rw [hc] at hs h
      obtain ⟨t, ht, -⟩ := saved_ok.1 h
      exact fail_rejected hs hstatus ht
    refine ⟨?_, iff_of_false hrejected hfail⟩
    exact ((handle_of_serves (r := ⟨r.command, call⟩) rfl).resolve_right fun h => hrejected ⟨_, h⟩)

def failureReport : Request :=
  ⟨.fail 11 "tok1" .transient "BUSY" "f1" (some ⟨3, true⟩), callAt 2⟩

def failedRecord : Record := respond claimedRecord failureReport

/-- The failed task is queued again. -/
def requeuedRecord : Record := respond failedRecord ⟨.requeueDue "again", callAt 3⟩

theorem failedRecord_handled : handle failureReport claimedRecord = .ok () failedRecord := by
  rcases handle_of_serves (r := failureReport) (rfl : respond claimedRecord _ = failedRecord)
    with h | h
  · exact absurd (congrArg (fun s => s.task.status) h) (by decide +kernel)
  · exact h

theorem failureReport_not_renewal : ¬failureReport.command.Renewal := by
  rintro ⟨_, _, _, _, h⟩
  cases h

theorem reissued_failure : ∃ s', handle ⟨failureReport.command, callAt 4⟩ failedRecord = .ok () s' :=
  (reissued failedRecord_handled failureReport_not_renewal (.nil _) (callAt 4)).2.2
    fun _ => Or.inl (by decide +kernel)

theorem failure_not_reissued : ¬∀ s₁ r s₂ rs s₃ call, Reachable Submitted Serves s₁ →
    handle r s₁ = .ok () s₂ → ¬r.command.Renewal → Steps Serves s₂ rs s₃ →
    ∃ s', handle ⟨r.command, call⟩ s₃ = .ok () s' := by
  intro hall
  have hsteps : Steps Serves failedRecord [⟨.requeueDue "again", callAt 3⟩] requeuedRecord :=
    .single rfl
  obtain ⟨s', h⟩ := hall claimedRecord failureReport failedRecord _ requeuedRecord (callAt 4)
    claimedRecord_reachable failedRecord_handled failureReport_not_renewal hsteps
  have hs := shows_of_steps hsteps (shows_of_handle failedRecord_handled)
  obtain ⟨t, ht, -⟩ := saved_ok.1 h
  exact fail_rejected hs (by decide +kernel) ht

end GoAgent.Tasks
