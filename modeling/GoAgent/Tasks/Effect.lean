import GoAgent.Tasks.Aggregate

/-!
# What an accepted task command does

`Effect call t c t'` lists every way a command `c` that returns can change a task. A command that
repeats a settled attempt, or a renewal already made, changes nothing.

* `accepted_of_execute` — an accepted command has one of these effects, and every command but a
  renewal has run `checkInvariants` on the task it leaves, if it changed it.
-/

namespace GoAgent.Tasks

open GoAgent.Foundation GoAgent.Tasks.Task GoAgent.Tasks.TaskAttempt

variable {t t' : Task} {call : Call} {k : Nat} {a a' : TaskAttempt} {u : Unit}

/-! ## Inverting the primitives -/

/-- The task has the attempt `a` at position `k`, and the id names it. -/
def Task.Names (t : Task) (attemptId : UUID) (k : Nat) (a : TaskAttempt) : Prop :=
  t.findAttempt attemptId = .ok k ∧ t.attempts[k]? = some a

/-- Put an attempt in the place of the one at its position. -/
def Task.put (t : Task) (k : Nat) (a : TaskAttempt) : Task :=
  { t with attempts := t.attempts.set k a }

/-- The log takes the event. -/
def Task.Takes (t : Task) (call : Call) (transitionId : String) (eventType : TaskEventType)
    (metadata : Metadata) (e : TaskEvent) : Prop :=
  (∀ e' ∈ t.events, e'.transitionId ≠ strip transitionId) ∧
    TaskEvent.make (t.nextEvent call (strip transitionId) eventType metadata) = .ok e

/-- The event says what happened. -/
structure Records (e : TaskEvent) (ty : TaskEventType) (m : Metadata) : Prop where
  eventType : e.eventType = ty
  metadata : safeMetadata ty m = .ok e.metadata

theorem Takes.records {transitionId : String} {ty : TaskEventType} {m : Metadata} {e : TaskEvent}
    (h : t.Takes call transitionId ty m e) : Records e ty m := by
  obtain ⟨-, -, -, metadata, hm, rfl⟩ := TaskEvent.make_ok.1 h.2
  exact ⟨rfl, hm⟩

theorem attempt_ok : t.attempt k = .ok a ↔ t.attempts[k]? = some a := by
  unfold attempt
  cases t.attempts[k]? <;> simp

theorem onAttempt_ok {α : Type} {method : AttemptM α} {r : α} :
    onAttempt k method t = .ok r t' ↔
      ∃ a a', t.attempts[k]? = some a ∧ method a = .ok r a' ∧ t' = t.put k a' := by
  unfold onAttempt Task.put
  cases t.attempts[k]? with
  | none => simp
  | some a => cases h : method a <;> simp [h, eq_comm (a := t')]

theorem put_self (h : t.attempts[k]? = some a) : t.put k a = t := by
  obtain ⟨hk, rfl⟩ := List.getElem?_eq_some_iff.1 h
  rw [Task.put, List.set_getElem_self]

theorem appendEvent_ok {transitionId : String} {ty : TaskEventType} {m : Metadata} :
    appendEvent call transitionId ty m t = .ok u t' ↔ isBlank transitionId = false ∧
      ∃ e, t.Takes call transitionId ty m e ∧ t' = { t with events := t.events ++ [e] } := by
  simp only [appendEvent, bind_ok, exists_unit, get_ok, lift_ok, requireText_ok, check_ok, modify_ok,
    exists_eq_left, exists_and_left, and_assoc, Task.Takes]

theorem validateInvariants_ok :
    validateInvariants t = .ok u t' ↔ checkInvariants t = .ok () ∧ t' = t := by
  simp only [validateInvariants, bind_ok, get_ok, lift_ok, exists_eq_left, exists_and_left,
    and_assoc]

theorem assertActiveLease_ok {leaseToken : String} (ha : t.attempts[k]? = some a)
    (h : assertActiveLease k leaseToken call t = .ok u t') :
    t.activeAttempt = .ok (some k) ∧ a.Holds leaseToken call.now ∧ t' = t := by
  simp only [assertActiveLease, bind_ok, exists_unit, get_ok, lift_ok, check_ok, onAttempt_ok,
    assertValidLease_ok, exists_eq_left, exists_and_left, and_assoc] at h
  obtain ⟨_, hactive, rfl, a₁, ha₁, -, hholds, rfl⟩ := h
  obtain rfl := Option.some.inj (ha.symm.trans ha₁)
  exact ⟨hactive, hholds, put_self ha⟩

theorem finishAttempt_ok {status : AttemptStatus} {now : DateTime}
    {category : Option FailureCategory} {code fingerprint : Option String}
    (ha : t.attempts[k]? = some a)
    (h : onAttempt k (finish status now category code fingerprint) t = .ok u t') :
    ∃ code' fingerprint', optionalText requireSafeFailureCode code = .ok code' ∧
      optionalText requireSafeFingerprint fingerprint = .ok fingerprint' ∧
      t' = t.put k (a.finished status now category code' fingerprint') := by
  obtain ⟨a₁, a₂, ha₁, hfinish, rfl⟩ := onAttempt_ok.1 h
  obtain rfl := Option.some.inj (ha.symm.trans ha₁)
  obtain ⟨-, -, code', fingerprint', hcode, hfp, rfl⟩ := finish_ok hfinish
  exact ⟨code', fingerprint', hcode, hfp, rfl⟩

theorem optionalText_none {f : String → Except TaskError String} {s : Option String}
    (h : optionalText f none = .ok s) : s = none := by
  exact (except_pure_ok.1 h).symm

theorem ne_empty_of_not_blank {s : String} (h : isBlank s = false) : strip s ≠ "" := by
  intro he
  rw [← isBlank_strip, he] at h
  exact absurd h (by decide)

/-- A fact that is given is recorded stripped. -/
theorem optionalText_some {f : String → Except TaskError String} {s : String}
    {r : Option String} (hf : ∀ {x y}, f x = .ok y → y = strip x) (hs : isBlank s = false)
    (h : optionalText f (some (strip s)) = .ok r) : r = some (strip s) := by
  rw [optionalText, if_neg (ne_empty_of_not_blank hs)] at h
  simp only [except_bind_ok, except_pure_ok] at h
  obtain ⟨y, hy, rfl⟩ := h
  rw [hf hy, strip_strip]

theorem optionalText_code {s : String} {r : Option String} (hs : isBlank s = false)
    (h : optionalText requireSafeFailureCode (some (strip s)) = .ok r) : r = some (strip s) :=
  optionalText_some (fun h => (requireSafeFailureCode_ok.1 h).2.2) hs h

theorem optionalText_fingerprint {s : String} {r : Option String} (hs : isBlank s = false)
    (h : optionalText requireSafeFingerprint (some (strip s)) = .ok r) : r = some (strip s) :=
  optionalText_some (fun h => (requireSafeFingerprint_ok.1 h).2.2) hs h

theorem assertSameTerminalResult_ok {leaseToken fingerprint : String} :
    assertSameTerminalResult a leaseToken fingerprint t = .ok u t' ↔
      isBlank leaseToken = false ∧ a.leaseToken = strip leaseToken ∧
        a.resultFingerprint = some fingerprint ∧ t = t' := by
  simp only [assertSameTerminalResult, bind_ok, exists_unit, lift_ok, requireText_ok, check_ok,
    exists_eq_left, exists_and_left, and_assoc, eq_comm (a := t)]

/-- The end of every command that changes the status: one event, then the check. -/
theorem recorded_of_ok {transitionId : String} {ty : TaskEventType} {m : Metadata}
    (h : ∃ t₁, appendEvent call transitionId ty m t = .ok () t₁ ∧ validateInvariants t₁ = .ok u t') :
    ∃ e : TaskEvent, Records e ty m ∧ t' = { t with events := t.events ++ [e] } ∧
      checkInvariants t' = .ok () := by
  obtain ⟨t₁, happend, hcheck⟩ := h
  obtain ⟨-, e, he, rfl⟩ := appendEvent_ok.1 happend
  obtain ⟨hvalid, rfl⟩ := validateInvariants_ok.1 hcheck
  exact ⟨e, Takes.records he, rfl, hvalid⟩

theorem findAttempt_names {attemptId : UUID} (hk : t.findAttempt attemptId = .ok k)
    (ha : t.attempt k = .ok a) : t.Names attemptId k a := ⟨hk, attempt_ok.1 ha⟩

/-- The id names an attempt that was settled under the token. -/
structure Task.SettledAs (t : Task) (attemptId : UUID) (leaseToken : String)
    (status : AttemptStatus) (k : Nat) (a : TaskAttempt) : Prop where
  names : t.Names attemptId k a
  status : a.status = status
  given : isBlank leaseToken = false
  token : a.leaseToken = strip leaseToken

/-! ## Effects -/

/-- Where recovery sends the task, when it is available again, and its failure code. -/
inductive Recovers (t : Task) (retryAt : Option DateTime) (now : DateTime) :
    TaskStatus → DateTime → Option String → Prop
  | cancel (hs : t.status = .cancelRequested) :
      Recovers t retryAt now .cancelled t.availableAt t.failureCode
  | exhausted (hs : t.status ≠ .cancelRequested) (hleft : t.maxAttempts ≤ t.attempts.length) :
      Recovers t retryAt now .failed t.availableAt (some "LEASE_EXPIRED")
  | delayed {time : DateTime} (hs : t.status ≠ .cancelRequested)
      (hleft : t.attempts.length < t.maxAttempts) (hretry : retryAt = some time)
      (hlater : now.instant < time.instant) :
      Recovers t retryAt now .retryWait time t.failureCode
  | requeued (hs : t.status ≠ .cancelRequested) (hleft : t.attempts.length < t.maxAttempts) :
      Recovers t retryAt now .queued now t.failureCode

/-- The ways an accepted command changes a task. -/
inductive Effect (call : Call) (t : Task) : TaskCommand → Task → Prop
  | claim {workerId claimId leaseToken : String} {leaseExpiresAt : DateTime} {a : TaskAttempt}
      {e : TaskEvent} (hq : t.status = .queued)
      (hdue : t.availableAt.instant ≤ call.now.instant)
      (hleft : t.attempts.length < t.maxAttempts)
      (ha : TaskAttempt.make
        { taskId := t.id, number := t.attempts.length + 1, workerId, claimId, leaseToken,
          leaseExpiresAt, id := call.attemptUuid, createdAt := call.now } = .ok a)
      (he : Records e .taskClaimed [("attempt_number", .int a.number), ("claim_id", .text a.claimId),
        ("worker_id", .text a.workerId)]) :
      Effect call t (.claim workerId claimId leaseToken leaseExpiresAt)
        { t with attempts := t.attempts ++ [a], status := .running, updatedAt := call.now,
                 events := t.events ++ [e] }
  /-- A renewal that was already made. -/
  | renewAgain {attemptId : UUID} {leaseToken : String} {renewalSequence : Int}
      {leaseExpiresAt : DateTime} :
      Effect call t (.renewLease attemptId leaseToken renewalSequence leaseExpiresAt) t
  | renew {attemptId : UUID} {leaseToken : String} {renewalSequence : Int}
      {leaseExpiresAt : DateTime} {a : TaskAttempt} {k : Nat} (hn : t.Names attemptId k a)
      (hholds : a.Holds leaseToken call.now) (hseq : a.renewalSequence < renewalSequence)
      (hlater : a.leaseExpiresAt.instant < leaseExpiresAt.instant) :
      Effect call t (.renewLease attemptId leaseToken renewalSequence leaseExpiresAt)
        (t.put k { a with renewalSequence, leaseExpiresAt })
  | cancelWaiting {commandId : String} {e : TaskEvent}
      (hs : t.status = .queued ∨ t.status = .retryWait)
      (he : Records e .taskCancelled [("cancel_mode", .text "queued")]) :
      Effect call t (.requestCancel commandId)
        { t with cancelRequestedAt := some call.now, status := .cancelled, updatedAt := call.now,
                 events := t.events ++ [e] }
  | cancelRunning {commandId : String} {e : TaskEvent} (hs : t.status = .running)
      (he : Records e .taskCancelRequested []) :
      Effect call t (.requestCancel commandId)
        { t with cancelRequestedAt := some call.now, status := .cancelRequested,
                 updatedAt := call.now, events := t.events ++ [e] }
  /-- A confirmation that was already made. -/
  | confirmAgain {attemptId : UUID} {leaseToken : String} {a : TaskAttempt} {k : Nat}
      (hs : t.status = .cancelled) (ha : t.SettledAs attemptId leaseToken .cancelled k a) :
      Effect call t (.confirmCancel attemptId leaseToken) t
  | confirm {attemptId : UUID} {leaseToken : String} {a : TaskAttempt} {k : Nat} {e : TaskEvent}
      (hs : t.status = .cancelRequested) (hn : t.Names attemptId k a)
      (hholds : a.Holds leaseToken call.now)
      (he : Records e .taskCancelled
        [("attempt_number", .int a.number), ("cancel_mode", .text "confirmed")]) :
      Effect call t (.confirmCancel attemptId leaseToken)
        { t.put k (a.finished .cancelled call.now none none none) with
          status := .cancelled, updatedAt := call.now, events := t.events ++ [e] }
  /-- A success report that was already made. -/
  | completeAgain {attemptId : UUID} {leaseToken fingerprint summary : String} {a : TaskAttempt}
      {k : Nat} (hs : t.status = .succeeded)
      (ha : t.SettledAs attemptId leaseToken .succeeded k a)
      (hfp : requireSafeFingerprint fingerprint = .ok (strip fingerprint))
      (hsame : a.resultFingerprint = some (strip fingerprint)) :
      Effect call t (.complete attemptId leaseToken fingerprint summary) t
  | complete {attemptId : UUID} {leaseToken fingerprint summary : String} {a : TaskAttempt}
      {k : Nat} {e : TaskEvent} (hs : t.status = .running)
      (hn : t.Names attemptId k a) (hholds : a.Holds leaseToken call.now)
      (hfp : requireSafeFingerprint fingerprint = .ok (strip fingerprint))
      (he : Records e .taskSucceeded
        [("attempt_number", .int a.number), ("result_fingerprint", .text (strip fingerprint))]) :
      Effect call t (.complete attemptId leaseToken fingerprint summary)
        { t.put k (a.finished .succeeded call.now none none (some (strip fingerprint))) with
          status := .succeeded, resultFingerprint := some (strip fingerprint),
          resultSummary := some (strip summary), failureCode := none, updatedAt := call.now,
          events := t.events ++ [e] }
  /-- A failure report that was already made. -/
  | failAgain {attemptId : UUID} {leaseToken : String} {category : FailureCategory}
      {code fingerprint : String} {retryAt : Option DateTime} {a : TaskAttempt} {k : Nat}
      (hs : t.status = .retryWait ∨ t.status = .failed)
      (ha : t.SettledAs attemptId leaseToken .failed k a)
      (hfp : requireSafeFingerprint fingerprint = .ok (strip fingerprint))
      (hsame : a.resultFingerprint = some (strip fingerprint)) :
      Effect call t (.fail attemptId leaseToken category code fingerprint retryAt) t
  | failRetry {attemptId : UUID} {leaseToken : String} {category : FailureCategory}
      {code fingerprint : String} {time : DateTime} {a : TaskAttempt} {k : Nat} {e : TaskEvent}
      (hs : t.status = .running)
      (hn : t.Names attemptId k a) (hholds : a.Holds leaseToken call.now)
      (hcategory : category = .transient) (hleft : t.attempts.length < t.maxAttempts)
      (hlater : call.now.instant ≤ time.instant)
      (hfp : requireSafeFingerprint fingerprint = .ok (strip fingerprint))
      (he : Records e .taskRetryScheduled [("attempt_number", .int a.number),
        ("failure_category", .text category.value), ("failure_code", .text (strip code))]) :
      Effect call t (.fail attemptId leaseToken category code fingerprint (some time))
        { t.put k (a.finished .failed call.now (some category) (some (strip code))
            (some (strip fingerprint))) with
          failureCode := some (strip code), resultFingerprint := some (strip fingerprint),
          resultSummary := none, updatedAt := call.now, status := .retryWait, availableAt := time,
          events := t.events ++ [e] }
  | fail {attemptId : UUID} {leaseToken : String} {category : FailureCategory}
      {code fingerprint : String} {retryAt : Option DateTime} {a : TaskAttempt} {k : Nat}
      {e : TaskEvent} (hs : t.status = .running)
      (hn : t.Names attemptId k a) (hholds : a.Holds leaseToken call.now)
      (hfinal : ¬(category = .transient ∧ t.attempts.length < t.maxAttempts))
      (hfp : requireSafeFingerprint fingerprint = .ok (strip fingerprint))
      (he : Records e .taskFailed [("attempt_number", .int a.number),
        ("failure_category", .text category.value), ("failure_code", .text (strip code))]) :
      Effect call t (.fail attemptId leaseToken category code fingerprint retryAt)
        { t.put k (a.finished .failed call.now (some category) (some (strip code))
            (some (strip fingerprint))) with
          failureCode := some (strip code), resultFingerprint := some (strip fingerprint),
          resultSummary := none, updatedAt := call.now, status := .failed,
          events := t.events ++ [e] }
  | requeue {commandId : String} {e : TaskEvent} (hs : t.status = .retryWait)
      (hdue : t.availableAt.instant ≤ call.now.instant) (he : Records e .taskRequeued []) :
      Effect call t (.requeueDue commandId)
        { t with status := .queued, availableAt := call.now, updatedAt := call.now,
                 events := t.events ++ [e] }
  | manualRetry {commandId : String} {e : TaskEvent} (hs : t.status = .failed)
      (hallow : t.allowManualRetry = true) (hleft : t.attempts.length < t.maxAttempts)
      (he : Records e .taskRetryRequested []) :
      Effect call t (.requestManualRetry commandId)
        { t with status := .queued, availableAt := call.now, failureCode := none,
                 resultFingerprint := none, updatedAt := call.now, events := t.events ++ [e] }
  | recover {commandId : String} {retryAt : Option DateTime} {attemptId : Option UUID}
      {a : TaskAttempt} {k : Nat} {outcome : TaskStatus} {availableAt : DateTime}
      {failureCode : Option String} {e : TaskEvent} (hlive : t.status.Live)
      (hactive : t.activeAttempt = .ok (some k)) (ha : t.attempts[k]? = some a)
      (hexpired : a.leaseExpiresAt.instant ≤ call.now.instant) (hstatus : a.isActive)
      (houtcome : Recovers t retryAt call.now outcome availableAt failureCode)
      (he : Records e .taskRecovered
        [("attempt_number", .int a.number), ("outcome", .text outcome.value)]) :
      Effect call t (.recoverExpiredAttempt commandId retryAt attemptId)
        { t.put k (a.finished .expired call.now (some .leaseExpired) (some "LEASE_EXPIRED") none) with
          status := outcome, availableAt, failureCode, updatedAt := call.now,
          events := t.events ++ [e] }

/-- An effect, on a task that is unchanged or was checked in the end. -/
def Accepted (call : Call) (t : Task) (c : TaskCommand) (t' : Task) : Prop :=
  Effect call t c t' ∧ (t' = t ∨ checkInvariants t' = .ok ())

section Inversion

theorem claim_effect {workerId claimId leaseToken : String} {leaseExpiresAt : DateTime}
    (h : claim workerId claimId leaseToken leaseExpiresAt call t = .ok a t') :
    Accepted call t (.claim workerId claimId leaseToken leaseExpiresAt) t' := by
  simp only [claim, bind_ok, exists_unit, lift_ok, requireUtc_ok, Option.some.injEq, get_ok, check_ok,
    modify_ok, appendEvent_ok, validateInvariants_ok, pure_ok, exists_eq_left, exists_and_left,
    and_assoc] at h
  obtain ⟨_, rfl, -, hq, hdue, hleft, a₂, hmake, -, _, ⟨e, he, rfl⟩, hvalid, rfl, rfl⟩ := h
  exact ⟨.claim hq hdue hleft hmake (Takes.records he), Or.inr hvalid⟩

theorem renewLease_effect {attemptId : UUID} {leaseToken : String} {renewalSequence : Int}
    {leaseExpiresAt : DateTime}
    (h : renewLease attemptId leaseToken renewalSequence leaseExpiresAt call t = .ok a' t') :
    Effect call t (.renewLease attemptId leaseToken renewalSequence leaseExpiresAt) t' := by
  simp only [renewLease, bind_ok, exists_unit, lift_ok, get_ok, check_ok, onAttempt_ok, exists_eq_left,
    exists_and_left, and_assoc] at h
  obtain ⟨k, hk, a, ha, -, -, _, -, rfl, _, ⟨a₁, ha₁, a₂, hrenew, rfl⟩, -, rfl⟩ := h
  obtain rfl := Option.some.inj ((attempt_ok.1 ha).symm.trans ha₁)
  rcases (renew_ok hrenew).2 with rfl | ⟨hholds, hseq, hlater, rfl⟩
  · rw [put_self ha₁]
    exact .renewAgain
  · exact .renew (findAttempt_names hk ha) hholds hseq hlater

theorem requestCancel_effect {commandId : String} (h : requestCancel commandId call t = .ok u t') :
    Accepted call t (.requestCancel commandId) t' := by
  simp only [requestCancel, bind_ok, lift_ok, requireUtc_ok, requireText_ok, Option.some.injEq,
    get_ok, exists_eq_left, exists_and_left, and_assoc] at h
  obtain ⟨_, rfl, -, -, h⟩ := h
  split_ifs at h with hwaiting hrunning
  · simp only [bind_ok, exists_unit, modify_ok, exists_eq_left] at h
    obtain ⟨e, he, rfl, hvalid⟩ := recorded_of_ok h
    exact ⟨.cancelWaiting hwaiting he, Or.inr hvalid⟩
  · simp only [bind_ok, exists_unit, modify_ok, exists_eq_left] at h
    obtain ⟨e, he, rfl, hvalid⟩ := recorded_of_ok h
    exact ⟨.cancelRunning hrunning he, Or.inr hvalid⟩
  · simp only [bind_ok, throw_ok, false_and, exists_false] at h

theorem confirmCancel_effect {attemptId : UUID} {leaseToken : String}
    (h : confirmCancel attemptId leaseToken call t = .ok u t') :
    Accepted call t (.confirmCancel attemptId leaseToken) t' := by
  simp only [confirmCancel, bind_ok, lift_ok, get_ok, exists_eq_left, exists_and_left,
    and_assoc] at h
  obtain ⟨k, hk, a, ha, h⟩ := h
  have hn := findAttempt_names hk ha
  split_ifs at h with hagain
  · simp only [bind_ok, lift_ok, requireText_ok, check_ok, exists_eq_left, exists_and_left,
      and_assoc] at h
    obtain ⟨hgiven, htoken, rfl⟩ := h
    exact ⟨.confirmAgain hagain.1 ⟨hn, hagain.2, hgiven, htoken⟩, Or.inl rfl⟩
  · simp only [bind_ok, exists_unit, lift_ok, requireUtc_ok, Option.some.injEq, check_ok, modify_ok,
      exists_eq_left, exists_and_left, and_assoc] at h
    obtain ⟨-, hs, _, hfence, _, rfl, -, _, hfinish, h⟩ := h
    obtain ⟨-, hholds, rfl⟩ := assertActiveLease_ok hn.2 hfence
    obtain ⟨code, fingerprint, hcode, hfp, rfl⟩ := finishAttempt_ok hn.2 hfinish
    obtain ⟨e, he, rfl, hvalid⟩ := recorded_of_ok h
    obtain rfl := optionalText_none hcode
    obtain rfl := optionalText_none hfp
    exact ⟨.confirm hs hn hholds he, Or.inr hvalid⟩

theorem complete_effect {attemptId : UUID} {leaseToken fingerprint summary : String}
    (h : complete attemptId leaseToken fingerprint summary call t = .ok u t') :
    Accepted call t (.complete attemptId leaseToken fingerprint summary) t' := by
  simp only [complete, bind_ok, lift_ok, get_ok, requireSafeFingerprint_ok, exists_eq_left,
    exists_and_left, and_assoc] at h
  obtain ⟨k, hk, a, ha, hblank, _, hsafe, rfl, h⟩ := h
  have hn := findAttempt_names hk ha
  have hfp := requireSafeFingerprint_ok.2 ⟨hblank, hsafe, rfl⟩
  split_ifs at h with hagain
  · obtain ⟨hgiven, htoken, hsame, rfl⟩ := assertSameTerminalResult_ok.1 h
    exact ⟨.completeAgain hagain.1 ⟨hn, hagain.2, hgiven, htoken⟩ hfp hsame, Or.inl rfl⟩
  · simp only [bind_ok, exists_unit, lift_ok, requireUtc_ok, requireText_ok, Option.some.injEq,
      check_ok, modify_ok, exists_eq_left, exists_and_left, and_assoc] at h
    obtain ⟨-, hs, _, hfence, _, rfl, -, -, _, hfinish, h⟩ := h
    obtain ⟨-, hholds, rfl⟩ := assertActiveLease_ok hn.2 hfence
    obtain ⟨code, shown, hcode, hshown, rfl⟩ := finishAttempt_ok hn.2 hfinish
    obtain ⟨e, he, rfl, hvalid⟩ := recorded_of_ok h
    obtain rfl := optionalText_none hcode
    obtain rfl := optionalText_fingerprint hblank hshown
    exact ⟨.complete hs hn hholds hfp he, Or.inr hvalid⟩

theorem retryTime_some {isRetryable : Bool} {retryAt : Option DateTime} {now time : DateTime}
    (h : retryTime isRetryable retryAt now = .ok (some time)) :
    isRetryable = true ∧ retryAt = some time ∧ now.instant ≤ time.instant := by
  unfold retryTime at h
  split_ifs at h with hr
  · simp only [except_bind_ok, exists_unit, requireUtc_ok, require_ok, except_pure_ok,
      Option.some.injEq] at h
    obtain ⟨_, ⟨rfl, -⟩, hlater, rfl⟩ := h
    exact ⟨hr, rfl, hlater⟩
  · simp only [except_pure_ok, reduceCtorEq] at h

theorem retryTime_none {isRetryable : Bool} {retryAt : Option DateTime} {now : DateTime}
    (h : retryTime isRetryable retryAt now = .ok none) : isRetryable = false := by
  unfold retryTime at h
  split_ifs at h with hr
  · simp only [except_bind_ok, except_pure_ok, reduceCtorEq, and_false, exists_false] at h
  · exact Bool.eq_false_iff.2 hr

theorem fail_effect {attemptId : UUID} {leaseToken : String} {category : FailureCategory}
    {code fingerprint : String} {retryAt : Option DateTime}
    (h : fail attemptId leaseToken category code fingerprint retryAt call t = .ok u t') :
    Accepted call t (.fail attemptId leaseToken category code fingerprint retryAt) t' := by
  simp only [fail, bind_ok, lift_ok, get_ok, requireSafeFingerprint_ok, exists_eq_left,
    exists_and_left, and_assoc] at h
  obtain ⟨k, hk, a, ha, hblank, _, hsafe, rfl, h⟩ := h
  have hn := findAttempt_names hk ha
  have hfp := requireSafeFingerprint_ok.2 ⟨hblank, hsafe, rfl⟩
  split_ifs at h with hagain
  · obtain ⟨hgiven, htoken, hsame, rfl⟩ := assertSameTerminalResult_ok.1 h
    exact ⟨.failAgain hagain.1 ⟨hn, hagain.2, hgiven, htoken⟩ hfp hsame, Or.inl rfl⟩
  · simp only [bind_ok, exists_unit, lift_ok, requireUtc_ok, requireSafeFailureCode_ok,
      Option.some.injEq, check_ok, modify_ok, exists_eq_left, exists_and_left, and_assoc] at h
    obtain ⟨-, hs, _, hfence, _, rfl, -, hcodeBlank, _, -, rfl, retry, hretry, _, hfinish, h⟩ := h
    obtain ⟨-, hholds, rfl⟩ := assertActiveLease_ok hn.2 hfence
    obtain ⟨shownCode, shown, hcode, hshown, rfl⟩ := finishAttempt_ok hn.2 hfinish
    obtain rfl := optionalText_code hcodeBlank hcode
    obtain rfl := optionalText_fingerprint hblank hshown
    cases retry with
    | some time =>
      simp only [bind_ok, exists_unit, modify_ok, pure_ok, exists_eq_left, exists_and_left,
        and_assoc] at h
      obtain ⟨e, he, rfl, hvalid⟩ := recorded_of_ok h
      obtain ⟨hretryable, rfl, hlater⟩ := retryTime_some hretry
      obtain ⟨hcategory, hleft⟩ := of_decide_eq_true hretryable
      exact ⟨.failRetry hs hn hholds hcategory hleft hlater hfp he, Or.inr hvalid⟩
    | none =>
      simp only [bind_ok, exists_unit, modify_ok, pure_ok, exists_eq_left, exists_and_left,
        and_assoc] at h
      obtain ⟨e, he, rfl, hvalid⟩ := recorded_of_ok h
      have hfinal := of_decide_eq_false (retryTime_none hretry)
      exact ⟨.fail hs hn hholds hfinal hfp he, Or.inr hvalid⟩

theorem requeueDue_effect {commandId : String} (h : requeueDue commandId call t = .ok u t') :
    Accepted call t (.requeueDue commandId) t' := by
  simp only [requeueDue, bind_ok, exists_unit, lift_ok, requireUtc_ok, requireText_ok,
    Option.some.injEq, get_ok, check_ok, modify_ok, exists_eq_left, exists_and_left,
    and_assoc] at h
  obtain ⟨_, rfl, -, hs, hdue, -, h⟩ := h
  obtain ⟨e, he, rfl, hvalid⟩ := recorded_of_ok h
  exact ⟨.requeue hs hdue he, Or.inr hvalid⟩

theorem requestManualRetry_effect {commandId : String}
    (h : requestManualRetry commandId call t = .ok u t') :
    Accepted call t (.requestManualRetry commandId) t' := by
  simp only [requestManualRetry, bind_ok, exists_unit, lift_ok, requireUtc_ok, requireText_ok,
    Option.some.injEq, get_ok, check_ok, modify_ok, exists_eq_left, exists_and_left,
    and_assoc] at h
  obtain ⟨_, rfl, -, hs, hallow, hleft, -, h⟩ := h
  obtain ⟨e, he, rfl, hvalid⟩ := recorded_of_ok h
  exact ⟨.manualRetry hs hallow hleft he, Or.inr hvalid⟩

theorem recoverOutcome_ok {retryAt : Option DateTime} {now : DateTime} {outcome : TaskStatus}
    (h : recoverOutcome retryAt now t = .ok outcome t') :
    ∃ availableAt failureCode, Recovers t retryAt now outcome availableAt failureCode ∧
      t' = { t with availableAt, failureCode } := by
  simp only [recoverOutcome, bind_ok, get_ok, exists_eq_left, exists_and_left, and_assoc] at h
  split_ifs at h with hcancel hleft
  · obtain ⟨rfl, rfl⟩ := pure_ok.1 h
    exact ⟨_, _, .cancel hcancel, rfl⟩
  · simp only [bind_ok, exists_unit, modify_ok, pure_ok, exists_eq_left] at h
    obtain ⟨rfl, rfl⟩ := h
    exact ⟨_, _, .exhausted hcancel hleft, rfl⟩
  · have hleft := Nat.lt_of_not_le hleft
    cases retryAt with
    | none =>
      simp only [bind_ok, exists_unit, modify_ok, pure_ok, exists_eq_left] at h
      obtain ⟨rfl, rfl⟩ := h
      exact ⟨_, _, .requeued hcancel hleft, rfl⟩
    | some time =>
      simp only [bind_ok, lift_ok, requireUtc_ok, Option.some.injEq, exists_eq_left,
        exists_and_left, and_assoc] at h
      obtain ⟨_, rfl, -, h⟩ := h
      split_ifs at h with hlater
      · simp only [bind_ok, exists_unit, modify_ok, pure_ok, exists_eq_left] at h
        obtain ⟨rfl, rfl⟩ := h
        exact ⟨_, _, .delayed hcancel hleft rfl hlater, rfl⟩
      · simp only [bind_ok, exists_unit, modify_ok, pure_ok, exists_eq_left] at h
        obtain ⟨rfl, rfl⟩ := h
        exact ⟨_, _, .requeued hcancel hleft, rfl⟩

/-- Putting an attempt back does not change where recovery sends the task. -/
theorem Recovers.of_put {retryAt : Option DateTime} {now availableAt : DateTime}
    {outcome : TaskStatus} {failureCode : Option String}
    (h : Recovers (t.put k a) retryAt now outcome availableAt failureCode) :
    Recovers t retryAt now outcome availableAt failureCode := by
  have hlen : (t.put k a).attempts.length = t.attempts.length := List.length_set
  cases h with
  | cancel hs => exact .cancel hs
  | exhausted hs hleft => exact .exhausted hs (hlen ▸ hleft)
  | delayed hs hleft hretry hlater => exact .delayed hs (hlen ▸ hleft) hretry hlater
  | requeued hs hleft => exact .requeued hs (hlen ▸ hleft)

theorem recoverExpiredAttempt_effect {commandId : String} {retryAt : Option DateTime}
    {attemptId : Option UUID}
    (h : recoverExpiredAttempt commandId retryAt attemptId call t = .ok u t') :
    Accepted call t (.recoverExpiredAttempt commandId retryAt attemptId) t' := by
  simp only [recoverExpiredAttempt, bind_ok, exists_unit, lift_ok, requireUtc_ok,
    Option.some.injEq, get_ok, check_ok, exists_eq_left, exists_and_left, and_assoc] at h
  obtain ⟨_, rfl, -, hlive, active, hactive, h⟩ := h
  cases active with
  | none => simp only [throw_ok] at h
  | some k =>
    simp only [bind_ok, exists_unit, lift_ok, requireText_ok, check_ok, modify_ok, exists_eq_left,
      exists_and_left, and_assoc] at h
    obtain ⟨a, ha, hexpired, -, _, hfinish, outcome, _, houtcome, -, h⟩ := h
    rw [attempt_ok] at ha
    obtain ⟨a₁, _, ha₁, hfinish', -⟩ := onAttempt_ok.1 hfinish
    obtain rfl := Option.some.inj (ha.symm.trans ha₁)
    have hstatus := (finish_ok hfinish').1
    obtain ⟨shownCode, shown, hcode, hshown, rfl⟩ := finishAttempt_ok ha hfinish
    obtain rfl := optionalText_none hshown
    obtain rfl := optionalText_code (s := "LEASE_EXPIRED") (by decide) hcode
    obtain ⟨availableAt, failureCode, hout, rfl⟩ := recoverOutcome_ok houtcome
    obtain ⟨e, he, rfl, hvalid⟩ := recorded_of_ok h
    exact ⟨.recover hlive hactive ha hexpired hstatus hout.of_put he, Or.inr hvalid⟩

end Inversion

/-- **Inversion.** An accepted command has one of the listed effects, and all but a renewal have
checked a task they changed. -/
theorem accepted_of_execute {r : Request} (h : execute r t = .ok u t') :
    Accepted r.call t r.command t' ∨ ∃ attemptId leaseToken renewalSequence leaseExpiresAt,
      r.command = .renewLease attemptId leaseToken renewalSequence leaseExpiresAt ∧
        Effect r.call t r.command t' := by
  obtain ⟨command, call⟩ := r
  cases command with
  | claim =>
    obtain ⟨_, h⟩ := discard_ok.1 h
    exact Or.inl (claim_effect h)
  | renewLease =>
    obtain ⟨_, h⟩ := discard_ok.1 h
    exact Or.inr ⟨_, _, _, _, rfl, renewLease_effect h⟩
  | requestCancel => exact Or.inl (requestCancel_effect h)
  | confirmCancel => exact Or.inl (confirmCancel_effect h)
  | complete => exact Or.inl (complete_effect h)
  | fail => exact Or.inl (fail_effect h)
  | requeueDue => exact Or.inl (requeueDue_effect h)
  | requestManualRetry => exact Or.inl (requestManualRetry_effect h)
  | recoverExpiredAttempt => exact Or.inl (recoverExpiredAttempt_effect h)

theorem effect_of_execute {r : Request} (h : execute r t = .ok u t') :
    Effect r.call t r.command t' := by
  rcases accepted_of_execute h with h | ⟨_, _, _, _, -, h⟩
  · exact h.1
  · exact h

end GoAgent.Tasks
