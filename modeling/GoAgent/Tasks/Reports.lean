import GoAgent.Foundation.Postgres
import GoAgent.Tasks.Rejection

/-!
# Reports on a running attempt

A worker that holds a valid lease reports a success or a failure. The code checks the texts of the
report only after it has checked the lease, so a report with a bad text raises and leaves the
attempt running. `complete_ok_iff` and `fail_ok_iff` say which reports are taken, and with which
task.
-/

namespace GoAgent.Tasks

open GoAgent.Foundation GoAgent.Tasks.Task GoAgent.Tasks.TaskAttempt

variable {t t' t₁ : Task} {call : Call} {k : Nat} {a a' : TaskAttempt} {u : Unit}
  {attemptId : UUID} {leaseToken fingerprint summary code transitionId : String}
  {category : FailureCategory} {retryAt : Option DateTime} {ty : TaskEventType} {m m' : Metadata}

/-! ## The lease -/

theorem length_activePositions :
    t.activePositions.length = t.attempts.countP fun a => a.isActive := by
  have hfst : t.attempts = t.attempts.zipIdx.map Prod.fst := by simp
  rw [activePositions, List.length_map, ← List.countP_eq_length_filter]
  conv_rhs => rw [hfst, List.countP_map]
  rfl

theorem activeAttempt_of_active (hs : Sound t) (ha : t.attempts[k]? = some a)
    (hactive : a.isActive) : t.activeAttempt = .ok (some k) := by
  have hone : t.activePositions.length = 1 := by
    rw [length_activePositions, hs.active, if_pos (live_of_active hs ha hactive)]
  rcases List.length_eq_one_iff.1 hone with ⟨j, hj⟩
  have hk : k ∈ t.activePositions := by
    apply List.mem_map.2
    refine ⟨(a, k), List.mem_filter.2 ⟨?_, decide_eq_true hactive⟩, rfl⟩
    exact List.mem_zipIdx_iff_getElem?.2 ha
  rw [hj, List.mem_singleton] at hk
  rw [activeAttempt, hone, if_neg (Nat.lt_irrefl 1), hj, hk]
  rfl

theorem assertActiveLease_returns (hs : Sound t) (ha : t.attempts[k]? = some a)
    (hholds : a.Holds leaseToken call.now) (hz : call.now.tzAware = true) :
    assertActiveLease k leaseToken call t = .ok () t := by
  simp only [assertActiveLease, bind_ok, exists_unit, get_ok, lift_ok, check_ok, onAttempt_ok,
    exists_eq_left, exists_and_left, and_assoc]
  refine ⟨some k, activeAttempt_of_active hs ha hholds.active, rfl, a, ha, a, ?_, (put_self ha).symm⟩
  exact assertValidLease_ok.2 ⟨hz, hholds, rfl⟩

/-! ## The end of a report -/

/-- The task with one more event. -/
def Task.log (t : Task) (call : Call) (transitionId : String) (ty : TaskEventType)
    (m : Metadata) : Task :=
  { t with events := t.events ++ [t.nextEvent call transitionId ty m] }

theorem append_returns (hs : Sound t) (hz : call.now.tzAware = true)
    (hm : safeMetadata ty m = .ok m') (hb : isBlank transitionId = false)
    (hfresh : ¬t.Logged transitionId) :
    (do appendEvent call transitionId ty m; validateInvariants) t =
      .ok () (t.log call (strip transitionId) ty m') := by
  have htakes : t.Takes call transitionId ty m (t.nextEvent call (strip transitionId) ty m') := by
    refine ⟨fun e he heq => hfresh ⟨e, he, heq⟩, ?_⟩
    refine TaskEvent.make_ok.2 ⟨Nat.succ_pos _, ?_, hz, m', hm, ?_⟩
    · simpa [nextEvent] using hb
    · simp [nextEvent]
  have happend : appendEvent call transitionId ty m t = .ok () (t.log call (strip transitionId) ty m') :=
    appendEvent_ok.2 ⟨hb, _, htakes, rfl⟩
  rw [bind_of_ok happend]
  exact validateInvariants_ok.2 ⟨checkInvariants_ok.2 (sound_takes hs htakes), rfl⟩

/-- The event that ends an attempt can always be logged. -/
theorem settle_returns (hs : Sound t) (ha : t.attempts[k]? = some a) (hactive : a.isActive)
    (hsame : a.Continues a') (hsettled : ¬a'.isActive) (hid : t₁.id = t.id)
    (hattempts : t₁.attempts = t.attempts.set k a') (hevents : t₁.events = t.events)
    (hlive : ¬t₁.status.Live) (hsummary : t₁.status = .succeeded → t₁.resultSummary.getD "" ≠ "")
    (hz : call.now.tzAware = true) (hm : safeMetadata ty m = .ok m')
    (hb : isBlank transitionId = false) (hfresh : ¬t.Logged transitionId) :
    (do appendEvent call transitionId ty m; validateInvariants) t₁ =
      .ok () (t₁.log call (strip transitionId) ty m') := by
  apply append_returns _ hz hm hb
  · rwa [Logged, hevents]
  · exact sound_settled hs ha hactive hsame hsettled hid hattempts hevents hlive hsummary

/-! ## Success -/

/-- The task after a success of its attempt at position `k`, but for the log. -/
def Task.succeeding (t : Task) (k : Nat) (a : TaskAttempt) (fingerprint summary : String)
    (call : Call) : Task :=
  { t.put k (a.finished .succeeded call.now none none (some fingerprint)) with
    status := .succeeded
    resultFingerprint := some fingerprint
    resultSummary := some summary
    failureCode := none
    updatedAt := call.now }

def Task.succeededBy (t : Task) (k : Nat) (a : TaskAttempt) (fingerprint summary : String)
    (call : Call) : Task :=
  (t.succeeding k a fingerprint summary call).log call
    (strip ("succeeded:" ++ uuidText a.id ++ ":" ++ fingerprint)) .taskSucceeded
    [("attempt_number", .int a.number), ("result_fingerprint", .text (strip fingerprint))]

theorem complete_returns (hs : Sound t) (hj : Journal t) (hn : t.Names attemptId k a)
    (hrunning : t.status = .running) (hholds : a.Holds leaseToken call.now)
    (hz : call.now.tzAware = true) (hblank : isBlank fingerprint = false)
    (hsafe : isSafeFingerprint (strip fingerprint) = true) (hsummary : isBlank summary = false) :
    complete attemptId leaseToken fingerprint summary call t =
      .ok () (t.succeededBy k a (strip fingerprint) (strip summary) call) := by
  have hfinish : onAttempt k (finish .succeeded call.now none none (some (strip fingerprint))) t =
      .ok () (t.put k (a.finished .succeeded call.now none none (some (strip fingerprint)))) :=
    finish_returns hn.2 hholds.active (by simp) hz rfl (optionalText_fingerprint_ok hblank hsafe)
  have hfresh : ¬t.Logged ("succeeded:" ++ uuidText a.id ++ ":" ++ strip fingerprint) := by
    rw [String.append_assoc, String.append_assoc]
    refine not_logged (by decide) fun e he htag => ?_
    have hs := hj.succeeded e he htag
    rw [hrunning] at hs
    cases hs
  have hagain : ¬(t.status = .succeeded ∧ a.status = .succeeded) := by simp [hrunning]
  have hend : (do
      appendEvent call ("succeeded:" ++ uuidText a.id ++ ":" ++ strip fingerprint) .taskSucceeded
        [("attempt_number", .int a.number), ("result_fingerprint", .text (strip fingerprint))]
      validateInvariants) (t.succeeding k a (strip fingerprint) (strip summary) call) =
      .ok () (t.succeededBy k a (strip fingerprint) (strip summary) call) :=
    settle_returns hs hn.2 hholds.active continues_finished
      (by simp [TaskAttempt.isActive, finished]) rfl rfl rfl
      (by simp [TaskStatus.Live, succeeding]) (fun _ => ne_empty_of_not_blank hsummary) hz
      (succeeded_metadata (number_pos hs hn.2) (isBlank_strip.trans hblank) (by rwa [strip_strip]))
      (isBlank_eq_false (c := 's') (by simp) (by decide)) hfresh
  simp only [complete, bind_ok, lift_ok, get_ok, requireSafeFingerprint_ok, exists_eq_left,
    exists_and_left, and_assoc]
  refine ⟨k, hn.1, a, attempt_ok.2 hn.2, hblank, strip fingerprint, hsafe, rfl, ?_⟩
  rw [if_neg hagain]
  simp only [bind_ok, exists_unit, lift_ok, check_ok, modify_ok, requireUtc_ok, requireText_ok,
    Option.some.injEq, exists_eq_left, exists_and_left, and_assoc]
  refine ⟨hholds.active, hrunning, t, assertActiveLease_returns hs hn.2 hholds hz, call.now, rfl, hz,
    hsummary, _, hfinish, ?_⟩
  simp only [bind_ok, exists_unit] at hend
  exact hend

/-- **Which successes are taken**: those with a safe fingerprint and a summary. -/
theorem complete_ok_iff (hs : Sound t) (hj : Journal t) (hn : t.Names attemptId k a)
    (hrunning : t.status = .running) (hholds : a.Holds leaseToken call.now) :
    complete attemptId leaseToken fingerprint summary call t = .ok u t' ↔
      (call.now.tzAware = true ∧ isBlank fingerprint = false ∧
        isSafeFingerprint (strip fingerprint) = true ∧ isBlank summary = false) ∧
      t' = t.succeededBy k a (strip fingerprint) (strip summary) call := by
  constructor
  · intro h
    have hgood : call.now.tzAware = true ∧ isBlank fingerprint = false ∧
        isSafeFingerprint (strip fingerprint) = true ∧ isBlank summary = false := by
      have hagain : ¬(t.status = .succeeded ∧ a.status = .succeeded) := by simp [hrunning]
      simp only [complete, bind_ok, lift_ok, get_ok, requireSafeFingerprint_ok, exists_eq_left,
        exists_and_left, and_assoc] at h
      rcases h with ⟨k', hk', a', ha', hblank, _, hsafe, rfl, h⟩
      obtain rfl : k = k' := Except.ok.inj (hn.1.symm.trans hk')
      obtain rfl : a = a' := Option.some.inj (hn.2.symm.trans (attempt_ok.1 ha'))
      rw [if_neg hagain] at h
      simp only [bind_ok, exists_unit, lift_ok, check_ok, modify_ok, requireUtc_ok, requireText_ok,
        Option.some.injEq, exists_eq_left, exists_and_left, and_assoc] at h
      rcases h with ⟨-, -, _, -, now, hnow, hz, hsummary, -⟩
      exact ⟨hnow ▸ hz, hblank, hsafe, hsummary⟩
    refine ⟨hgood, ?_⟩
    rcases hgood with ⟨hz, hblank, hsafe, hsummary⟩
    have heq := h.symm.trans (complete_returns hs hj hn hrunning hholds hz hblank hsafe hsummary)
    exact (EStateM.Result.ok.inj heq).2
  · rintro ⟨⟨hz, hblank, hsafe, hsummary⟩, rfl⟩
    exact complete_returns hs hj hn hrunning hholds hz hblank hsafe hsummary

/-! ## Failure -/

/-- The failure leaves the task another attempt. -/
def Task.Retryable (t : Task) (category : FailureCategory) : Prop :=
  category = .transient ∧ t.attempts.length < t.maxAttempts

instance : Decidable (t.Retryable category) := by unfold Task.Retryable; infer_instance

/-- The retry time of a failure that leaves the task another attempt. -/
def Task.RetryAt (t : Task) (category : FailureCategory) (retryAt : Option DateTime)
    (now : DateTime) : Prop :=
  t.Retryable category →
    ∃ time, retryAt = some time ∧ time.tzAware = true ∧ now.instant ≤ time.instant

/-- The task after a failure of its attempt at position `k`, but for the log. -/
def Task.failing (t : Task) (k : Nat) (a : TaskAttempt) (category : FailureCategory)
    (code fingerprint : String) (retryAt : Option DateTime) (call : Call) : Task :=
  { t.put k (a.finished .failed call.now (some category) (some code) (some fingerprint)) with
    failureCode := some code
    resultFingerprint := some fingerprint
    resultSummary := none
    updatedAt := call.now
    status := if t.Retryable category then .retryWait else .failed
    availableAt := if t.Retryable category then retryAt.getD t.availableAt else t.availableAt }

def Task.failedBy (t : Task) (k : Nat) (a : TaskAttempt) (category : FailureCategory)
    (code fingerprint : String) (retryAt : Option DateTime) (call : Call) : Task :=
  (t.failing k a category code fingerprint retryAt call).log call
    (strip ("failed:" ++ uuidText a.id ++ ":" ++ fingerprint))
    (if t.Retryable category then .taskRetryScheduled else .taskFailed)
    [("attempt_number", .int a.number), ("failure_category", .text (strip category.value)),
      ("failure_code", .text (strip code))]

theorem retryTime_ok {now : DateTime} {retry : Option DateTime} :
    retryTime (category = .transient ∧ t.attempts.length < t.maxAttempts) retryAt now = .ok retry ↔
      t.RetryAt category retryAt now ∧ retry = if t.Retryable category then retryAt else none := by
  unfold retryTime Task.RetryAt
  by_cases hr : t.Retryable category
  · have hdec : decide (category = .transient ∧ t.attempts.length < t.maxAttempts) = true :=
      decide_eq_true hr
    rw [hdec, if_pos rfl, if_pos hr]
    simp only [except_bind_ok, exists_unit, requireUtc_ok, require_ok, except_pure_ok]
    constructor
    · rintro ⟨time, ⟨rfl, hz⟩, hlater, rfl⟩
      exact ⟨fun _ => ⟨time, rfl, hz, hlater⟩, rfl⟩
    · rintro ⟨h, rfl⟩
      rcases h hr with ⟨time, rfl, hz, hlater⟩
      exact ⟨time, ⟨rfl, hz⟩, hlater, rfl⟩
  · have hdec : decide (category = .transient ∧ t.attempts.length < t.maxAttempts) = false :=
      decide_eq_false hr
    rw [hdec, if_neg Bool.false_ne_true, if_neg hr, except_pure_ok]
    constructor
    · intro h
      exact ⟨fun hr' => absurd hr' hr, h.symm⟩
    · intro h
      exact h.2.symm

theorem not_live_failing : ¬(t.failing k a category code fingerprint retryAt call).status.Live := by
  unfold failing
  split_ifs <;> simp [TaskStatus.Live]

theorem fail_returns (hs : Sound t) (hj : Journal t) (hn : t.Names attemptId k a)
    (hrunning : t.status = .running) (hholds : a.Holds leaseToken call.now)
    (hz : call.now.tzAware = true) (hblank : isBlank fingerprint = false)
    (hsafe : isSafeFingerprint (strip fingerprint) = true) (hcode : isBlank code = false)
    (hsafeCode : isSafeFailureCode (strip code) = true)
    (hretry : t.RetryAt category retryAt call.now) :
    fail attemptId leaseToken category code fingerprint retryAt call t =
      .ok () (t.failedBy k a category (strip code) (strip fingerprint) retryAt call) := by
  have hfinish : onAttempt k (finish .failed call.now (some category) (some (strip code))
      (some (strip fingerprint))) t = .ok () (t.put k (a.finished .failed call.now (some category)
        (some (strip code)) (some (strip fingerprint)))) :=
    finish_returns hn.2 hholds.active (by simp) hz (optionalText_code_ok hcode hsafeCode)
      (optionalText_fingerprint_ok hblank hsafe)
  have hfresh : ¬t.Logged ("failed:" ++ uuidText a.id ++ ":" ++ strip fingerprint) := by
    refine not_logged (not_isSpace_failTag : (failTag a.id).toList.any isSpace = false) ?_
    intro e he htag
    rw [names_id hn] at htag
    rcases hj.failed e he attemptId htag with ⟨j, b, hb, hsettled⟩
    obtain rfl : k = j := Except.ok.inj (hn.1.symm.trans hb.1)
    obtain rfl : a = b := Option.some.inj (hn.2.symm.trans hb.2)
    exact hsettled hholds.active
  have hagain : ¬((t.status = .retryWait ∨ t.status = .failed) ∧ a.status = .failed) := by
    simp [hrunning]
  have hty : (if t.Retryable category then TaskEventType.taskRetryScheduled else .taskFailed) =
        .taskFailed ∨
      (if t.Retryable category then TaskEventType.taskRetryScheduled else .taskFailed) =
        .taskRetryScheduled := by
    split_ifs <;> simp
  have hopen : (t.failing k a category (strip code) (strip fingerprint) retryAt call).status ≠
      .succeeded := by
    unfold failing
    split_ifs <;> simp
  have hend : (do
      appendEvent call ("failed:" ++ uuidText a.id ++ ":" ++ strip fingerprint)
        (if t.Retryable category then .taskRetryScheduled else .taskFailed)
        [("attempt_number", .int a.number), ("failure_category", .text category.value),
          ("failure_code", .text (strip code))]
      validateInvariants) (t.failing k a category (strip code) (strip fingerprint) retryAt call) =
      .ok () (t.failedBy k a category (strip code) (strip fingerprint) retryAt call) :=
    settle_returns hs hn.2 hholds.active continues_finished
      (by simp [TaskAttempt.isActive, finished]) rfl rfl rfl not_live_failing
      (fun h => absurd h hopen) hz
      (failed_metadata hty (number_pos hs hn.2) (isBlank_strip.trans hcode) (by rwa [strip_strip]))
      (isBlank_eq_false (c := 'f') (by simp) (by decide)) hfresh
  simp only [bind_ok, exists_unit] at hend
  simp only [fail, bind_ok, lift_ok, get_ok, requireSafeFingerprint_ok, exists_eq_left,
    exists_and_left, and_assoc]
  refine ⟨k, hn.1, a, attempt_ok.2 hn.2, hblank, strip fingerprint, hsafe, rfl, ?_⟩
  rw [if_neg hagain]
  simp only [bind_ok, exists_unit, lift_ok, check_ok, modify_ok, requireUtc_ok,
    requireSafeFailureCode_ok, Option.some.injEq, exists_eq_left, exists_and_left, and_assoc]
  refine ⟨hholds.active, hrunning, t, assertActiveLease_returns hs hn.2 hholds hz, call.now, rfl, hz,
    hcode, strip code, hsafeCode, rfl, _, retryTime_ok.2 ⟨hretry, rfl⟩, _, hfinish, ?_⟩
  by_cases hr : t.Retryable category
  · rcases hretry hr with ⟨time, rfl, -, -⟩
    simp only [failing, if_pos hr, Option.getD_some] at hend
    rw [if_pos hr]
    simp only [bind_ok, exists_unit, modify_ok, pure_ok, exists_eq_left, exists_and_left, and_assoc]
    exact hend
  · simp only [failing, if_neg hr] at hend
    rw [if_neg hr]
    simp only [bind_ok, exists_unit, modify_ok, pure_ok, exists_eq_left, exists_and_left, and_assoc]
    exact hend

/-- **Which failures are taken**: those with a safe fingerprint, a safe code and, if the task has
another attempt left, a time for it. -/
theorem fail_ok_iff (hs : Sound t) (hj : Journal t) (hn : t.Names attemptId k a)
    (hrunning : t.status = .running) (hholds : a.Holds leaseToken call.now) :
    fail attemptId leaseToken category code fingerprint retryAt call t = .ok u t' ↔
      (call.now.tzAware = true ∧ isBlank fingerprint = false ∧
        isSafeFingerprint (strip fingerprint) = true ∧ isBlank code = false ∧
        isSafeFailureCode (strip code) = true ∧ t.RetryAt category retryAt call.now) ∧
      t' = t.failedBy k a category (strip code) (strip fingerprint) retryAt call := by
  constructor
  · intro h
    have hgood : call.now.tzAware = true ∧ isBlank fingerprint = false ∧
        isSafeFingerprint (strip fingerprint) = true ∧ isBlank code = false ∧
        isSafeFailureCode (strip code) = true ∧ t.RetryAt category retryAt call.now := by
      have hagain : ¬((t.status = .retryWait ∨ t.status = .failed) ∧ a.status = .failed) := by
        simp [hrunning]
      simp only [fail, bind_ok, lift_ok, get_ok, requireSafeFingerprint_ok, exists_eq_left,
        exists_and_left, and_assoc] at h
      rcases h with ⟨k', hk', a', ha', hblank, _, hsafe, rfl, h⟩
      obtain rfl : k = k' := Except.ok.inj (hn.1.symm.trans hk')
      obtain rfl : a = a' := Option.some.inj (hn.2.symm.trans (attempt_ok.1 ha'))
      rw [if_neg hagain] at h
      simp only [bind_ok, exists_unit, lift_ok, check_ok, modify_ok, requireUtc_ok,
        requireSafeFailureCode_ok, Option.some.injEq, exists_eq_left, exists_and_left,
        and_assoc] at h
      rcases h with ⟨-, -, _, -, _, rfl, hz, hcode, _, hsafeCode, rfl, retry, hretry, -⟩
      exact ⟨hz, hblank, hsafe, hcode, hsafeCode, (retryTime_ok.1 hretry).1⟩
    refine ⟨hgood, ?_⟩
    rcases hgood with ⟨hz, hblank, hsafe, hcode, hsafeCode, hretry⟩
    have heq := h.symm.trans
      (fail_returns hs hj hn hrunning hholds hz hblank hsafe hcode hsafeCode hretry)
    exact (EStateM.Result.ok.inj heq).2
  · rintro ⟨⟨hz, hblank, hsafe, hcode, hsafeCode, hretry⟩, rfl⟩
    exact fail_returns hs hj hn hrunning hholds hz hblank hsafe hcode hsafeCode hretry

end GoAgent.Tasks
