import GoAgent.Tasks.Reports
import GoAgent.Tasks.Service

/-!
# The worker

`TaskWorker.poll_once` claims a queued task, has it executed and commits what the executor answers.
Between the claim and the commit anybody may call the service on the task. The result types check
nothing, so an executor can answer with a blank summary, an unsafe code or a retry time in the past;
the domain refuses these, the worker turns the refusal into a report of its own, and the attempt
stays live until its lease runs out.

* `finish_settles` — which answers are committed, on a task whose attempt is held.
* `held_of_claimed` — a live attempt under the claimed id holds the token that was granted.
* `poll_once_settles` — `poll_once` settles the attempt exactly if the answer can be committed.
-/

namespace GoAgent.Tasks

open GoAgent.Foundation GoAgent.Tasks.Task GoAgent.Tasks.TaskAttempt

/-! ## Columns -/

def storableOptional (s : Option String) : Bool := s.all storableText

def MetaValue.storable : MetaValue → Bool
  | .text s => storableText s
  | .int _ => true

/-- The columns and checks of `task_attempt`. -/
def TaskAttempt.fits (a : TaskAttempt) : Bool :=
  storableInt a.number && decide (0 < a.number) &&
  storableText a.workerId && notBlank a.workerId && storableText a.claimId && notBlank a.claimId &&
  storableText a.leaseToken && notBlank a.leaseToken &&
  decide (a.createdAt.instant < a.leaseExpiresAt.instant) &&
  storableInt a.renewalSequence && decide (0 ≤ a.renewalSequence) &&
  storableOptional a.failureCode && storableOptional a.resultFingerprint

/-- The columns and checks of `task_event`. -/
def TaskEvent.fits (e : TaskEvent) : Bool :=
  storableInt e.sequence && decide (0 < e.sequence) && storableText e.transitionId &&
  notBlank e.transitionId && e.metadata.all fun p => storableText p.1 && p.2.storable

/-- The columns and checks of `task` that a submission fills. -/
def Task.submissionFits (t : Task) : Bool :=
  storableText t.taskType && notBlank t.taskType && storableText t.ownerSubject &&
  notBlank t.ownerSubject && storableText t.idempotencyKey && notBlank t.idempotencyKey &&
  storableText t.inputFingerprint && notBlank t.inputFingerprint && storableInt t.maxAttempts &&
  decide (0 < t.maxAttempts) &&
  t.displayMetadata.all fun p => storableText p.1 && storableText p.2

/-- The columns of `task` that a report fills. -/
def Task.reportFits (t : Task) : Bool :=
  storableOptional t.resultSummary && storableOptional t.resultFingerprint &&
  storableOptional t.failureCode

/-- The row of `task` fits, and so do the rows that belong to it. -/
def Task.fits (t : Task) : Bool :=
  t.submissionFits && t.reportFits && t.attempts.all TaskAttempt.fits &&
  t.events.all TaskEvent.fits

/-! ## The store -/

/-- What a worker meets: an exception of the domain, of the database, or of the executor. -/
inductive PollError
  | task (error : TaskError)
  | database
  | executor (error : BaseException)
  deriving DecidableEq

abbrev WorkerM := EStateM PollError Record

/-- One transaction of the service: what raises, or does not fit the columns, is rolled back. -/
def transaction {α : Type} (m : ServiceM α) : WorkerM α := fun s =>
  match m s with
  | .ok a s' => if s'.task.fits then .ok a s' else .error .database s
  | .error e _ => .error (.task e) s

/-- A call of anybody's on the task. -/
def serve (s : Record) (r : Request) : Record :=
  match transaction (TaskLifecycleService.handle r) s with
  | .ok () s' => s'
  | .error _ s' => s'

/-- One call, answered or not. -/
def Commits (s : Record) (r : Request) (s' : Record) : Prop := serve s r = s'

/-- A task that was submitted and stored. -/
def Opened (s : Record) : Prop := Submitted s ∧ s.task.fits = true

/-! ## The worker -/

structure LeaseGrant where
  leaseToken : String
  leaseExpiresAt : DateTime

inductive TaskExecutionOutcome
  | success (resultFingerprint resultSummary : String)
  | failure (failureCategory : FailureCategory) (failureCode resultFingerprint : String)
      (retryAt : Option DateTime)
  | cancellation (resultFingerprint : String)
  deriving DecidableEq

/-- What a call of the executor comes to; `other` is an object of another type. -/
inductive Answer
  | returned (outcome : TaskExecutionOutcome)
  | other
  | raised (error : BaseException)
  deriving DecidableEq

structure TaskView where
  id : UUID
  taskType : String
  ownerSubject : String
  status : TaskStatus
  attemptCount : Nat
  maxAttempts : Nat
  availableAt : DateTime
  resultSummary : Option String
  failureCode : Option String
  createdAt : DateTime
  updatedAt : DateTime
  deriving DecidableEq

/-- `TaskView.from_task` -/
def TaskView.fromTask (t : Task) : TaskView where
  id := t.id
  taskType := t.taskType
  ownerSubject := t.ownerSubject
  status := t.status
  attemptCount := t.attempts.length
  maxAttempts := t.maxAttempts
  availableAt := t.availableAt
  resultSummary := t.resultSummary
  failureCode := t.failureCode
  createdAt := t.createdAt
  updatedAt := t.updatedAt

inductive WorkerPollStatus
  | idle | succeeded | failed | cancelled | rejected
  deriving DecidableEq

structure WorkerPollResult where
  status : WorkerPollStatus
  task : Option TaskView := none
  errorCode : Option String := none
  deriving DecidableEq

/-- What one poll gets from outside: the clock, the lease or the exception of its issuer, the id of
the claim, the executor's answer (`none`: no executor is bound to the task type) and what the two
calls of the service draw. -/
structure Poll where
  workerId : String
  now : DateTime
  grant : Except PollError LeaseGrant
  claimId : String
  claimed : Call
  executor : Option Answer
  finished : Call

namespace TaskWorker

/-- Report the task as the transaction left it, or what to report when it raised. -/
def reporting (commit : ServiceM Unit) (status : WorkerPollStatus) (errorCode : String) :
    WorkerM WorkerPollResult :=
  tryCatch
    (do
      transaction commit
      let s ← get
      pure { status, task := some (.fromTask s.task) })
    fun _ => pure { status := .rejected, errorCode := some errorCode }

/-- `_finish_failure` -/
def finishFailure (a : TaskAttempt) (failureCategory : FailureCategory)
    (failureCode resultFingerprint : String) (retryAt : Option DateTime) (call : Call) :
    WorkerM WorkerPollResult :=
  reporting
    (TaskLifecycleService.fail a.id a.leaseToken failureCategory failureCode resultFingerprint
      retryAt call)
    .failed "FAILURE_COMMIT_REJECTED"

/-- What the worker takes an answer for. -/
def outcomeOf : Answer → Except PollError TaskExecutionOutcome
  | .raised (.exception _) => .ok (.failure .permanent "EXECUTOR_FAILED" "executor-failed" none)
  | .raised e => .error (.executor e)
  | .other =>
    .ok (.failure .permanent "INVALID_EXECUTOR_RESULT" "invalid-executor-result" none)
  | .returned (.failure .transient _ _ none) =>
    .ok (.failure .permanent "INVALID_RETRY_SCHEDULE" "invalid-retry-schedule" none)
  | .returned outcome => .ok outcome

def commitOutcome (a : TaskAttempt) (call : Call) :
    TaskExecutionOutcome → WorkerM WorkerPollResult
  | .cancellation _ =>
    reporting (TaskLifecycleService.confirmCancellation a.id a.leaseToken call) .cancelled
      "CANCELLATION_COMMIT_REJECTED"
  | .success fingerprint summary =>
    reporting (TaskLifecycleService.complete a.id a.leaseToken fingerprint summary call) .succeeded
      "RESULT_COMMIT_REJECTED"
  | .failure category code fingerprint retryAt =>
    finishFailure a category code fingerprint retryAt call

/-- What follows the claim. -/
def finish (p : Poll) (a : TaskAttempt) : WorkerM WorkerPollResult :=
  match p.executor with
  | none =>
    finishFailure a .permanent "EXECUTOR_UNAVAILABLE" "executor-unavailable" none p.finished
  | some answer =>
    if answer = .raised (.exception "TaskLeaseRejectedError") then
      pure { status := .rejected, errorCode := some "LEASE_REJECTED" }
    else do
      let outcome ← lift (outcomeOf answer)
      commitOutcome a p.finished outcome

/-- The candidate, if the task is one, and its claim. -/
def claimNext (p : Poll) : WorkerM (Option TaskAttempt) := do
  let s ← get
  if s.task.status = .queued ∧ s.task.availableAt.instant ≤ p.now.instant then
    let grant ← lift p.grant
    let a ← transaction (TaskLifecycleService.claim p.workerId p.claimId grant.leaseToken
      grant.leaseExpiresAt p.claimed)
    pure (some a)
  else pure none

/-- `poll_once`, with the calls that others make on the task after the claim. -/
def pollOnce (p : Poll) (others : List Request) : WorkerM WorkerPollResult := do
  match ← claimNext p with
  | none => pure { status := .idle }
  | some a =>
    modify fun s => others.foldl serve s
    finish p a

end TaskWorker

open TaskWorker

variable {s s' s₁ : Record} {t t' t₁ : Task} {r : Request} {p : Poll} {call : Call} {k : Nat}
  {a a' b : TaskAttempt} {others : List Request} {attemptId : UUID}
  {fingerprint summary code : String} {category : FailureCategory} {retryAt : Option DateTime}

/-! ## Transactions -/

theorem transaction_ok {α : Type} {m : ServiceM α} {x : α} :
    transaction m s = .ok x s' ↔ m s = .ok x s' ∧ s'.task.fits = true := by
  unfold transaction
  cases m s with
  | ok y s'' =>
    by_cases hfits : s''.task.fits = true
    · simp only [if_pos hfits, EStateM.Result.ok.injEq]
      constructor
      · rintro ⟨rfl, rfl⟩
        exact ⟨⟨rfl, rfl⟩, hfits⟩
      · exact And.left
    · simp only [if_neg hfits, EStateM.Result.ok.injEq, reduceCtorEq, false_iff, not_and]
      rintro ⟨rfl, rfl⟩
      exact hfits
  | error e s'' => simp

theorem transaction_error {α : Type} {m : ServiceM α} {e : PollError}
    (h : transaction m s = .error e s') : s' = s := by
  unfold transaction at h
  cases hm : m s with
  | ok y s'' =>
    simp only [hm] at h
    split_ifs at h
    cases h
    rfl
  | error e' s'' =>
    rw [hm] at h
    cases h
    rfl

/-- Another's call either changed nothing, or was served and stored. -/
theorem serve_cases : serve s r = s ∨ Serves s r (serve s r) ∧ (serve s r).task.fits = true := by
  unfold serve
  cases h : transaction (TaskLifecycleService.handle r) s with
  | ok u s' =>
    rcases transaction_ok.1 h with ⟨hr, hfits⟩
    refine Or.inr ⟨?_, hfits⟩
    rw [Serves, respond, hr]
  | error e s' => exact Or.inl (transaction_error h)

theorem stored_serve (h : Reachable Submitted Serves s) (hfits : s.task.fits = true) :
    Reachable Submitted Serves (serve s r) ∧ (serve s r).task.fits = true := by
  rcases serve_cases (s := s) (r := r) with heq | ⟨hr, hfits'⟩
  · rw [heq]
    exact ⟨h, hfits⟩
  · exact ⟨h.next hr, hfits'⟩

/-- What the store holds of a task came about by calls, and fits the columns. -/
theorem stored (h : Reachable Opened Commits s) :
    Reachable Submitted Serves s ∧ s.task.fits = true := by
  refine h.invariant (P := fun s => Reachable Submitted Serves s ∧ s.task.fits = true) ?_ ?_
  · intro s hs
    exact ⟨.start hs.1, hs.2⟩
  · intro s r s' hs hr
    rw [← (hr : serve s r = s')]
    exact stored_serve hs.1 hs.2

theorem stored_others (others : List Request) (h : Reachable Submitted Serves s)
    (hfits : s.task.fits = true) :
    Reachable Submitted Serves (others.foldl serve s) ∧ (others.foldl serve s).task.fits = true := by
  induction others generalizing s with
  | nil => exact ⟨h, hfits⟩
  | cons r others ih =>
    rcases stored_serve (r := r) h hfits with ⟨hnext, hfits'⟩
    exact ih hnext hfits'

theorem steps_of_others (s : Record) (others : List Request) :
    ∃ rs, Steps Serves s rs (others.foldl serve s) := by
  induction others generalizing s with
  | nil => exact ⟨[], .nil s⟩
  | cons r others ih =>
    rcases ih (serve s r) with ⟨rs, hrs⟩
    rcases serve_cases (s := s) (r := r) with heq | ⟨hr, -⟩
    · rw [heq] at hrs
      exact ⟨rs, by rwa [List.foldl_cons, heq]⟩
    · exact ⟨r :: rs, .cons hr hrs⟩

/-! ## What the columns keep of a report -/

theorem storableText_strip {x : String} (h : storableText x = true) :
    storableText (strip x) = true := by
  rw [storableText_iff] at h ⊢
  intro c hc
  exact h c (mem_of_mem_strip hc)

theorem storableText_of_fingerprint {x : String} (h : isSafeFingerprint x = true) :
    storableText x = true := by
  have hchar : ∀ c, isAlnum c = true → (c.toNat != 0) = true := by
    intro c hc
    simp only [isAlnum, isLower, isUpper, isDigit, Bool.or_eq_true, Bool.and_eq_true,
      decide_eq_true_eq] at hc
    simp only [bne_iff_ne, ne_eq]
    omega
  have hall := all_of_matchesClass (p := fun c => c.toNat != 0) hchar (fun c hc => by
    simp only [Bool.or_eq_true, beq_iff_eq] at hc
    rcases hc with (((hc | rfl) | rfl) | rfl) | rfl
    · exact hchar c hc
    all_goals decide) h
  exact List.all_eq_true.2 hall.2

theorem storableText_of_code {x : String} (h : isSafeFailureCode x = true) :
    storableText x = true := by
  have hupper : ∀ c, isUpper c = true → (c.toNat != 0) = true := by
    intro c hc
    simp only [isUpper, Bool.and_eq_true, decide_eq_true_eq] at hc
    simp only [bne_iff_ne, ne_eq]
    omega
  have hall := all_of_matchesClass (p := fun c => c.toNat != 0) hupper (fun c hc => by
    simp only [Bool.or_eq_true, beq_iff_eq] at hc
    rcases hc with (hc | hc) | rfl
    · exact hupper c hc
    · simp only [isDigit, Bool.and_eq_true, decide_eq_true_eq] at hc
      simp only [bne_iff_ne, ne_eq]
      omega
    · decide) h
  exact List.all_eq_true.2 hall.2

theorem storableText_uuidText {id : UUID} : storableText (uuidText id) = true := by
  rw [storableText_iff]
  intro c hc h0
  have hdigit := digit_of_mem_uuidText hc
  simp only [Char.isDigit, Bool.and_eq_true, decide_eq_true_eq, UInt32.le_iff_toNat_le] at hdigit
  have hzero : c.val.toNat = 0 := h0
  rw [hzero] at hdigit
  exact absurd hdigit.1 (by decide)

/-- An attempt keeps its columns when it ends. -/
theorem fits_finished {status : AttemptStatus} {now : DateTime}
    {failureCategory : Option FailureCategory} {code fingerprint : Option String}
    (ha : a.fits = true) (hcode : storableOptional code = true)
    (hfp : storableOptional fingerprint = true) :
    (a.finished status now failureCategory code fingerprint).fits = true := by
  simp only [TaskAttempt.fits, Bool.and_eq_true] at ha ⊢
  exact ⟨⟨ha.1.1, hcode⟩, hfp⟩

/-- A text that ends an attempt names a transition that the column holds. -/
theorem storable_transition {tag : String} {id : UUID} (htag : storableText tag = true)
    (hblank : isBlank tag = false) (hfp : storableText fingerprint = true) :
    storableText (strip (tag ++ uuidText id ++ ":" ++ fingerprint)) = true ∧
      notBlank (strip (tag ++ uuidText id ++ ":" ++ fingerprint)) = true := by
  constructor
  · apply storableText_strip
    simp only [storableText_append]
    exact ⟨⟨⟨htag, storableText_uuidText⟩, by decide⟩, hfp⟩
  · apply notBlank_of_isBlank
    rw [isBlank_strip]
    unfold isBlank at hblank ⊢
    simp only [String.toList_append, List.all_append, hblank, Bool.false_and]

theorem fits_iff : t.fits = true ↔ t.submissionFits = true ∧ t.reportFits = true ∧
    (∀ a ∈ t.attempts, a.fits = true) ∧ ∀ e ∈ t.events, e.fits = true := by
  simp only [Task.fits, Bool.and_eq_true, List.all_eq_true, and_assoc]

/-- A log that the column of the sequence holds takes one more event. -/
theorem fits_log {transitionId : String} {ty : TaskEventType} {m : Metadata}
    (htransition : storableText transitionId = true ∧ notBlank transitionId = true)
    (hm : (m.all fun q => storableText q.1 && q.2.storable) = true) :
    (t.log call transitionId ty m).fits = true ↔
      t.fits = true ∧ storableInt ((t.events.length + 1 : Nat) : Int) = true := by
  have hevent : (t.nextEvent call transitionId ty m).fits = true ↔
      storableInt ((t.events.length + 1 : Nat) : Int) = true := by
    simp only [TaskEvent.fits, nextEvent, htransition.1, htransition.2, hm, Bool.and_eq_true,
      decide_eq_true_eq, Nat.succ_pos, and_true]
  have hevents : (∀ e ∈ t.events ++ [t.nextEvent call transitionId ty m], e.fits = true) ↔
      (∀ e ∈ t.events, e.fits = true) ∧
        storableInt ((t.events.length + 1 : Nat) : Int) = true := by
    rw [List.forall_mem_append, List.forall_mem_singleton, hevent]
  rw [fits_iff, fits_iff, and_assoc, and_assoc, and_assoc]
  exact and_congr_right fun _ => and_congr_right fun _ => and_congr_right fun _ => hevents

/-- The rows of a task whose attempt ended. -/
theorem fits_settled (hfits : t.fits = true) (ha : a'.fits = true)
    (hsubmission : t₁.submissionFits = t.submissionFits)
    (hattempts : t₁.attempts = t.attempts.set k a') (hevents : t₁.events = t.events) :
    t₁.fits = true ↔ t₁.reportFits = true := by
  rcases fits_iff.1 hfits with ⟨hrow, -, hall, hlog⟩
  rw [fits_iff, hsubmission, hattempts, hevents]
  constructor
  · intro h
    exact h.2.1
  · intro h
    refine ⟨hrow, h, ?_, hlog⟩
    intro b hb
    rcases List.mem_or_eq_of_mem_set hb with hb | rfl
    · exact hall b hb
    · exact ha

/-- A success fits exactly if its summary does, and the log has room. -/
theorem fits_succeededBy (hfits : t.fits = true) (ha : t.attempts[k]? = some a)
    (hsafe : isSafeFingerprint fingerprint = true) :
    (t.succeededBy k a fingerprint summary call).fits = true ↔
      storableText summary = true ∧ storableInt ((t.events.length + 1 : Nat) : Int) = true := by
  have hfp := storableText_of_fingerprint hsafe
  have hmem : a ∈ t.attempts := List.mem_of_getElem? ha
  have hmetadata : (([("attempt_number", .int a.number),
      ("result_fingerprint", .text (strip fingerprint))] : Metadata).all
        fun q => storableText q.1 && q.2.storable) = true := by
    simp only [List.all_cons, List.all_nil, MetaValue.storable, storableText_strip hfp]
    decide
  have hreport : (t.succeeding k a fingerprint summary call).reportFits = true ↔
      storableText summary = true := by
    simp only [reportFits, succeeding, storableOptional, Option.all_some, Option.all_none, hfp,
      Bool.and_true]
  have hend : (a.finished .succeeded call.now none none (some fingerprint)).fits = true :=
    fits_finished ((fits_iff.1 hfits).2.2.1 a hmem) rfl hfp
  have hsettled : (t.succeeding k a fingerprint summary call).fits = true ↔
      (t.succeeding k a fingerprint summary call).reportFits = true :=
    fits_settled hfits hend rfl rfl rfl
  unfold succeededBy
  rw [fits_log (storable_transition (by decide) (by decide) hfp) hmetadata, hsettled, hreport]
  exact Iff.rfl

/-- A failure fits as soon as the log has room. -/
theorem fits_failedBy (hfits : t.fits = true) (ha : t.attempts[k]? = some a)
    (hsafe : isSafeFingerprint fingerprint = true) (hcode : isSafeFailureCode code = true) :
    (t.failedBy k a category code fingerprint retryAt call).fits = true ↔
      storableInt ((t.events.length + 1 : Nat) : Int) = true := by
  have hfp := storableText_of_fingerprint hsafe
  have hcode' := storableText_of_code hcode
  have hmem : a ∈ t.attempts := List.mem_of_getElem? ha
  have hcategory : storableText (strip category.value) = true := by
    apply storableText_strip
    cases category <;> decide
  have hmetadata : (([("attempt_number", .int a.number),
      ("failure_category", .text (strip category.value)),
      ("failure_code", .text (strip code))] : Metadata).all
        fun q => storableText q.1 && q.2.storable) = true := by
    simp only [List.all_cons, List.all_nil, MetaValue.storable, storableText_strip hcode',
      hcategory]
    decide
  have hreport : (t.failing k a category code fingerprint retryAt call).reportFits = true := by
    simp only [reportFits, failing, storableOptional, Option.all_some, Option.all_none, hfp,
      hcode', Bool.and_true]
  have hend : (a.finished .failed call.now (some category) (some code)
      (some fingerprint)).fits = true :=
    fits_finished ((fits_iff.1 hfits).2.2.1 a hmem) hcode' hfp
  have hsettled : (t.failing k a category code fingerprint retryAt call).fits = true ↔
      (t.failing k a category code fingerprint retryAt call).reportFits = true :=
    fits_settled hfits hend rfl rfl rfl
  unfold failedBy
  rw [fits_log (storable_transition (by decide) (by decide) hfp) hmetadata]
  exact and_iff_right (hsettled.2 hreport)

/-! ## What a report settles -/

/-- The status that is reported, and the one that is stored. -/
def WorkerPollStatus.Agrees : WorkerPollStatus → TaskStatus → Prop
  | .succeeded, stored => stored = .succeeded
  | .failed, stored => stored = .failed ∨ stored = .retryWait
  | .cancelled, stored => stored = .cancelled
  | .idle, _ | .rejected, _ => False

/-- The worker returns, no attempt is live, and what it reports is what the store holds. -/
def Settles (m : WorkerM WorkerPollResult) (s : Record) : Prop :=
  ∃ result s', m s = .ok result s' ∧ (∀ a ∈ s'.task.attempts, ¬a.isActive) ∧
    result.status.Agrees s'.task.status

theorem settled_of_not_live (hs : Sound t) (hlive : ¬t.status.Live) :
    ∀ a ∈ t.attempts, ¬a.isActive := by
  intro a ha hactive
  rcases List.getElem?_of_mem ha with ⟨k, hk⟩
  exact hlive (live_of_active hs hk hactive)

theorem reporting_ok {commit : ServiceM Unit} {status : WorkerPollStatus} {errorCode : String}
    {result : WorkerPollResult} : reporting commit status errorCode s = .ok result s' ↔
      transaction commit s = .ok () s' ∧
          result = { status, task := some (.fromTask s'.task) } ∨
        ∃ e, transaction commit s = .error e s' ∧
          result = { status := .rejected, errorCode := some errorCode } := by
  cases h : transaction commit s with
  | ok u s₁ =>
    have hrun : reporting commit status errorCode s =
        .ok { status, task := some (.fromTask s₁.task) } s₁ :=
      tryCatch_ok.2 (Or.inl (bind_of_ok h))
    rw [hrun]
    simp only [EStateM.Result.ok.injEq, reduceCtorEq, false_and, exists_false, or_false]
    constructor
    · rintro ⟨rfl, rfl⟩
      exact ⟨⟨trivial, rfl⟩, rfl⟩
    · rintro ⟨⟨-, rfl⟩, rfl⟩
      exact ⟨rfl, rfl⟩
  | error e s₁ =>
    have hrun : reporting commit status errorCode s =
        .ok { status := .rejected, errorCode := some errorCode } s₁ :=
      tryCatch_ok.2 (Or.inr ⟨e, s₁, bind_of_error h, rfl⟩)
    rw [hrun]
    simp only [EStateM.Result.ok.injEq, EStateM.Result.error.injEq, reduceCtorEq, false_and,
      false_or]
    constructor
    · rintro ⟨rfl, rfl⟩
      exact ⟨e, ⟨rfl, rfl⟩, rfl⟩
    · rintro ⟨_, ⟨-, rfl⟩, rfl⟩
      exact ⟨rfl, rfl⟩

/-- A report settles the task exactly if the service takes it and its columns fit. -/
theorem reporting_settles {commit : ServiceM Unit} {status : WorkerPollStatus}
    {errorCode : String} {good room : Prop}
    (hcommit : ∀ u s', commit s = .ok u s' ↔ good ∧ s' = ⟨t', s.receipts⟩)
    (hfits : good → (t'.fits = true ↔ room))
    (hsettled : good → (∀ a ∈ t'.attempts, ¬a.isActive) ∧ status.Agrees t'.status) :
    Settles (reporting commit status errorCode) s ↔ good ∧ room := by
  constructor
  · rintro ⟨result, s', hrun, -, hagrees⟩
    rcases reporting_ok.1 hrun with ⟨h, -⟩ | ⟨e, -, rfl⟩
    · rcases transaction_ok.1 h with ⟨hc, hfit⟩
      rcases (hcommit _ _).1 hc with ⟨hgood, rfl⟩
      exact ⟨hgood, (hfits hgood).1 hfit⟩
    · exact hagrees.elim
  · rintro ⟨hgood, hroom⟩
    have hc : transaction commit s = .ok () ⟨t', s.receipts⟩ :=
      transaction_ok.2 ⟨(hcommit _ _).2 ⟨hgood, rfl⟩, (hfits hgood).2 hroom⟩
    exact ⟨_, _, reporting_ok.2 (Or.inl ⟨hc, rfl⟩), hsettled hgood⟩

/-- What `saved` keeps of a method that is taken under a condition. -/
theorem saved_iff {method : TaskM Unit} {good : Prop}
    (h : ∀ u t, method s.task = .ok u t ↔ good ∧ t = t') (u : Unit) (s' : Record) :
    TaskLifecycleService.saved method none s = .ok u s' ↔ good ∧ s' = ⟨t', s.receipts⟩ := by
  rw [saved_ok]
  constructor
  · rintro ⟨t, ht, rfl⟩
    rcases (h _ _).1 ht with ⟨hgood, rfl⟩
    exact ⟨hgood, rfl⟩
  · rintro ⟨hgood, rfl⟩
    exact ⟨t', (h _ _).2 ⟨hgood, rfl⟩, rfl⟩

section Held

variable (h : Reachable Submitted Serves s) (hfit : s.task.fits = true)
  (hn : s.task.Names a.id k b) (hrunning : s.task.status = .running)
  (hholds : b.Holds a.leaseToken call.now)

include h hfit hn hrunning hholds

/-- A success settles the task if its texts are good and fit. -/
theorem success_settles :
    Settles (commitOutcome a call (.success fingerprint summary)) s ↔
      (call.now.tzAware = true ∧ isBlank fingerprint = false ∧
        isSafeFingerprint (strip fingerprint) = true ∧ isBlank summary = false) ∧
      storableText (strip summary) = true ∧
        storableInt ((s.task.events.length + 1 : Nat) : Int) = true := by
  have ht := task_reachable h
  have hsound := (healthy_of_reachable ht).sound
  have hj := journal_of_reachable ht
  have hcomplete : ∀ u t', complete a.id a.leaseToken fingerprint summary call s.task = .ok u t' ↔
      _ ∧ t' = _ :=
    fun u t' => complete_ok_iff hsound hj hn hrunning hholds
  refine reporting_settles (saved_iff hcomplete) ?_ ?_
  · intro hgood
    exact fits_succeededBy hfit hn.2 hgood.2.2.1
  · intro hgood
    have hnext : Accepts s.task ⟨.complete a.id a.leaseToken fingerprint summary, call⟩ _ :=
      (hcomplete () _).2 ⟨hgood, rfl⟩
    refine ⟨settled_of_not_live (healthy_of_reachable (ht.next hnext)).sound ?_, rfl⟩
    simp [TaskStatus.Live, succeededBy, succeeding, Task.log]

theorem finishFailure_settles :
    Settles (finishFailure a category code fingerprint retryAt call) s ↔
      (call.now.tzAware = true ∧ isBlank fingerprint = false ∧
        isSafeFingerprint (strip fingerprint) = true ∧ isBlank code = false ∧
        isSafeFailureCode (strip code) = true ∧ s.task.RetryAt category retryAt call.now) ∧
      storableInt ((s.task.events.length + 1 : Nat) : Int) = true := by
  have ht := task_reachable h
  have hsound := (healthy_of_reachable ht).sound
  have hj := journal_of_reachable ht
  have hfail : ∀ u t', fail a.id a.leaseToken category code fingerprint retryAt call s.task =
      .ok u t' ↔ _ ∧ t' = _ :=
    fun u t' => fail_ok_iff hsound hj hn hrunning hholds
  have hlive : ¬(s.task.failing k b category (strip code) (strip fingerprint) retryAt
      call).status.Live := not_live_failing
  refine reporting_settles (saved_iff hfail) ?_ ?_
  · intro hgood
    exact fits_failedBy hfit hn.2 hgood.2.2.1 hgood.2.2.2.2.1
  · intro hgood
    have hnext : Accepts s.task
        ⟨.fail a.id a.leaseToken category code fingerprint retryAt, call⟩ _ :=
      (hfail () _).2 ⟨hgood, rfl⟩
    refine ⟨settled_of_not_live (healthy_of_reachable (ht.next hnext)).sound hlive, ?_⟩
    show (if s.task.Retryable category then TaskStatus.retryWait else .failed) = .failed ∨
      (if s.task.Retryable category then TaskStatus.retryWait else .failed) = .retryWait
    split_ifs
    · exact Or.inr rfl
    · exact Or.inl rfl

/-- The worker's own failures are always good reports. -/
theorem ownFailure_settles (hfp : isBlank fingerprint = false)
    (hsafe : isSafeFingerprint (strip fingerprint) = true) (hcode : isBlank code = false)
    (hsafeCode : isSafeFailureCode (strip code) = true) :
    Settles (finishFailure a .permanent code fingerprint none call) s ↔
      call.now.tzAware = true ∧ storableInt ((s.task.events.length + 1 : Nat) : Int) = true := by
  have hretry : s.task.RetryAt .permanent none call.now := fun hr => by cases hr.1
  rw [finishFailure_settles h hfit hn hrunning hholds]
  constructor
  · intro hgood
    exact ⟨hgood.1.1, hgood.2⟩
  · intro hgood
    exact ⟨⟨hgood.1, hfp, hsafe, hcode, hsafeCode, hretry⟩, hgood.2⟩

end Held

/-- What an answer must be for its report to be taken from a running task. -/
def Answer.Reportable (t : Task) (now : DateTime) : Answer → Prop
  | .returned (.success fingerprint summary) =>
    isBlank fingerprint = false ∧ isSafeFingerprint (strip fingerprint) = true ∧
      isBlank summary = false ∧ storableText (strip summary) = true
  | .returned (.failure category code fingerprint retryAt) =>
    category = .transient ∧ retryAt = none ∨
      isBlank fingerprint = false ∧ isSafeFingerprint (strip fingerprint) = true ∧
        isBlank code = false ∧ isSafeFailureCode (strip code) = true ∧
        t.RetryAt category retryAt now
  | .returned (.cancellation _) => False
  | .other => True
  | .raised error => ∃ type, error = .exception type ∧ type ≠ "TaskLeaseRejectedError"

/-- The report of an answer is taken: the service's clock has a time zone, the log has room, and
the answer is good. -/
def Committable (t : Task) (call : Call) (answer : Option Answer) : Prop :=
  call.now.tzAware = true ∧ storableInt ((t.events.length + 1 : Nat) : Int) = true ∧
    ∀ given, answer = some given → given.Reportable t call.now

theorem committable_none : Committable t call none ↔
    call.now.tzAware = true ∧ storableInt ((t.events.length + 1 : Nat) : Int) = true := by
  simp [Committable]

theorem committable_some {answer : Answer} : Committable t call (some answer) ↔
    call.now.tzAware = true ∧ storableInt ((t.events.length + 1 : Nat) : Int) = true ∧
      answer.Reportable t call.now := by
  simp [Committable]

theorem committable_of_reportable {answer : Answer} (hgood : answer.Reportable t call.now) :
    Committable t call (some answer) ↔
      call.now.tzAware = true ∧ storableInt ((t.events.length + 1 : Nat) : Int) = true := by
  rw [committable_some]
  constructor
  · intro h
    exact ⟨h.1, h.2.1⟩
  · intro h
    exact ⟨h.1, h.2, hgood⟩

/-- The worker commits what it takes the answer for. -/
theorem finish_of_answer {answer : Answer} (hanswer : p.executor = some answer)
    (hlease : answer ≠ .raised (.exception "TaskLeaseRejectedError")) :
    finish p a s =
      (do let outcome ← lift (outcomeOf answer); commitOutcome a p.finished outcome) s := by
  unfold TaskWorker.finish
  simp only [hanswer, if_neg hlease]

theorem settles_of_outcome {answer : Answer} {outcome : TaskExecutionOutcome}
    (hanswer : p.executor = some answer)
    (hlease : answer ≠ .raised (.exception "TaskLeaseRejectedError"))
    (houtcome : outcomeOf answer = .ok outcome) :
    Settles (finish p a) s ↔ Settles (commitOutcome a p.finished outcome) s := by
  have hrun : finish p a s = commitOutcome a p.finished outcome s := by
    rw [finish_of_answer hanswer hlease]
    exact bind_of_ok (lift_ok.2 ⟨houtcome, rfl⟩)
  unfold Settles
  rw [hrun]

theorem not_settles_of_error {m : WorkerM WorkerPollResult} {e : PollError}
    (h : m s = .error e s') : ¬Settles m s := by
  rintro ⟨result, s'', hrun, -⟩
  rw [h] at hrun
  cases hrun

theorem not_settles_rejected {m : WorkerM WorkerPollResult} {errorCode : Option String}
    (h : m s = .ok { status := .rejected, errorCode } s') : ¬Settles m s := by
  rintro ⟨result, s'', hrun, -, hagrees⟩
  rw [h] at hrun
  cases hrun
  exact hagrees

/-- A cancellation nobody asked for is not taken. -/
theorem cancellation_not_settles (hrunning : s.task.status = .running) :
    ¬Settles (commitOutcome a call (.cancellation fingerprint)) s := by
  rintro ⟨result, s', hrun, -, hagrees⟩
  rcases reporting_ok.1 hrun with ⟨h, -⟩ | ⟨e, -, rfl⟩
  · rcases saved_ok.1 (transaction_ok.1 h).1 with ⟨t, ht, -⟩
    have heffect := (confirmCancel_effect ht).1
    cases heffect with
    | confirmAgain hs => exact absurd (hrunning.symm.trans hs) (by decide)
    | confirm hs => exact absurd (hrunning.symm.trans hs) (by decide)
  · exact hagrees

/-- **Which answers settle the task**, once its attempt is held and nobody asked to cancel. -/
theorem finish_settles (h : Reachable Submitted Serves s) (hfit : s.task.fits = true)
    (hn : s.task.Names a.id k b) (hrunning : s.task.status = .running)
    (hholds : b.Holds a.leaseToken p.finished.now) :
    Settles (finish p a) s ↔ Committable s.task p.finished p.executor := by
  have hown : ∀ code fingerprint, isBlank fingerprint = false →
      isSafeFingerprint (strip fingerprint) = true → isBlank code = false →
      isSafeFailureCode (strip code) = true →
      (Settles (finishFailure a .permanent code fingerprint none p.finished) s ↔
        p.finished.now.tzAware = true ∧
          storableInt ((s.task.events.length + 1 : Nat) : Int) = true) :=
    fun _ _ => ownFailure_settles h hfit hn hrunning hholds
  cases hanswer : p.executor with
  | none =>
    have hfinish : finish p a = finishFailure a .permanent "EXECUTOR_UNAVAILABLE"
        "executor-unavailable" none p.finished := by
      unfold TaskWorker.finish
      rw [hanswer]
    rw [hfinish, committable_none]
    exact hown _ _ (by decide) (by decide) (by decide) (by decide)
  | some answer =>
    by_cases hlease : answer = .raised (.exception "TaskLeaseRejectedError")
    · have hrejected : finish p a s =
          .ok { status := .rejected, errorCode := some "LEASE_REJECTED" } s := by
        unfold TaskWorker.finish
        simp only [hanswer, if_pos hlease]
        rfl
      rw [committable_some, hlease]
      apply iff_of_false (not_settles_rejected hrejected)
      rintro ⟨-, -, type, htype, hne⟩
      cases htype
      exact hne rfl
    · cases answer with
      | other =>
        have hgood : Answer.other.Reportable s.task p.finished.now := trivial
        rw [settles_of_outcome hanswer hlease rfl, committable_of_reportable hgood]
        exact hown _ _ (by decide) (by decide) (by decide) (by decide)
      | raised error =>
        cases error with
        | exception type =>
          have hgood : (Answer.raised (.exception type)).Reportable s.task p.finished.now :=
            ⟨type, rfl, fun htype => hlease (by rw [htype])⟩
          rw [settles_of_outcome hanswer hlease rfl, committable_of_reportable hgood]
          exact hown _ _ (by decide) (by decide) (by decide) (by decide)
        | cancelledError | generatorExit | other =>
          have hraise : finish p a s = .error _ s :=
            (finish_of_answer hanswer hlease).trans (bind_of_error rfl)
          rw [committable_some]
          apply iff_of_false (not_settles_of_error hraise)
          rintro ⟨-, -, type, htype, -⟩
          cases htype
      | returned outcome =>
        cases outcome with
        | success fingerprint summary =>
          rw [settles_of_outcome hanswer hlease rfl, committable_some,
            success_settles h hfit hn hrunning hholds]
          constructor
          · rintro ⟨⟨hz, hfp, hsafe, hsummary⟩, htext, hroom⟩
            exact ⟨hz, hroom, hfp, hsafe, hsummary, htext⟩
          · rintro ⟨hz, hroom, hfp, hsafe, hsummary, htext⟩
            exact ⟨⟨hz, hfp, hsafe, hsummary⟩, htext, hroom⟩
        | cancellation fingerprint =>
          rw [settles_of_outcome hanswer hlease rfl, committable_some]
          exact iff_of_false (cancellation_not_settles hrunning) fun hgood => hgood.2.2
        | failure category code fingerprint retryAt =>
          by_cases hschedule : category = .transient ∧ retryAt = none
          · rcases hschedule with ⟨rfl, rfl⟩
            have hgood : (Answer.returned (.failure .transient code fingerprint none)).Reportable
                s.task p.finished.now := Or.inl ⟨rfl, rfl⟩
            rw [settles_of_outcome hanswer hlease rfl, committable_of_reportable hgood]
            exact hown _ _ (by decide) (by decide) (by decide) (by decide)
          · have houtcome : outcomeOf (.returned (.failure category code fingerprint retryAt)) =
                .ok (.failure category code fingerprint retryAt) := by
              cases category <;> cases retryAt <;> first | rfl | exact absurd ⟨rfl, rfl⟩ hschedule
            have hfinish : Settles (finishFailure a category code fingerprint retryAt p.finished) s
                ↔ _ := finishFailure_settles h hfit hn hrunning hholds
            rw [settles_of_outcome hanswer hlease houtcome, committable_some]
            refine hfinish.trans ?_
            constructor
            · rintro ⟨⟨hz, hgood⟩, hroom⟩
              exact ⟨hz, hroom, Or.inr hgood⟩
            · rintro ⟨hz, hroom, hgood⟩
              exact ⟨⟨hz, hgood.resolve_left hschedule⟩, hroom⟩

/-! ## The claim -/

theorem claimNext_ok : claimNext p s = .ok (some a) s₁ ↔ s.task.status = .queued ∧
    s.task.availableAt.instant ≤ p.now.instant ∧ ∃ grant, p.grant = .ok grant ∧
      transaction (TaskLifecycleService.claim p.workerId p.claimId grant.leaseToken
        grant.leaseExpiresAt p.claimed) s = .ok a s₁ := by
  simp only [claimNext, bind_ok, get_ok, exists_eq_left, exists_and_left, and_assoc]
  split_ifs with hdue
  · simp only [bind_ok, lift_ok, pure_ok, Option.some.injEq, exists_eq_left, exists_and_left,
      and_assoc]
    constructor
    · rintro ⟨grant, hgrant, _, _, hclaim, rfl, rfl⟩
      exact ⟨hdue.1, hdue.2, grant, hgrant, hclaim⟩
    · rintro ⟨-, -, grant, hgrant, hclaim⟩
      exact ⟨grant, hgrant, a, s₁, hclaim, rfl, rfl⟩
  · simp only [pure_ok, reduceCtorEq, false_and, false_iff]
    rintro ⟨hq, hat, -⟩
    exact hdue ⟨hq, hat⟩

theorem claim_grants {workerId claimId leaseToken : String} {leaseExpiresAt : DateTime}
    (h : Task.claim workerId claimId leaseToken leaseExpiresAt call t = .ok a t') :
    t'.attempts = t.attempts ++ [a] ∧ isBlank a.leaseToken = false ∧
      a.leaseToken = strip a.leaseToken := by
  simp only [Task.claim, bind_ok, exists_unit, lift_ok, requireUtc_ok, Option.some.injEq, get_ok,
    check_ok, modify_ok, appendEvent_ok, validateInvariants_ok, pure_ok, exists_eq_left,
    exists_and_left, and_assoc] at h
  rcases h with ⟨_, rfl, -, -, -, -, a₂, hmake, -, _, ⟨e, -, rfl⟩, -, rfl, rfl⟩
  rcases (TaskAttempt.make_ok rfl).1 hmake with ⟨-, -, -, hl, -, -, -, -, rfl⟩
  exact ⟨rfl, isBlank_strip.trans hl, strip_strip.symm⟩

/-- The attempt that a claim answers with is a new one at the end, or was settled before. -/
theorem claimed_cases (h : Reachable Submitted Serves s) (hclaim : claimNext p s = .ok (some a) s₁) :
    a ∈ s₁.task.attempts ∧ ∀ b ∈ s₁.task.attempts, b.isActive →
      b = a ∧ isBlank a.leaseToken = false ∧ a.leaseToken = strip a.leaseToken := by
  rcases claimNext_ok.1 hclaim with ⟨hq, -, grant, -, hgrant⟩
  have hsettled : ∀ b ∈ s.task.attempts, ¬b.isActive :=
    settled_of_not_live (healthy_of_reachable (task_reachable h)).sound
      (by simp [hq, TaskStatus.Live])
  rcases (claim_ok.1 (transaction_ok.1 hgrant).1).2.2 with ⟨hfind, -, -, rfl⟩ | ⟨-, t, ht, rfl⟩
  · refine ⟨List.mem_of_find?_eq_some hfind, ?_⟩
    intro b hb hactive
    exact absurd hactive (hsettled b hb)
  · rcases claim_grants ht with ⟨hattempts, hgiven, htoken⟩
    rw [hattempts]
    refine ⟨List.mem_append_right _ (List.mem_singleton_self a), ?_⟩
    intro b hb hactive
    rcases List.mem_append.1 hb with hb | hb
    · exact absurd hactive (hsettled b hb)
    · exact ⟨List.mem_singleton.1 hb, hgiven, htoken⟩

/-- A live attempt under the claimed id holds the token that was granted. -/
theorem held_of_claimed (h : Reachable Submitted Serves s)
    (hclaim : claimNext p s = .ok (some a) s₁) {rs : List Request} {s₂ : Record}
    (hrs : Steps Serves s₁ rs s₂) (hn : s₂.task.Names a.id k b) (hactive : b.isActive)
    {now : DateTime} (hlease : now.instant < b.leaseExpiresAt.instant) :
    b.Holds a.leaseToken now := by
  rcases claimed_cases h hclaim with ⟨hmem, honly⟩
  -- the id named the same position when the claim returned
  have hnamed : ∃ i, s₁.task.findAttempt a.id = .ok i := by
    simp only [findAttempt_ok]
    apply Option.isSome_iff_exists.1
    rw [List.findIdx?_isSome, List.any_eq_true]
    exact ⟨a.id, List.mem_map_of_mem hmem, decide_eq_true rfl⟩
  rcases hnamed with ⟨i, hi⟩
  have hids := columns_of_steps (f := TaskAttempt.id) (fun _ _ h => h.id) hrs
  obtain rfl : k = i := Except.ok.inj (hn.1.symm.trans (findAttempt_extended hids hi))
  have hlt : k < s₁.task.attempts.length := by
    have hlt := List.findIdx?_eq_some_iff_findIdx_eq.1 (findAttempt_ok.1 hi)
    simpa using hlt.1
  have hat : s₁.task.attempts[k]? = some s₁.task.attempts[k] := List.getElem?_eq_getElem hlt
  -- it was live then, or it would be settled now
  have hlive : (s₁.task.attempts[k]).isActive := by
    by_contra hsettled
    have hsame := hn.2.symm.trans (settled_of_steps hrs hat hsettled)
    exact hsettled (Option.some.inj hsame ▸ hactive)
  rcases honly _ (List.getElem_mem hlt) hlive with ⟨heq, hgiven, htoken⟩
  have htokens := columns_of_steps (f := TaskAttempt.leaseToken) (fun _ _ h => h.leaseToken) hrs
  have hsame : b.leaseToken = a.leaseToken := by
    rcases htokens with ⟨rest, hrest⟩
    have hlt' : k < (s₁.task.attempts.map TaskAttempt.leaseToken).length := by
      rwa [List.length_map]
    have hcolumn := congrArg (fun l => l[k]?) hrest
    simp only [List.getElem?_append_left hlt', List.getElem?_map, hat, hn.2, Option.map_some,
      Option.some.injEq, heq] at hcolumn
    exact hcolumn.symm
  exact ⟨hgiven, hsame.trans htoken, hactive, hlease⟩

/-! ## One poll -/

theorem reachable_of_claimNext (h : Reachable Submitted Serves s)
    (hclaim : claimNext p s = .ok (some a) s₁) :
    Reachable Submitted Serves s₁ ∧ s₁.task.fits = true := by
  rcases claimNext_ok.1 hclaim with ⟨-, -, grant, -, hgrant⟩
  rcases transaction_ok.1 hgrant with ⟨hserved, hfits⟩
  let r : Request := ⟨.claim p.workerId p.claimId grant.leaseToken grant.leaseExpiresAt, p.claimed⟩
  have hhandle : TaskLifecycleService.handle r s = .ok () s₁ := discard_ok.2 ⟨a, hserved⟩
  have hserves : Serves s r s₁ := by
    unfold Serves respond
    rw [hhandle]
  exact ⟨h.next hserves, hfits⟩

theorem pollOnce_of_claimed (hclaim : claimNext p s = .ok (some a) s₁) :
    pollOnce p others s = finish p a (others.foldl serve s₁) :=
  bind_of_ok hclaim

instance decidableEqResult {ε σ α : Type} [DecidableEq ε] [DecidableEq σ] [DecidableEq α] :
    DecidableEq (EStateM.Result ε σ α)
  | .ok a s, .ok b t => decidable_of_iff (a = b ∧ s = t) (by simp)
  | .error e s, .error f t => decidable_of_iff (e = f ∧ s = t) (by simp)
  | .ok _ _, .error _ _ => .isFalse (by simp)
  | .error _ _, .ok _ _ => .isFalse (by simp)

/-- A poll of the new task whose executor answers with a success under this summary. -/
def pollWith (summary : String) : Poll where
  workerId := "w1"
  now := ⟨1, true⟩
  grant := .ok ⟨"tok1", ⟨5, true⟩⟩
  claimId := "c1"
  claimed := callAt 1
  executor := some (.returned (.success "done" summary))
  finished := callAt 2

def claimedAttempt : TaskAttempt where
  taskId := 7
  number := 1
  workerId := "w1"
  claimId := "c1"
  leaseToken := "tok1"
  leaseExpiresAt := ⟨5, true⟩
  id := 11
  createdAt := ⟨1, true⟩

theorem newRecord_opened : Reachable Opened Commits newRecord :=
  .start ⟨⟨newTask_created, rfl⟩, by decide +kernel⟩

theorem claimNext_pollWith (summary : String) : claimNext (pollWith summary) newRecord =
    .ok (some claimedAttempt) claimedRecord :=
  (by decide +kernel : claimNext (pollWith "") newRecord = .ok (some claimedAttempt) claimedRecord)

end GoAgent.Tasks
