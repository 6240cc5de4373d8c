import GoAgent.Tasks.Attempt

/-!
# Tasks

The aggregate: a task owns its attempts, in the order they were claimed, and an append-only event
log. A command that raises keeps the writes it has already made, so the state a rejected command
leaves is part of the model; `checkInvariants` is the check the commands end with.

The code compares attempts as objects, so the model names an attempt by its position.

`Call` is what every command receives from outside: the clock reading and the ids drawn for the
attempt and the event it may create.
-/

namespace GoAgent.Tasks

open GoAgent.Foundation

structure Task where
  taskType : String
  ownerSubject : String
  idempotencyKey : String
  inputFingerprint : String
  maxAttempts : Nat
  availableAt : DateTime
  id : UUID
  status : TaskStatus := .queued
  displayMetadata : List (String × String) := []
  allowManualRetry : Bool := true
  createdAt : DateTime
  updatedAt : DateTime
  cancelRequestedAt : Option DateTime := none
  resultSummary : Option String := none
  resultFingerprint : Option String := none
  failureCode : Option String := none
  attempts : List TaskAttempt := []
  events : List TaskEvent := []
  deriving DecidableEq

structure Call where
  now : DateTime
  attemptUuid : UUID
  eventUuid : UUID

abbrev TaskM := EStateM TaskError Task

/-- `{RUNNING, CANCEL_REQUESTED}`, the statuses with an active attempt. -/
def TaskStatus.Live (s : TaskStatus) : Prop := s = .running ∨ s = .cancelRequested

instance (s : TaskStatus) : Decidable s.Live := by unfold TaskStatus.Live; infer_instance

/-- `_validate_invariants` -/
def checkInvariants (t : Task) : Except TaskError Unit := do
  require (∀ a ∈ t.attempts, a.taskId = t.id) (.value "任务不能包含其他任务的尝试。")
  require (t.attempts.map TaskAttempt.number = List.range' 1 t.attempts.length)
    (.value "尝试序号必须从一开始连续递增。")
  require (∀ e ∈ t.events, e.taskId = t.id) (.value "任务不能包含其他任务的事件。")
  require (t.events.map TaskEvent.sequence = List.range' 1 t.events.length)
    (.value "事件顺序必须从一开始连续递增。")
  require (t.events.map TaskEvent.transitionId).Nodup (.value "同一任务的转换标识必须唯一。")
  let activeCount := t.attempts.countP fun a => a.isActive
  if t.status.Live then
    require (activeCount = 1) (.value "运行中或取消请求中的任务必须有一个活动尝试。")
  else
    require (activeCount = 0) (.value "非运行任务不能保留活动尝试。")
  require (t.status = .succeeded → t.resultSummary.getD "" ≠ "")
    (.value "成功任务必须包含安全结果摘要。")

/-- `_validate_invariants`, as a method. -/
def validateInvariants : TaskM Unit := do
  let t ← get
  lift (checkInvariants t)

namespace Task

/-! ## Reading a task -/

/-- The positions of the active attempts. -/
def activePositions (t : Task) : List Nat :=
  (t.attempts.zipIdx.filter fun p => p.1.isActive).map Prod.snd

/-- `active_attempt`, by position. -/
def activeAttempt (t : Task) : Except TaskError (Option Nat) :=
  if 1 < t.activePositions.length then
    .error (.stateTransition "一个任务不能同时存在多个活动尝试。")
  else pure t.activePositions.head?

/-- `find_attempt`, by position. -/
def findAttempt (t : Task) (attemptId : UUID) : Except TaskError Nat :=
  match t.attempts.findIdx? fun a => a.id = attemptId with
  | some k => pure k
  | none => .error (.stateTransition "尝试不属于当前任务。")

/-- The attempt at a position. -/
def attempt (t : Task) (k : Nat) : Except TaskError TaskAttempt :=
  match t.attempts[k]? with
  | some a => pure a
  | none => .error (.stateTransition "尝试不属于当前任务。")

def findAttemptByClaim (t : Task) (workerId claimId : String) :
    Except TaskError (Option TaskAttempt) := do
  let worker ← requireText workerId "执行者标识"
  let claim ← requireText claimId "领取标识"
  pure (t.attempts.find? fun a => a.workerId = worker ∧ a.claimId = claim)

/-- The event logged next. -/
def nextEvent (t : Task) (call : Call) (transitionId : String) (eventType : TaskEventType)
    (metadata : Metadata) : TaskEvent where
  taskId := t.id
  sequence := t.events.length + 1
  transitionId := transitionId
  eventType := eventType
  metadata := metadata
  createdAt := call.now
  id := call.eventUuid

end Task

/-- Call a method of the attempt at a position. -/
def onAttempt {α : Type} (k : Nat) (method : AttemptM α) : TaskM α := fun t =>
  match t.attempts[k]? with
  | none => .error (.stateTransition "尝试不属于当前任务。") t
  | some a =>
    match method a with
    | .ok r a => .ok r { t with attempts := t.attempts.set k a }
    | .error e a => .error e { t with attempts := t.attempts.set k a }

/-- `_append_event` -/
def appendEvent (call : Call) (transitionId : String) (eventType : TaskEventType)
    (metadata : Metadata) : TaskM Unit := do
  let t ← get
  let transitionId ← lift (requireText transitionId "转换标识")
  check (∀ e ∈ t.events, e.transitionId ≠ transitionId)
    (.idempotencyConflict "同一转换不能重复写入事件。")
  let event ← lift (TaskEvent.make (t.nextEvent call transitionId eventType metadata))
  modify fun t => { t with events := t.events ++ [event] }

/-- `_assert_active_lease` -/
def assertActiveLease (k : Nat) (leaseToken : String) (call : Call) : TaskM Unit := do
  let t ← get
  let active ← lift t.activeAttempt
  check (active = some k) (.leaseRejected "尝试不是当前活动尝试。")
  onAttempt k (TaskAttempt.assertValidLease leaseToken call.now)

/-- `_assert_same_terminal_result` -/
def assertSameTerminalResult (a : TaskAttempt) (leaseToken resultFingerprint : String) :
    TaskM Unit := do
  let token ← lift (requireText leaseToken "租约令牌")
  check (a.leaseToken = token) (.leaseRejected "租约令牌不匹配。")
  check (a.resultFingerprint = some resultFingerprint)
    (.idempotencyConflict "同一终态提交使用了不同的结果指纹。")

/-- `str(uuid)`: a text that tells the ids apart. -/
def uuidText (id : UUID) : String := toString id

namespace Task

/-! ## Commands -/

/-- `Task.create` -/
def create (taskType ownerSubject idempotencyKey inputFingerprint : String) (maxAttempts : Int)
    (displayMetadata : List (String × String)) (allowManualRetry : Bool) (taskId : UUID)
    (call : Call) : Except TaskError Task := do
  let now ← requireUtc call.now "创建时间"
  let taskType ← requireText taskType "任务类型"
  let ownerSubject ← requireText ownerSubject "任务归属主体"
  let idempotencyKey ← requireText idempotencyKey "幂等键"
  let inputFingerprint ← requireText inputFingerprint "输入指纹"
  require (0 < maxAttempts) (.value "最大尝试次数必须是正整数。")
  require (∀ p ∈ displayMetadata, isBlank p.1 = false) (.value "展示元数据必须是字符串键值对。")
  let t : Task :=
    { taskType, ownerSubject, idempotencyKey, inputFingerprint, maxAttempts := maxAttempts.toNat,
      availableAt := now, id := taskId, displayMetadata, allowManualRetry, createdAt := now,
      updatedAt := now }
  checkInvariants t
  let transitionId ← requireText ("create:" ++ t.idempotencyKey) "转换标识"
  let event ← TaskEvent.make
    (t.nextEvent { call with now } transitionId .taskCreated [("task_type", .text t.taskType)])
  pure { t with events := [event] }

def claim (workerId claimId leaseToken : String) (leaseExpiresAt : DateTime) (call : Call) :
    TaskM TaskAttempt := do
  let now ← lift (requireUtc call.now "领取时间")
  let t ← get
  check (t.status = .queued) (.stateTransition "只有 queued 任务可以领取。")
  check (t.availableAt.instant ≤ now.instant) (.stateTransition "任务尚未到达可执行时间。")
  check (t.attempts.length < t.maxAttempts) (.stateTransition "任务已耗尽最大尝试次数。")
  let a ← lift (TaskAttempt.make
    { taskId := t.id, number := t.attempts.length + 1, workerId, claimId, leaseToken,
      leaseExpiresAt, id := call.attemptUuid, createdAt := now })
  modify fun t => { t with attempts := t.attempts ++ [a] }
  modify fun t => { t with status := .running }
  modify fun t => { t with updatedAt := now }
  appendEvent call ("claim:" ++ a.claimId) .taskClaimed
    [("attempt_number", .int a.number), ("claim_id", .text a.claimId),
      ("worker_id", .text a.workerId)]
  validateInvariants
  pure a

def renewLease (attemptId : UUID) (leaseToken : String) (renewalSequence : Int)
    (leaseExpiresAt : DateTime) (call : Call) : TaskM TaskAttempt := do
  let t ← get
  let k ← lift (t.findAttempt attemptId)
  let a ← lift (t.attempt k)
  check a.isActive (.leaseRejected "尝试不再持有有效租约。")
  check t.status.Live (.stateTransition "当前任务状态不能续租。")
  let active ← lift t.activeAttempt
  check (active = some k) (.leaseRejected "尝试不是当前活动尝试。")
  onAttempt k (TaskAttempt.renew leaseToken renewalSequence leaseExpiresAt call.now)
  let t ← get
  lift (t.attempt k)

def requestCancel (commandId : String) (call : Call) : TaskM Unit := do
  let now ← lift (requireUtc call.now "取消时间")
  let command ← lift (requireText commandId "取消命令标识")
  let t ← get
  if t.status = .queued ∨ t.status = .retryWait then
    modify fun t => { t with cancelRequestedAt := some now }
    modify fun t => { t with status := .cancelled }
    modify fun t => { t with updatedAt := now }
    appendEvent call ("cancel:" ++ command) .taskCancelled [("cancel_mode", .text "queued")]
  else if t.status = .running then
    modify fun t => { t with cancelRequestedAt := some now }
    modify fun t => { t with status := .cancelRequested }
    modify fun t => { t with updatedAt := now }
    appendEvent call ("cancel:" ++ command) .taskCancelRequested []
  else throw (.stateTransition "当前任务状态不能取消。")
  validateInvariants

def confirmCancel (attemptId : UUID) (leaseToken : String) (call : Call) : TaskM Unit := do
  let t ← get
  let k ← lift (t.findAttempt attemptId)
  let a ← lift (t.attempt k)
  if t.status = .cancelled ∧ a.status = .cancelled then
    let token ← lift (requireText leaseToken "租约令牌")
    check (a.leaseToken = token) (.leaseRejected "租约令牌不匹配。")
  else
    check a.isActive (.leaseRejected "尝试不再持有有效租约。")
    check (t.status = .cancelRequested) (.stateTransition "当前任务未请求取消。")
    assertActiveLease k leaseToken call
    let now ← lift (requireUtc call.now "取消确认时间")
    onAttempt k (TaskAttempt.finish .cancelled now none none none)
    modify fun t => { t with status := .cancelled }
    modify fun t => { t with updatedAt := now }
    appendEvent call ("cancelled:" ++ uuidText a.id) .taskCancelled
      [("attempt_number", .int a.number), ("cancel_mode", .text "confirmed")]
    validateInvariants

def complete (attemptId : UUID) (leaseToken resultFingerprint resultSummary : String)
    (call : Call) : TaskM Unit := do
  let t ← get
  let k ← lift (t.findAttempt attemptId)
  let a ← lift (t.attempt k)
  let fingerprint ← lift (requireSafeFingerprint resultFingerprint)
  if t.status = .succeeded ∧ a.status = .succeeded then
    assertSameTerminalResult a leaseToken fingerprint
  else
    check a.isActive (.leaseRejected "尝试不再持有有效租约。")
    check (t.status = .running) (.stateTransition "只有 running 任务可以提交成功结果。")
    assertActiveLease k leaseToken call
    let now ← lift (requireUtc call.now "完成时间")
    let summary ← lift (requireText resultSummary "结果摘要")
    onAttempt k (TaskAttempt.finish .succeeded now none none (some fingerprint))
    modify fun t => { t with status := .succeeded }
    modify fun t => { t with resultFingerprint := some fingerprint }
    modify fun t => { t with resultSummary := some summary }
    modify fun t => { t with failureCode := none }
    modify fun t => { t with updatedAt := now }
    appendEvent call ("succeeded:" ++ uuidText a.id ++ ":" ++ fingerprint) .taskSucceeded
      [("attempt_number", .int a.number), ("result_fingerprint", .text fingerprint)]
    validateInvariants

/-- The retry time of a retryable failure. -/
def retryTime (isRetryable : Bool) (retryAt : Option DateTime) (now : DateTime) :
    Except TaskError (Option DateTime) :=
  if isRetryable then do
    let time ← requireUtc retryAt "重试时间"
    require (now.instant ≤ time.instant) (.value "重试时间不能早于失败时间。")
    pure (some time)
  else pure none

def fail (attemptId : UUID) (leaseToken : String) (failureCategory : FailureCategory)
    (failureCode resultFingerprint : String) (retryAt : Option DateTime) (call : Call) :
    TaskM Unit := do
  let t ← get
  let k ← lift (t.findAttempt attemptId)
  let a ← lift (t.attempt k)
  let fingerprint ← lift (requireSafeFingerprint resultFingerprint)
  if (t.status = .retryWait ∨ t.status = .failed) ∧ a.status = .failed then
    assertSameTerminalResult a leaseToken fingerprint
  else
    check a.isActive (.leaseRejected "尝试不再持有有效租约。")
    check (t.status = .running) (.stateTransition "只有 running 任务可以提交失败结果。")
    assertActiveLease k leaseToken call
    let now ← lift (requireUtc call.now "失败时间")
    let code ← lift (requireSafeFailureCode failureCode)
    let retry ← lift (retryTime
      (failureCategory = .transient ∧ t.attempts.length < t.maxAttempts) retryAt now)
    onAttempt k (TaskAttempt.finish .failed now (some failureCategory) (some code)
      (some fingerprint))
    modify fun t => { t with failureCode := some code }
    modify fun t => { t with resultFingerprint := some fingerprint }
    modify fun t => { t with resultSummary := none }
    modify fun t => { t with updatedAt := now }
    let eventType ← match retry with
      | some time => do
        modify fun t => { t with status := .retryWait }
        modify fun t => { t with availableAt := time }
        pure TaskEventType.taskRetryScheduled
      | none => do
        modify fun t => { t with status := .failed }
        pure TaskEventType.taskFailed
    appendEvent call ("failed:" ++ uuidText a.id ++ ":" ++ fingerprint) eventType
      [("attempt_number", .int a.number), ("failure_category", .text failureCategory.value),
        ("failure_code", .text code)]
    validateInvariants

def requeueDue (commandId : String) (call : Call) : TaskM Unit := do
  let now ← lift (requireUtc call.now "重新入队时间")
  let t ← get
  check (t.status = .retryWait) (.stateTransition "只有 retry_wait 任务可以重新入队。")
  check (t.availableAt.instant ≤ now.instant) (.stateTransition "重试退避尚未到期。")
  modify fun t => { t with status := .queued }
  modify fun t => { t with availableAt := now }
  modify fun t => { t with updatedAt := now }
  let command ← lift (requireText commandId "重新入队命令标识")
  appendEvent call ("requeue:" ++ command) .taskRequeued []
  validateInvariants

def requestManualRetry (commandId : String) (call : Call) : TaskM Unit := do
  let now ← lift (requireUtc call.now "手动重试时间")
  let t ← get
  check (t.status = .failed) (.stateTransition "只有 failed 任务可以手动重试。")
  check (t.allowManualRetry = true ∧ t.attempts.length < t.maxAttempts)
    (.stateTransition "当前任务不允许手动重试。")
  modify fun t => { t with status := .queued }
  modify fun t => { t with availableAt := now }
  modify fun t => { t with failureCode := none }
  modify fun t => { t with resultFingerprint := none }
  modify fun t => { t with updatedAt := now }
  let command ← lift (requireText commandId "手动重试命令标识")
  appendEvent call ("manual-retry:" ++ command) .taskRetryRequested []
  validateInvariants

/-- The status a recovered task goes to, after the writes that go with it. -/
def recoverOutcome (retryAt : Option DateTime) (now : DateTime) : TaskM TaskStatus := do
  let t ← get
  if t.status = .cancelRequested then pure .cancelled
  else if t.maxAttempts ≤ t.attempts.length then
    modify fun t => { t with failureCode := some "LEASE_EXPIRED" }
    pure .failed
  else
    match retryAt with
    | some time =>
      let time ← lift (requireUtc time "恢复重试时间")
      if now.instant < time.instant then
        modify fun t => { t with availableAt := time }
        pure .retryWait
      else
        modify fun t => { t with availableAt := now }
        pure .queued
    | none =>
      modify fun t => { t with availableAt := now }
      pure .queued

def recoverExpiredAttempt (commandId : String) (retryAt : Option DateTime)
    (attemptId : Option UUID) (call : Call) : TaskM Unit := do
  let now ← lift (requireUtc call.now "恢复时间")
  let t ← get
  check t.status.Live (.stateTransition "当前任务状态不能恢复。")
  match ← lift t.activeAttempt with
  | none => throw (.stateTransition "当前任务没有过期 lease。")
  | some k =>
    let a ← lift (t.attempt k)
    check (a.leaseExpiresAt.instant ≤ now.instant) (.stateTransition "当前任务没有过期 lease。")
    check (∀ id, attemptId = some id → a.id = id) (.stateTransition "恢复候选已不再是当前活动尝试。")
    onAttempt k (TaskAttempt.finish .expired now (some .leaseExpired) (some "LEASE_EXPIRED") none)
    let outcome ← recoverOutcome retryAt now
    modify fun t => { t with status := outcome }
    modify fun t => { t with updatedAt := now }
    let command ← lift (requireText commandId "恢复命令标识")
    appendEvent call ("recovered:" ++ command) .taskRecovered
      [("attempt_number", .int a.number), ("outcome", .text outcome.value)]
    validateInvariants

end Task

/-- The lifecycle commands of a task. -/
inductive TaskCommand
  | claim (workerId claimId leaseToken : String) (leaseExpiresAt : DateTime)
  | renewLease (attemptId : UUID) (leaseToken : String) (renewalSequence : Int)
      (leaseExpiresAt : DateTime)
  | requestCancel (commandId : String)
  | confirmCancel (attemptId : UUID) (leaseToken : String)
  | complete (attemptId : UUID) (leaseToken resultFingerprint resultSummary : String)
  | fail (attemptId : UUID) (leaseToken : String) (failureCategory : FailureCategory)
      (failureCode resultFingerprint : String) (retryAt : Option DateTime)
  | requeueDue (commandId : String)
  | requestManualRetry (commandId : String)
  | recoverExpiredAttempt (commandId : String) (retryAt : Option DateTime)
      (attemptId : Option UUID)

/-- A command with what the call brings from outside. -/
structure Request where
  command : TaskCommand
  call : Call

/-- Issue a command to a task. -/
def Task.execute (r : Request) : TaskM Unit :=
  match r.command with
  | .claim workerId claimId leaseToken leaseExpiresAt =>
    discard (claim workerId claimId leaseToken leaseExpiresAt r.call)
  | .renewLease attemptId leaseToken renewalSequence leaseExpiresAt =>
    discard (renewLease attemptId leaseToken renewalSequence leaseExpiresAt r.call)
  | .requestCancel commandId => requestCancel commandId r.call
  | .confirmCancel attemptId leaseToken => confirmCancel attemptId leaseToken r.call
  | .complete attemptId leaseToken fingerprint summary =>
    complete attemptId leaseToken fingerprint summary r.call
  | .fail attemptId leaseToken category code fingerprint retryAt =>
    fail attemptId leaseToken category code fingerprint retryAt r.call
  | .requeueDue commandId => requeueDue commandId r.call
  | .requestManualRetry commandId => requestManualRetry commandId r.call
  | .recoverExpiredAttempt commandId retryAt attemptId =>
    recoverExpiredAttempt commandId retryAt attemptId r.call

end GoAgent.Tasks
