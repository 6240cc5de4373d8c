import GoAgent.Foundation.Postgres
import GoAgent.Foundation.Upsert
import GoAgent.Tasks.Replay
import GoAgent.Tasks.Service

/-!
# Storing a task

A task is stored in four tables; every statement of the repository filters by the id of the task,
so the rows of one task are a store of their own. The mapper turns a task into records and back, a
save updates some columns and inserts what is new, and the database checks its constraints at the
end of the transaction. What is read back passes the constructors again.

`Stores pg rows t` says that the rows are those of the task, in whatever order.

* `load_of_stores` — loading gives the task back, with its JSON objects as the columns keep them.
-/

namespace GoAgent.Tasks

open GoAgent.Foundation GoAgent.Tasks.Task

/-! ## The values of the enumerations -/

def AttemptStatus.value : AttemptStatus → String
  | .active => "active"
  | .succeeded => "succeeded"
  | .failed => "failed"
  | .cancelled => "cancelled"
  | .expired => "expired"

def TaskEventType.value : TaskEventType → String
  | .taskCreated => "TASK_CREATED"
  | .taskClaimed => "TASK_CLAIMED"
  | .taskCancelRequested => "TASK_CANCEL_REQUESTED"
  | .taskCancelled => "TASK_CANCELLED"
  | .taskSucceeded => "TASK_SUCCEEDED"
  | .taskFailed => "TASK_FAILED"
  | .taskRetryScheduled => "TASK_RETRY_SCHEDULED"
  | .taskRequeued => "TASK_REQUEUED"
  | .taskRetryRequested => "TASK_RETRY_REQUESTED"
  | .taskRecovered => "TASK_RECOVERED"

def taskStatuses : List TaskStatus :=
  [.queued, .running, .retryWait, .cancelRequested, .succeeded, .failed, .cancelled]

def attemptStatuses : List AttemptStatus := [.active, .succeeded, .failed, .cancelled, .expired]

def failureCategories : List FailureCategory := [.transient, .permanent, .leaseExpired]

def taskEventTypes : List TaskEventType :=
  [.taskCreated, .taskClaimed, .taskCancelRequested, .taskCancelled, .taskSucceeded, .taskFailed,
    .taskRetryScheduled, .taskRequeued, .taskRetryRequested, .taskRecovered]

/-- What the repository may raise: the database refuses, a list is empty, a value is no member of an
enumeration, or a constructor refuses what was read. -/
inductive RepositoryError
  | rejected
  | index
  | value (given : String)
  | domain (error : TaskError)
  deriving DecidableEq

/-- `Enum(value)` over the members of an enumeration. -/
def memberOf {α : Type} (value : α → String) (members : List α) (given : String) :
    Except RepositoryError α :=
  match members.find? fun a => value a = given with
  | some a => pure a
  | none => .error (.value given)

@[simp] theorem memberOf_status (s : TaskStatus) :
    memberOf TaskStatus.value taskStatuses s.value = .ok s := by
  cases s <;> decide

@[simp] theorem memberOf_attemptStatus (s : AttemptStatus) :
    memberOf AttemptStatus.value attemptStatuses s.value = .ok s := by
  cases s <;> decide

@[simp] theorem memberOf_category (c : FailureCategory) :
    memberOf FailureCategory.value failureCategories c.value = .ok c := by
  cases c <;> decide

@[simp] theorem memberOf_eventType (ty : TaskEventType) :
    memberOf TaskEventType.value taskEventTypes ty.value = .ok ty := by
  cases ty <;> decide

/-! ## Records -/

/-- A row of `task`; a time is the instant its column holds. -/
structure TaskRecord where
  id : UUID
  taskType : String
  ownerSubject : String
  idempotencyKey : String
  inputFingerprint : String
  maxAttempts : Nat
  availableAt : Int
  status : String
  displayMetadata : List (String × String)
  allowManualRetry : Bool
  createdAt : Int
  updatedAt : Int
  cancelRequestedAt : Option Int
  resultSummary : Option String
  resultFingerprint : Option String
  failureCode : Option String
  deriving DecidableEq

structure TaskAttemptRecord where
  id : UUID
  taskId : UUID
  number : Nat
  workerId : String
  claimId : String
  leaseToken : String
  leaseExpiresAt : Int
  status : String
  renewalSequence : Int
  createdAt : Int
  finishedAt : Option Int
  failureCategory : Option String
  failureCode : Option String
  resultFingerprint : Option String
  deriving DecidableEq

structure TaskEventRecord where
  id : UUID
  taskId : UUID
  sequence : Nat
  transitionId : String
  eventType : String
  eventMetadata : Metadata
  createdAt : Int
  deriving DecidableEq

/-- The rows of one task. -/
structure TaskRows where
  task : TaskRecord
  attempts : List TaskAttemptRecord
  events : List TaskEventRecord
  receipts : List TaskCommandReceipt
  deriving DecidableEq

/-! ## The mapper -/

def taskToRecord (pg : Postgres) (task : Task) : TaskRecord where
  id := task.id
  taskType := task.taskType
  ownerSubject := task.ownerSubject
  idempotencyKey := task.idempotencyKey
  inputFingerprint := task.inputFingerprint
  maxAttempts := task.maxAttempts
  availableAt := task.availableAt.instant
  status := task.status.value
  displayMetadata := pg.jsonb task.displayMetadata
  allowManualRetry := task.allowManualRetry
  createdAt := task.createdAt.instant
  updatedAt := task.updatedAt.instant
  cancelRequestedAt := task.cancelRequestedAt.map DateTime.instant
  resultSummary := task.resultSummary
  resultFingerprint := task.resultFingerprint
  failureCode := task.failureCode

def updateTaskRecord (pg : Postgres) (record : TaskRecord) (task : Task) : TaskRecord :=
  { record with
    status := task.status.value
    availableAt := task.availableAt.instant
    displayMetadata := pg.jsonb task.displayMetadata
    allowManualRetry := task.allowManualRetry
    updatedAt := task.updatedAt.instant
    cancelRequestedAt := task.cancelRequestedAt.map DateTime.instant
    resultSummary := task.resultSummary
    resultFingerprint := task.resultFingerprint
    failureCode := task.failureCode }

def attemptToRecord (attempt : TaskAttempt) : TaskAttemptRecord where
  id := attempt.id
  taskId := attempt.taskId
  number := attempt.number
  workerId := attempt.workerId
  claimId := attempt.claimId
  leaseToken := attempt.leaseToken
  leaseExpiresAt := attempt.leaseExpiresAt.instant
  status := attempt.status.value
  renewalSequence := attempt.renewalSequence
  createdAt := attempt.createdAt.instant
  finishedAt := attempt.finishedAt.map DateTime.instant
  failureCategory := attempt.failureCategory.map FailureCategory.value
  failureCode := attempt.failureCode
  resultFingerprint := attempt.resultFingerprint

def updateAttemptRecord (record : TaskAttemptRecord) (attempt : TaskAttempt) : TaskAttemptRecord :=
  { record with
    leaseExpiresAt := attempt.leaseExpiresAt.instant
    status := attempt.status.value
    renewalSequence := attempt.renewalSequence
    finishedAt := attempt.finishedAt.map DateTime.instant
    failureCategory := attempt.failureCategory.map FailureCategory.value
    failureCode := attempt.failureCode
    resultFingerprint := attempt.resultFingerprint }

def eventToRecord (pg : Postgres) (event : TaskEvent) : TaskEventRecord where
  id := event.id
  taskId := event.taskId
  sequence := event.sequence
  transitionId := event.transitionId
  eventType := event.eventType.value
  eventMetadata := pg.jsonb event.metadata
  createdAt := event.createdAt.instant

/-- A time read from a `TIMESTAMPTZ` column. -/
def timestamp (instant : Int) : DateTime := ⟨instant, true⟩

def raises {α : Type} (x : Except TaskError α) : Except RepositoryError α :=
  match x with
  | .ok a => .ok a
  | .error e => .error (.domain e)

/-- `FailureCategory(value) if value else None` -/
def categoryOf : Option String → Except RepositoryError (Option FailureCategory)
  | none => pure none
  | some "" => pure none
  | some given => do
    let category ← memberOf FailureCategory.value failureCategories given
    pure (some category)

def attemptFromRecord (record : TaskAttemptRecord) : Except RepositoryError TaskAttempt := do
  let status ← memberOf AttemptStatus.value attemptStatuses record.status
  let failureCategory ← categoryOf record.failureCategory
  raises (TaskAttempt.make
    { taskId := record.taskId, number := record.number, workerId := record.workerId,
      claimId := record.claimId, leaseToken := record.leaseToken,
      leaseExpiresAt := timestamp record.leaseExpiresAt, id := record.id, status,
      renewalSequence := record.renewalSequence, createdAt := timestamp record.createdAt,
      finishedAt := record.finishedAt.map timestamp, failureCategory,
      failureCode := record.failureCode, resultFingerprint := record.resultFingerprint })

def eventFromRecord (record : TaskEventRecord) : Except RepositoryError TaskEvent := do
  let eventType ← memberOf TaskEventType.value taskEventTypes record.eventType
  raises (TaskEvent.make
    { taskId := record.taskId, sequence := record.sequence, transitionId := record.transitionId,
      eventType, metadata := record.eventMetadata, createdAt := timestamp record.createdAt,
      id := record.id })

/-- `Task(...)` -/
def Task.make (t : Task) : Except TaskError Task := do
  let taskType ← requireText t.taskType "任务类型"
  let ownerSubject ← requireText t.ownerSubject "任务归属主体"
  let idempotencyKey ← requireText t.idempotencyKey "幂等键"
  let inputFingerprint ← requireText t.inputFingerprint "输入指纹"
  require (0 < t.maxAttempts) (.value "最大尝试次数必须是正整数。")
  let availableAt ← requireUtc t.availableAt "可执行时间"
  let createdAt ← requireUtc t.createdAt "任务创建时间"
  let updatedAt ← requireUtc t.updatedAt "任务更新时间"
  require (∀ p ∈ t.displayMetadata, isBlank p.1 = false) (.value "展示元数据必须是字符串键值对。")
  checkInvariants t
  pure { t with taskType, ownerSubject, idempotencyKey, inputFingerprint, availableAt, createdAt,
                updatedAt }

def taskFromRecords (record : TaskRecord) (attempts : List TaskAttemptRecord)
    (events : List TaskEventRecord) : Except RepositoryError Task := do
  let status ← memberOf TaskStatus.value taskStatuses record.status
  let attempts ← mapEach attemptFromRecord attempts
  let events ← mapEach eventFromRecord events
  raises (Task.make
    { taskType := record.taskType, ownerSubject := record.ownerSubject,
      idempotencyKey := record.idempotencyKey, inputFingerprint := record.inputFingerprint,
      maxAttempts := record.maxAttempts, availableAt := timestamp record.availableAt,
      id := record.id, status, displayMetadata := record.displayMetadata,
      allowManualRetry := record.allowManualRetry, createdAt := timestamp record.createdAt,
      updatedAt := timestamp record.updatedAt,
      cancelRequestedAt := record.cancelRequestedAt.map timestamp,
      resultSummary := record.resultSummary, resultFingerprint := record.resultFingerprint,
      failureCode := record.failureCode, attempts, events })

/-! ## Constraints -/

def TaskRecord.Accepted (r : TaskRecord) : Prop :=
  (∀ s ∈ [r.taskType, r.ownerSubject, r.idempotencyKey, r.inputFingerprint],
    storableText s = true ∧ notBlank s = true) ∧
  storableInt r.maxAttempts = true ∧ 0 < r.maxAttempts ∧
  r.status ∈ taskStatuses.map TaskStatus.value ∧
  (∀ p ∈ r.displayMetadata, storableText p.1 = true ∧ storableText p.2 = true) ∧
  ∀ s ∈ r.resultSummary.toList ++ r.resultFingerprint.toList ++ r.failureCode.toList,
    storableText s = true

def TaskAttemptRecord.Accepted (r : TaskAttemptRecord) : Prop :=
  storableInt r.number = true ∧ 0 < r.number ∧
  (∀ s ∈ [r.workerId, r.claimId, r.leaseToken], storableText s = true ∧ notBlank s = true) ∧
  r.createdAt < r.leaseExpiresAt ∧ r.status ∈ attemptStatuses.map AttemptStatus.value ∧
  storableInt r.renewalSequence = true ∧ 0 ≤ r.renewalSequence ∧
  (∀ s ∈ r.failureCategory, s ∈ failureCategories.map FailureCategory.value) ∧
  ∀ s ∈ r.failureCode.toList ++ r.resultFingerprint.toList, storableText s = true

def TaskEventRecord.Accepted (r : TaskEventRecord) : Prop :=
  storableInt r.sequence = true ∧ 0 < r.sequence ∧ storableText r.transitionId = true ∧
  notBlank r.transitionId = true ∧ r.eventType ∈ taskEventTypes.map TaskEventType.value ∧
  ∀ p ∈ r.eventMetadata, storableText p.1 = true ∧ ∀ s, p.2 = .text s → storableText s = true

def TaskCommandReceipt.Accepted (r : TaskCommandReceipt) : Prop :=
  ∀ s ∈ [r.commandType, r.commandId], storableText s = true ∧ notBlank s = true

/-- Every row passes its checks, the unique columns are unique, and one attempt at most is
active. -/
structure TaskRows.Accepted (rows : TaskRows) : Prop where
  task : rows.task.Accepted
  attempts : ∀ r ∈ rows.attempts, r.Accepted
  events : ∀ r ∈ rows.events, r.Accepted
  receipts : ∀ r ∈ rows.receipts, r.Accepted
  attemptPks : (rows.attempts.map TaskAttemptRecord.id).Nodup
  numbers : (rows.attempts.map TaskAttemptRecord.number).Nodup
  claims : (rows.attempts.map fun r => (r.workerId, r.claimId)).Nodup
  oneActive : (rows.attempts.filter fun r => r.status = "active").length ≤ 1
  eventPks : (rows.events.map TaskEventRecord.id).Nodup
  sequences : (rows.events.map TaskEventRecord.sequence).Nodup
  transitions : (rows.events.map TaskEventRecord.transitionId).Nodup
  uniqueReceipts : rows.receipts.Nodup

section Decidable

instance decidableTaskRecordAccepted (r : TaskRecord) : Decidable r.Accepted := by
  unfold TaskRecord.Accepted; infer_instance

instance decidableTaskAttemptRecordAccepted (r : TaskAttemptRecord) : Decidable r.Accepted := by
  unfold TaskAttemptRecord.Accepted; infer_instance

instance decidableTextStorable (m : MetaValue) :
    Decidable (∀ s, m = .text s → storableText s = true) :=
  match m with
  | .text s => decidable_of_iff (storableText s = true)
      ⟨fun h _ hs => MetaValue.text.inj hs ▸ h, fun h => h s rfl⟩
  | .int _ => isTrue fun _ hs => by cases hs

instance decidableTaskEventRecordAccepted (r : TaskEventRecord) : Decidable r.Accepted := by
  unfold TaskEventRecord.Accepted; infer_instance

instance decidableTaskReceiptAccepted (r : TaskCommandReceipt) : Decidable r.Accepted := by
  unfold TaskCommandReceipt.Accepted; infer_instance

instance decidableTaskRowsAccepted (rows : TaskRows) : Decidable rows.Accepted :=
  decidable_of_iff (rows.task.Accepted ∧ (∀ r ∈ rows.attempts, r.Accepted) ∧
    (∀ r ∈ rows.events, r.Accepted) ∧ (∀ r ∈ rows.receipts, r.Accepted) ∧
    (rows.attempts.map TaskAttemptRecord.id).Nodup ∧
    (rows.attempts.map TaskAttemptRecord.number).Nodup ∧
    (rows.attempts.map fun r => (r.workerId, r.claimId)).Nodup ∧
    (rows.attempts.filter fun r => r.status = "active").length ≤ 1 ∧
    (rows.events.map TaskEventRecord.id).Nodup ∧
    (rows.events.map TaskEventRecord.sequence).Nodup ∧
    (rows.events.map TaskEventRecord.transitionId).Nodup ∧ rows.receipts.Nodup)
    ⟨fun ⟨a, b, c, d, e, f, g, h, i, j, k, l⟩ => ⟨a, b, c, d, e, f, g, h, i, j, k, l⟩,
      fun ⟨a, b, c, d, e, f, g, h, i, j, k, l⟩ => ⟨a, b, c, d, e, f, g, h, i, j, k, l⟩⟩

end Decidable

/-- `session.commit()` -/
def commitRows (rows : TaskRows) : Except RepositoryError TaskRows := do
  require rows.Accepted .rejected
  pure rows

/-! ## The repository -/

/-- The insertion of `create_or_get_submission`. -/
def createTask (pg : Postgres) (task : Task) : Except RepositoryError TaskRows :=
  match task.events with
  | [] => .error .index
  | event :: _ =>
    commitRows { task := taskToRecord pg task, attempts := [],
                 events := [eventToRecord pg event], receipts := [] }

def saveTask (pg : Postgres) (rows : TaskRows) (task : Task)
    (commandReceipt : Option TaskCommandReceipt) : Except RepositoryError TaskRows :=
  commitRows
    { task := updateTaskRecord pg rows.task task
      attempts := task.attempts.foldl
        (upsert TaskAttemptRecord.id TaskAttempt.id attemptToRecord updateAttemptRecord
          rows.attempts) rows.attempts
      events := rows.events ++ (task.events.filter fun e =>
        e.id ∉ rows.events.map TaskEventRecord.id).map (eventToRecord pg)
      receipts := rows.receipts ++ commandReceipt.toList.filter fun r => r ∉ rows.receipts }

/-- `_from_task_record` -/
def loadTask (rows : TaskRows) : Except RepositoryError Task :=
  taskFromRecords rows.task (orderBy (· ≤ ·) TaskAttemptRecord.number rows.attempts)
    (orderBy (· ≤ ·) TaskEventRecord.sequence rows.events)

/-! ## The rows of a task -/

variable {pg : Postgres} {rows rows' : TaskRows} {t t' : Task} {a : TaskAttempt} {e : TaskEvent}
  {receipt : Option TaskCommandReceipt}

/-- The rows are those of the task, in some order. -/
structure Stores (pg : Postgres) (rows : TaskRows) (t : Task) : Prop where
  record : rows.task = taskToRecord pg t
  attempts : rows.attempts.Perm (t.attempts.map attemptToRecord)
  events : rows.events.Perm (t.events.map (eventToRecord pg))

theorem commitRows_ok : commitRows rows = .ok rows' ↔ rows.Accepted ∧ rows' = rows := by
  simp [commitRows, eq_comm (a := rows')]

theorem stores_of_create (hc : Created t) (h : createTask pg t = .ok rows) :
    Stores pg rows t ∧ rows.Accepted := by
  obtain ⟨-, hattempts, -, e, hevents, -⟩ := created_ok hc
  rw [createTask, hevents] at h
  obtain ⟨hacc, rfl⟩ := commitRows_ok.1 h
  refine ⟨⟨rfl, ?_, ?_⟩, hacc⟩
  · rw [hattempts]
    exact .refl _
  · rw [hevents]
    exact .refl _

theorem Stores.attemptPks (h : Stores pg rows t) :
    (rows.attempts.map TaskAttemptRecord.id).Perm (t.attempts.map TaskAttempt.id) := by
  have := h.attempts.map TaskAttemptRecord.id
  rwa [List.map_map] at this

theorem Stores.eventPks (h : Stores pg rows t) :
    (rows.events.map TaskEventRecord.id).Perm (t.events.map TaskEvent.id) := by
  have := h.events.map TaskEventRecord.id
  rwa [List.map_map] at this

/-! ## What every constructor accepts again -/

/-- The task and its parts pass their constructors unchanged. -/
structure Task.Storable (t : Task) : Prop where
  texts : ∀ s ∈ [t.taskType, t.ownerSubject, t.idempotencyKey, t.inputFingerprint],
    isBlank s = false ∧ strip s = s
  maxAttempts : 0 < t.maxAttempts
  available : t.availableAt.tzAware = true
  created : t.createdAt.tzAware = true
  updated : t.updatedAt.tzAware = true
  cancelled : ∀ d, t.cancelRequestedAt = some d → d.tzAware = true
  display : ∀ p ∈ t.displayMetadata, isBlank p.1 = false
  attempts : ∀ a ∈ t.attempts, TaskAttempt.make a = .ok a
  events : ∀ e ∈ t.events, TaskEvent.make e = .ok e

@[simp] theorem raises_ok {α : Type} {x : Except TaskError α} {a : α} :
    raises x = .ok a ↔ x = .ok a := by
  cases x <;> simp [raises]

theorem timestamp_instant {d : DateTime} (h : d.tzAware = true) : timestamp d.instant = d := by
  cases d
  cases h
  rfl

theorem optional_stored {d : Option DateTime} (h : ∀ t, d = some t → t.tzAware = true) :
    (d.map DateTime.instant).map timestamp = d := by
  cases d with
  | none => rfl
  | some t => rw [Option.map_some, Option.map_some, timestamp_instant (h t rfl)]

@[simp] theorem categoryOf_stored (c : Option FailureCategory) :
    categoryOf (c.map FailureCategory.value) = .ok c := by
  cases c with
  | none => rfl
  | some c => cases c <;> decide

/-- The times of an attempt that passes its checks have a zone. -/
theorem attempt_times (h : TaskAttempt.make a = .ok a) : a.leaseExpiresAt.tzAware = true ∧
    a.createdAt.tzAware = true ∧ ∀ d, a.finishedAt = some d → d.tzAware = true := by
  cases hf : a.finishedAt with
  | none =>
    obtain ⟨-, -, -, -, hlease, hcreated, -⟩ := (TaskAttempt.make_ok hf).1 h
    exact ⟨hlease, hcreated, fun _ hd => by cases hd⟩
  | some time =>
    simp only [TaskAttempt.make, hf, except_bind_ok, exists_unit, require_ok, requireText_ok,
      requireUtc_ok, Option.some.injEq] at h
    obtain ⟨-, _, -, _, -, _, -, _, ⟨rfl, hlease⟩, _, ⟨rfl, hcreated⟩, -, -, _,
      ⟨rfl, hfinished⟩, -⟩ := h
    exact ⟨hlease, hcreated, fun _ hd => Option.some.inj hd ▸ hfinished⟩

theorem attemptFromRecord_eq (h : TaskAttempt.make a = .ok a) :
    attemptFromRecord (attemptToRecord a) = .ok a := by
  obtain ⟨hlease, hcreated, hfinished⟩ := attempt_times h
  simp only [attemptFromRecord, attemptToRecord, memberOf_attemptStatus, categoryOf_stored,
    except_bind_ok, raises_ok, Except.ok.injEq, exists_eq_left', timestamp_instant hlease,
    timestamp_instant hcreated, optional_stored hfinished]
  exact h

/-! ### Events -/

/-- Metadata that pass unchanged do so entry by entry. -/
theorem safeMetadata_self {ty : TaskEventType} {m : Metadata} : safeMetadata ty m = .ok m ↔
    (∀ p ∈ m, safeEntry ty p = .ok p) ∧ ∀ f ∈ eventMetadataFields ty,
      f ∉ optionalEventMetadataFields ty → f ∈ m.map Prod.fst := by
  simp only [safeMetadata, except_bind_ok, exists_unit, require_ok, except_pure_ok, mapEach_ok]
  constructor
  · rintro ⟨m', hm, hall, rfl⟩
    exact ⟨List.forall₂_same.1 hm, hall⟩
  · rintro ⟨hm, hall⟩
    exact ⟨m, List.forall₂_same.2 hm, hall, rfl⟩

theorem safeMetadata_jsonb {ty : TaskEventType} {m : Metadata} (h : safeMetadata ty m = .ok m) :
    safeMetadata ty (pg.jsonb m) = .ok (pg.jsonb m) := by
  rw [safeMetadata_self] at h ⊢
  refine ⟨fun p hp => h.1 p (pg.mem_jsonb.1 hp), fun f hf hreq => ?_⟩
  rw [(pg.jsonb_perm.map Prod.fst).mem_iff]
  exact h.2 f hf hreq

/-- An entry that was normalised is normal. -/
theorem safeEntry_idem {ty : TaskEventType} {p q : String × MetaValue}
    (h : safeEntry ty p = .ok q) : safeEntry ty q = .ok q := by
  have hq := safeEntry_ok h
  obtain ⟨key, value⟩ := p
  simp only [safeEntry, except_bind_ok, exists_unit, requireText_ok, require_ok] at h
  obtain ⟨_, ⟨hb, rfl⟩, hsafe, hmem, hrest⟩ := h
  rw [hq]
  simp only [safeEntry, except_bind_ok, exists_unit, requireText_ok, require_ok]
  refine ⟨strip key, ⟨isBlank_strip.trans hb, strip_strip.symm⟩, hsafe, hmem, ?_⟩
  split_ifs at hrest ⊢ with hattempt
  · cases value with
    | int n =>
      simp only [except_bind_ok, exists_unit, require_ok, except_pure_ok] at hrest
      simpa [MetaValue.stripped] using hrest.1
    | text s => cases hrest
  all_goals
    simp only [except_bind_ok, exists_unit, require_ok, except_pure_ok] at hrest ⊢
    obtain ⟨s, hs, hrest⟩ := hrest
    cases value with
    | int n => cases hs
    | text x =>
      obtain ⟨hx, rfl⟩ := requireText_ok.1 hs
      refine ⟨strip x, requireText_ok.2 ⟨isBlank_strip.trans hx, strip_strip.symm⟩, ?_⟩
      simp_all [MetaValue.stripped]

/-- Where the body gives back what it has made, so does the whole loop. -/
theorem mapEach_idem {ε α : Type} {f : α → Except ε α} (hf : ∀ a b, f a = .ok b → f b = .ok b)
    {as bs : List α} (h : mapEach f as = .ok bs) : ∀ b ∈ bs, f b = .ok b := by
  have hall := mapEach_ok.1 h
  clear h
  induction hall with
  | nil => exact fun b hb => absurd hb List.not_mem_nil
  | @cons a b as bs hab _ ih =>
    intro b' hb'
    rcases List.mem_cons.1 hb' with rfl | hb'
    · exact hf a b' hab
    · exact ih b' hb'

theorem safeMetadata_idem {ty : TaskEventType} {m m' : Metadata} (h : safeMetadata ty m = .ok m') :
    safeMetadata ty m' = .ok m' := by
  simp only [safeMetadata, except_bind_ok, exists_unit, require_ok, except_pure_ok] at h
  obtain ⟨_, hm, hall, rfl⟩ := h
  exact safeMetadata_self.2 ⟨mapEach_idem (fun _ _ => safeEntry_idem) hm, hall⟩

theorem event_idem {e' : TaskEvent} (h : TaskEvent.make e = .ok e') : TaskEvent.make e' = .ok e' := by
  obtain ⟨hseq, hb, hz, m, hm, rfl⟩ := TaskEvent.make_ok.1 h
  refine TaskEvent.make_ok.2 ⟨hseq, by rwa [isBlank_strip], hz, m, safeMetadata_idem hm, ?_⟩
  rw [strip_strip]

/-- The event with its metadata as the database gives them back. -/
def TaskEvent.reloaded (pg : Postgres) (e : TaskEvent) : TaskEvent :=
  { e with metadata := pg.jsonb e.metadata }

theorem reloaded_valid (h : TaskEvent.make e = .ok e) :
    TaskEvent.make (e.reloaded pg) = .ok (e.reloaded pg) := by
  obtain ⟨hseq, hb, hz, m, hm, he⟩ := TaskEvent.make_ok.1 h
  have hid := congrArg TaskEvent.transitionId he
  have hmeta := congrArg TaskEvent.metadata he
  dsimp only at hid hmeta
  subst hmeta
  refine TaskEvent.make_ok.2 ⟨hseq, hb, hz, pg.jsonb e.metadata, safeMetadata_jsonb hm, ?_⟩
  unfold TaskEvent.reloaded
  rw [← hid]

theorem eventFromRecord_eq (h : TaskEvent.make e = .ok e) :
    eventFromRecord (eventToRecord pg e) = .ok (e.reloaded pg) := by
  obtain ⟨-, -, hz, -⟩ := TaskEvent.make_ok.1 h
  simp only [eventFromRecord, eventToRecord, memberOf_eventType, except_bind_ok, raises_ok,
    Except.ok.injEq, exists_eq_left', timestamp_instant hz]
  exact reloaded_valid h

/-! ## Loading -/

/-- The task as it is read back. -/
def Task.reloaded (pg : Postgres) (t : Task) : Task :=
  { t with displayMetadata := pg.jsonb t.displayMetadata
           events := t.events.map (TaskEvent.reloaded pg) }

theorem sound_reloaded (h : Sound t) : Sound (t.reloaded pg) where
  attemptTask := h.attemptTask
  numbered := h.numbered
  eventTask e he := by
    obtain ⟨e₀, he₀, rfl⟩ := List.mem_map.1 he
    exact h.eventTask e₀ he₀
  sequenced := by
    show (t.events.map _).map _ = List.range' 1 (t.events.map _).length
    rw [List.map_map, List.length_map]
    exact h.sequenced
  distinct := by
    show ((t.events.map _).map _).Nodup
    rw [List.map_map]
    exact h.distinct
  active := h.active
  summary := h.summary

theorem storable_reloaded (h : t.Storable) : (t.reloaded pg).Storable :=
  { h with
    display := fun p hp => h.display p (pg.mem_jsonb.1 hp)
    events := fun e he => by
      obtain ⟨e₀, he₀, rfl⟩ := List.mem_map.1 he
      exact reloaded_valid (h.events e₀ he₀) }

theorem make_of_storable (h : t.Storable) (hs : Sound t) : Task.make t = .ok t := by
  have htext (label : String) {s : String}
      (hm : s ∈ [t.taskType, t.ownerSubject, t.idempotencyKey, t.inputFingerprint]) :
      requireText s label = .ok s :=
    requireText_ok.2 ⟨(h.texts s hm).1, (h.texts s hm).2.symm⟩
  have hutc {d : DateTime} (label : String) (hz : d.tzAware = true) : requireUtc d label = .ok d :=
    requireUtc_ok.2 ⟨rfl, hz⟩
  simp only [Task.make, htext _ (by simp : t.taskType ∈ _), htext _ (by simp : t.ownerSubject ∈ _),
    htext _ (by simp : t.idempotencyKey ∈ _), htext _ (by simp : t.inputFingerprint ∈ _),
    hutc _ h.available, hutc _ h.created, hutc _ h.updated, except_bind_ok, exists_unit, require_ok,
    Except.ok.injEq, exists_eq_left', except_pure_ok, h.maxAttempts, true_and, and_true]
  exact ⟨h.display, checkInvariants_ok.2 hs⟩

/-- Rows numbered in the order of the members come out in that order. -/
theorem orderBy_numbered {α ρ : Type} {number : α → Nat} {key : ρ → Nat} {f : α → ρ}
    {rows : List ρ} {as : List α} (hrows : rows.Perm (as.map f)) (hkey : ∀ a, key (f a) = number a)
    (hnum : as.map number = List.range' 1 as.length) :
    orderBy (· ≤ ·) key rows = as.map f := by
  have hlt := List.pairwise_lt_range' (s := 1) (n := as.length)
  have hkeys : (as.map f).map key = List.range' 1 as.length := by
    rw [List.map_map, ← hnum]
    exact List.map_congr_left fun a _ => hkey a
  apply orderBy_eq hrows
  · rw [hkeys]
    exact hlt.imp Nat.ne_of_lt
  · rw [← hkeys, List.pairwise_map] at hlt
    exact hlt.imp Nat.le_of_lt

theorem mapEach_rows {ε α β γ : Type} {f : β → Except ε γ} {g : α → β} {h : α → γ} {as : List α}
    (hf : ∀ a ∈ as, f (g a) = .ok (h a)) : mapEach f (as.map g) = .ok (as.map h) := by
  rw [mapEach_ok, List.forall₂_map_left_iff, List.forall₂_map_right_iff, List.forall₂_same]
  exact hf

/-- **Loading gives the stored task back.** -/
theorem load_of_stores (h : Stores pg rows t) (hst : t.Storable) (hs : Sound t) :
    loadTask rows = .ok (t.reloaded pg) := by
  have hattempts : mapEach attemptFromRecord (t.attempts.map attemptToRecord) =
      .ok (t.attempts.map id) := mapEach_rows fun a ha => attemptFromRecord_eq (hst.attempts a ha)
  have hevents : mapEach eventFromRecord (t.events.map (eventToRecord pg)) =
      .ok (t.reloaded pg).events := mapEach_rows fun e he => eventFromRecord_eq (hst.events e he)
  rw [List.map_id] at hattempts
  rw [loadTask, orderBy_numbered h.attempts (fun _ => rfl) hs.numbered,
    orderBy_numbered h.events (fun _ => rfl) hs.sequenced, h.record]
  simp only [taskFromRecords, taskToRecord, memberOf_status, hattempts, hevents, except_bind_ok,
    Except.ok.injEq, exists_eq_left', raises_ok, timestamp_instant hst.available,
    timestamp_instant hst.created, timestamp_instant hst.updated, optional_stored hst.cancelled]
  exact make_of_storable (storable_reloaded hst) (sound_reloaded hs)

end GoAgent.Tasks
