import GoAgent.Foundation.Raising
import GoAgent.Foundation.Text

/-!
# Task events and attempts

A task is carried out in *attempts*. An attempt is held by one worker under a lease: a token and
an expiry. `TaskAttempt.assertValidLease` is the fence every settling command passes, and
`TaskAttempt.finish` ends an attempt for good.

An event is a log entry with metadata whitelisted by its type. Metadata are a Python dict in
insertion order; `normalEntry` is what the constructor makes of an entry it lets pass.
-/

namespace GoAgent.Tasks

open GoAgent.Foundation

/-- The exceptions of the task domain; `value` is `ValueError`. -/
inductive TaskError
  | value (message : String)
  | leaseRejected (message : String)
  | stateTransition (message : String)
  | idempotencyConflict (message : String)
  | notFound (message : String)
  deriving DecidableEq

inductive TaskStatus
  | queued | running | retryWait | cancelRequested | succeeded | failed | cancelled
  deriving DecidableEq

inductive AttemptStatus
  | active | succeeded | failed | cancelled | expired
  deriving DecidableEq

inductive FailureCategory
  | transient | permanent | leaseExpired
  deriving DecidableEq

inductive TaskEventType
  | taskCreated | taskClaimed | taskCancelRequested | taskCancelled | taskSucceeded | taskFailed
  | taskRetryScheduled | taskRequeued | taskRetryRequested | taskRecovered
  deriving DecidableEq

def TaskStatus.value : TaskStatus → String
  | .queued => "queued"
  | .running => "running"
  | .retryWait => "retry_wait"
  | .cancelRequested => "cancel_requested"
  | .succeeded => "succeeded"
  | .failed => "failed"
  | .cancelled => "cancelled"

def FailureCategory.value : FailureCategory → String
  | .transient => "transient"
  | .permanent => "permanent"
  | .leaseExpired => "lease_expired"

/-! ## Field checks -/

def requireText (value label : String) : Except TaskError String := do
  require (isBlank value = false) (.value (label ++ "必须是非空字符串。"))
  pure (strip value)

/-- `_require_utc`; `none` is Python's `None`. -/
def requireUtc (value : Option DateTime) (label : String) : Except TaskError DateTime :=
  match value with
  | none => .error (.value (label ++ "必须是带时区的时间。"))
  | some time => do
    require (time.tzAware = true) (.value (label ++ "必须是带时区的时间。"))
    pure time

/-- `[A-Z][A-Z0-9_]{0,63}` -/
def isSafeFailureCode (s : String) : Bool :=
  matchesClass isUpper (fun c => isUpper c || isDigit c || c == '_') 0 63 s.toList

/-- `[A-Za-z0-9][A-Za-z0-9._:-]{0,127}` -/
def isSafeFingerprint (s : String) : Bool :=
  matchesClass isAlnum (fun c => isAlnum c || c == '.' || c == '_' || c == ':' || c == '-') 0 127
    s.toList

def requireSafeFailureCode (value : String) : Except TaskError String := do
  let code ← requireText value "失败码"
  require (isSafeFailureCode code = true) (.value "失败码必须是安全分类代码。")
  pure code

def requireSafeFingerprint (value : String) : Except TaskError String := do
  let fingerprint ← requireText value "结果指纹"
  require (isSafeFingerprint fingerprint = true) (.value "结果指纹必须是安全标识。")
  pure fingerprint

@[simp] theorem requireText_ok {value label s : String} :
    requireText value label = .ok s ↔ isBlank value = false ∧ s = strip value := by
  simp [requireText, eq_comm (a := s)]

@[simp] theorem requireUtc_ok {value : Option DateTime} {label : String} {d : DateTime} :
    requireUtc value label = .ok d ↔ value = some d ∧ d.tzAware = true := by
  cases value with
  | none => simp [requireUtc]
  | some time =>
    simp only [requireUtc, except_bind_ok, exists_unit, require_ok, except_pure_ok,
      Option.some.injEq]
    constructor
    · rintro ⟨hz, rfl⟩
      exact ⟨rfl, hz⟩
    · rintro ⟨rfl, hz⟩
      exact ⟨hz, rfl⟩

@[simp] theorem requireSafeFailureCode_ok {value s : String} :
    requireSafeFailureCode value = .ok s ↔
      isBlank value = false ∧ isSafeFailureCode s = true ∧ s = strip value := by
  simp only [requireSafeFailureCode, except_bind_ok, exists_unit, requireText_ok, require_ok,
    except_pure_ok]
  constructor
  · rintro ⟨t, ⟨hb, rfl⟩, hs, rfl⟩
    exact ⟨hb, hs, rfl⟩
  · rintro ⟨hb, hs, rfl⟩
    exact ⟨_, ⟨hb, rfl⟩, hs, rfl⟩

@[simp] theorem requireSafeFingerprint_ok {value s : String} :
    requireSafeFingerprint value = .ok s ↔
      isBlank value = false ∧ isSafeFingerprint s = true ∧ s = strip value := by
  simp only [requireSafeFingerprint, except_bind_ok, exists_unit, requireText_ok, require_ok,
    except_pure_ok]
  constructor
  · rintro ⟨t, ⟨hb, rfl⟩, hs, rfl⟩
    exact ⟨hb, hs, rfl⟩
  · rintro ⟨hb, hs, rfl⟩
    exact ⟨_, ⟨hb, rfl⟩, hs, rfl⟩

/-! ## Events -/

/-- A metadata value: `str` or `int`. -/
inductive MetaValue
  | text (value : String)
  | int (value : Int)
  deriving DecidableEq

abbrev Metadata := List (String × MetaValue)

/-- `_SENSITIVE_METADATA_PARTS` -/
def sensitiveMetadataParts : List String :=
  ["input", "token", "exception", "traceback", "authorization", "api_key", "provider_response",
    "raw_response", "credential", "password", "secret"]

/-- `_EVENT_METADATA_FIELDS` -/
def eventMetadataFields : TaskEventType → List String
  | .taskCreated => ["task_type"]
  | .taskClaimed => ["attempt_number", "claim_id", "worker_id"]
  | .taskCancelRequested => []
  | .taskCancelled => ["attempt_number", "cancel_mode"]
  | .taskSucceeded => ["attempt_number", "result_fingerprint"]
  | .taskFailed => ["attempt_number", "failure_category", "failure_code"]
  | .taskRetryScheduled => ["attempt_number", "failure_category", "failure_code"]
  | .taskRequeued => []
  | .taskRetryRequested => []
  | .taskRecovered => ["attempt_number", "outcome"]

/-- `_OPTIONAL_EVENT_METADATA_FIELDS` -/
def optionalEventMetadataFields : TaskEventType → List String
  | .taskCancelled => ["attempt_number"]
  | _ => []

def metadataText (value : MetaValue) (label : String) : Except TaskError String :=
  match value with
  | .text s => requireText s label
  | .int _ => .error (.value (label ++ "必须是非空字符串。"))

/-- One entry of `_safe_metadata`. -/
def safeEntry (eventType : TaskEventType) (entry : String × MetaValue) :
    Except TaskError (String × MetaValue) := do
  let key ← requireText entry.1 "事件元数据键"
  let lowered := key.toList.map Char.toLower
  require (sensitiveMetadataParts.any (fun part => contains part.toList lowered) = false)
    (.value "事件元数据不能包含敏感内部字段。")
  require (key ∈ eventMetadataFields eventType) (.value "事件元数据包含当前事件不允许的字段。")
  if key = "attempt_number" then
    match entry.2 with
    | .int n => do
      require (0 < n) (.value "事件尝试序号必须是正整数。")
      pure (key, .int n)
    | .text _ => .error (.value "事件尝试序号必须是正整数。")
  else do
    let value ← metadataText entry.2 (if key = "failure_code" then "失败码"
      else if key = "result_fingerprint" then "结果指纹" else "事件元数据值")
    if key = "failure_code" then
      require (isSafeFailureCode value = true) (.value "失败码必须是安全分类代码。")
    if key = "result_fingerprint" then
      require (isSafeFingerprint value = true) (.value "结果指纹必须是安全标识。")
    pure (key, .text value)

/-- `_safe_metadata` -/
def safeMetadata (eventType : TaskEventType) (metadata : Metadata) : Except TaskError Metadata := do
  let normalized ← mapEach (safeEntry eventType) metadata
  require (∀ f ∈ eventMetadataFields eventType, f ∉ optionalEventMetadataFields eventType →
    f ∈ normalized.map Prod.fst) (.value "事件元数据缺少当前事件要求的安全字段。")
  pure normalized

structure TaskEvent where
  taskId : UUID
  sequence : Nat
  transitionId : String
  eventType : TaskEventType
  metadata : Metadata
  createdAt : DateTime
  id : UUID
  deriving DecidableEq

/-- `TaskEvent(...)` -/
def TaskEvent.make (e : TaskEvent) : Except TaskError TaskEvent := do
  require (0 < e.sequence) (.value "事件顺序必须是正整数。")
  let transitionId ← requireText e.transitionId "转换标识"
  let metadata ← safeMetadata e.eventType e.metadata
  let createdAt ← requireUtc e.createdAt "事件时间"
  pure { e with transitionId, metadata, createdAt }

theorem TaskEvent.make_ok {e e' : TaskEvent} : TaskEvent.make e = .ok e' ↔
    0 < e.sequence ∧ isBlank e.transitionId = false ∧ e.createdAt.tzAware = true ∧
      ∃ metadata, safeMetadata e.eventType e.metadata = .ok metadata ∧
        e' = { e with transitionId := strip e.transitionId, metadata } := by
  simp only [TaskEvent.make, except_bind_ok, exists_unit, require_ok, requireText_ok, requireUtc_ok,
    Option.some.injEq, except_pure_ok]
  constructor
  · rintro ⟨hseq, _, ⟨hb, rfl⟩, metadata, hm, _, ⟨rfl, hz⟩, rfl⟩
    exact ⟨hseq, hb, hz, metadata, hm, rfl⟩
  · rintro ⟨hseq, hb, hz, metadata, hm, rfl⟩
    exact ⟨hseq, _, ⟨hb, rfl⟩, metadata, hm, _, ⟨rfl, hz⟩, rfl⟩

/-! ## Attempts -/

structure TaskAttempt where
  taskId : UUID
  number : Nat
  workerId : String
  claimId : String
  leaseToken : String
  leaseExpiresAt : DateTime
  id : UUID
  status : AttemptStatus := .active
  renewalSequence : Int := 0
  createdAt : DateTime
  finishedAt : Option DateTime := none
  failureCategory : Option FailureCategory := none
  failureCode : Option String := none
  resultFingerprint : Option String := none
  deriving DecidableEq

abbrev AttemptM := EStateM TaskError TaskAttempt

namespace TaskAttempt

/-- `TaskAttempt(...)` -/
def make (a : TaskAttempt) : Except TaskError TaskAttempt := do
  require (0 < a.number) (.value "尝试序号必须是正整数。")
  let workerId ← requireText a.workerId "执行者标识"
  let claimId ← requireText a.claimId "领取标识"
  let leaseToken ← requireText a.leaseToken "租约令牌"
  let leaseExpiresAt ← requireUtc a.leaseExpiresAt "租约到期时间"
  let createdAt ← requireUtc a.createdAt "尝试创建时间"
  require (createdAt.instant < leaseExpiresAt.instant)
    (.value "租约到期时间必须晚于尝试创建时间。")
  require (0 ≤ a.renewalSequence) (.value "续租序号必须是非负整数。")
  let finishedAt ← match a.finishedAt with
    | none => pure none
    | some time => do
      let time ← requireUtc time "尝试完成时间"
      pure (some time)
  pure { a with workerId, claimId, leaseToken, leaseExpiresAt, createdAt, finishedAt }

def isActive (a : TaskAttempt) : Prop := a.status = .active

instance (a : TaskAttempt) : Decidable a.isActive := by unfold isActive; infer_instance

/-- The token comparison every command of a lease holder makes. -/
def checkToken (leaseToken : String) : AttemptM Unit := do
  let a ← get
  let token ← lift (requireText leaseToken "租约令牌")
  check (a.leaseToken = token) (.leaseRejected "租约令牌不匹配。")

def assertValidLease (leaseToken : String) (now : DateTime) : AttemptM Unit := do
  checkToken leaseToken
  let a ← get
  check a.isActive (.leaseRejected "租约已失效。")
  let now ← lift (requireUtc now "当前时间")
  check (now.instant < a.leaseExpiresAt.instant) (.leaseRejected "租约已失效。")

def renew (leaseToken : String) (renewalSequence : Int) (leaseExpiresAt now : DateTime) :
    AttemptM Unit := do
  checkToken leaseToken
  let a ← get
  check a.isActive (.leaseRejected "非活动尝试不能续租。")
  let expiry ← lift (requireUtc leaseExpiresAt "租约到期时间")
  if renewalSequence = a.renewalSequence then
    check (expiry.instant = a.leaseExpiresAt.instant)
      (.idempotencyConflict "同一续租序号使用了不同的到期时间。")
  else
    check (a.renewalSequence < renewalSequence) (.stateTransition "续租序号必须严格递增。")
    assertValidLease leaseToken now
    check (a.leaseExpiresAt.instant < expiry.instant) (.value "续租到期时间必须延后。")
    modify fun a => { a with renewalSequence := renewalSequence }
    modify fun a => { a with leaseExpiresAt := expiry }

/-- A safe code or fingerprint where one is given. -/
def optionalText (f : String → Except TaskError String) : Option String →
    Except TaskError (Option String)
  | none => pure none
  | some s => if s = "" then pure none else do
    let s ← f s
    pure (some s)

def finish (status : AttemptStatus) (now : DateTime) (failureCategory : Option FailureCategory)
    (failureCode resultFingerprint : Option String) : AttemptM Unit := do
  let a ← get
  check a.isActive (.stateTransition "只有活动尝试可以结束。")
  check (status ≠ .active) (.value "尝试结束状态不能是 active。")
  modify fun a => { a with status := status }
  let now ← lift (requireUtc now "尝试完成时间")
  modify fun a => { a with finishedAt := some now }
  modify fun a => { a with failureCategory := failureCategory }
  let code ← lift (optionalText requireSafeFailureCode failureCode)
  modify fun a => { a with failureCode := code }
  let fingerprint ← lift (optionalText requireSafeFingerprint resultFingerprint)
  modify fun a => { a with resultFingerprint := fingerprint }

/-! ### What an accepted call did -/

/-- The caller holds the lease and it is still valid at `now`. -/
structure Holds (a : TaskAttempt) (leaseToken : String) (now : DateTime) : Prop where
  given : isBlank leaseToken = false
  token : a.leaseToken = strip leaseToken
  active : a.isActive
  valid : now.instant < a.leaseExpiresAt.instant

def finished (a : TaskAttempt) (status : AttemptStatus) (now : DateTime)
    (failureCategory : Option FailureCategory) (failureCode resultFingerprint : Option String) :
    TaskAttempt :=
  { a with status, finishedAt := some now, failureCategory, failureCode, resultFingerprint }

variable {a a' : TaskAttempt} {leaseToken : String} {now leaseExpiresAt : DateTime} {u : Unit}

/-- A new attempt is accepted with its texts stripped. -/
theorem make_ok (hnew : a.finishedAt = none) : make a = .ok a' ↔
    0 < a.number ∧ isBlank a.workerId = false ∧ isBlank a.claimId = false ∧
      isBlank a.leaseToken = false ∧ a.leaseExpiresAt.tzAware = true ∧ a.createdAt.tzAware = true ∧
      a.createdAt.instant < a.leaseExpiresAt.instant ∧ 0 ≤ a.renewalSequence ∧
      a' = { a with workerId := strip a.workerId, claimId := strip a.claimId,
                    leaseToken := strip a.leaseToken } := by
  obtain ⟨_, _, _, _, _, _, _, _, _, _, finishedAt, _, _, _⟩ := a
  obtain rfl : finishedAt = none := hnew
  simp only [make, except_bind_ok, exists_unit, require_ok, requireText_ok, requireUtc_ok,
    Option.some.injEq, except_pure_ok]
  constructor
  · rintro ⟨hn, _, ⟨hw, rfl⟩, _, ⟨hc, rfl⟩, _, ⟨ht, rfl⟩, _, ⟨rfl, hz⟩, _, ⟨rfl, hz'⟩, hlt, hr, _, rfl, rfl⟩
    exact ⟨hn, hw, hc, ht, hz, hz', hlt, hr, rfl⟩
  · rintro ⟨hn, hw, hc, ht, hz, hz', hlt, hr, rfl⟩
    exact ⟨hn, _, ⟨hw, rfl⟩, _, ⟨hc, rfl⟩, _, ⟨ht, rfl⟩, _, ⟨rfl, hz⟩, _, ⟨rfl, hz'⟩, hlt, hr, _, rfl, rfl⟩

theorem checkToken_ok : checkToken leaseToken a = .ok u a' ↔
    isBlank leaseToken = false ∧ a.leaseToken = strip leaseToken ∧ a' = a := by
  simp only [checkToken, bind_ok, get_ok, lift_ok, requireText_ok, check_ok, exists_eq_left,
    exists_and_left, and_assoc]

theorem assertValidLease_ok : assertValidLease leaseToken now a = .ok u a' ↔
    now.tzAware = true ∧ a.Holds leaseToken now ∧ a' = a := by
  simp only [assertValidLease, bind_ok, exists_unit, checkToken_ok, get_ok, check_ok, lift_ok,
    requireUtc_ok, Option.some.injEq, exists_eq_left, exists_and_left, and_assoc]
  constructor
  · rintro ⟨hb, htoken, hactive, _, rfl, hz, hvalid, rfl⟩
    exact ⟨hz, ⟨hb, htoken, hactive, hvalid⟩, rfl⟩
  · rintro ⟨hz, h, rfl⟩
    exact ⟨h.given, h.token, h.active, now, rfl, hz, h.valid, rfl⟩

theorem renew_ok {renewalSequence : Int}
    (h : renew leaseToken renewalSequence leaseExpiresAt now a = .ok u a') :
    a.isActive ∧ (a' = a ∨ a.Holds leaseToken now ∧ a.renewalSequence < renewalSequence ∧
      a.leaseExpiresAt.instant < leaseExpiresAt.instant ∧
      a' = { a with renewalSequence, leaseExpiresAt }) := by
  simp only [renew, bind_ok, exists_unit, checkToken_ok, get_ok, check_ok, lift_ok, requireUtc_ok,
    Option.some.injEq, exists_eq_left, exists_and_left, and_assoc] at h
  obtain ⟨-, -, hactive, _, rfl, -, h⟩ := h
  refine ⟨hactive, ?_⟩
  split_ifs at h with hseq
  · exact Or.inl (check_ok.1 h).2
  · simp only [bind_ok, exists_unit, check_ok, assertValidLease_ok, modify_ok, exists_eq_left,
      exists_and_left, and_assoc] at h
    obtain ⟨hlt, -, hholds, hlater, rfl⟩ := h
    exact Or.inr ⟨hholds, hlt, hlater, rfl⟩

theorem finish_ok {status : AttemptStatus} {failureCategory : Option FailureCategory}
    {failureCode resultFingerprint : Option String}
    (h : finish status now failureCategory failureCode resultFingerprint a = .ok u a') :
    a.isActive ∧ status ≠ .active ∧ ∃ code fingerprint,
      optionalText requireSafeFailureCode failureCode = .ok code ∧
      optionalText requireSafeFingerprint resultFingerprint = .ok fingerprint ∧
      a' = a.finished status now failureCategory code fingerprint := by
  simp only [finish, bind_ok, exists_unit, get_ok, check_ok, modify_ok, lift_ok, requireUtc_ok,
    Option.some.injEq, exists_eq_left, exists_and_left, and_assoc] at h
  obtain ⟨hactive, hne, _, rfl, -, code, hcode, fingerprint, hfp, rfl⟩ := h
  exact ⟨hactive, hne, code, fingerprint, hcode, hfp, rfl⟩

end TaskAttempt

end GoAgent.Tasks
