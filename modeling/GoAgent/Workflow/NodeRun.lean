import GoAgent.Workflow.Definition

/-!
# Events and node runs

A `WorkflowEvent` is a log entry with whitelisted metadata; `checkEvent` is its constructor's
check. A `WorkflowNodeRun` is the mutable record of one node, and each of its methods moves
the status, writes some of the recorded facts and returns the event of the transition. A
method that raises keeps the writes it has already made.

Every method has one inversion lemma `*_ok`: when it returns, from which status, with which
node and which event.
-/

namespace GoAgent.Workflow

open GoAgent.Foundation

inductive WorkflowNodeStatus
  | queued | running | accepted | succeeded | failed | cancelRequested | cancelled | skipped
  deriving DecidableEq

inductive WorkflowEventType
  | runCreated | runStarted | runAccepted | runSucceeded | runFailed | runCancelRequested
  | runCancelled | nodeStarted | nodeAccepted | nodeSucceeded | nodeInputRejected | nodeFailed
  | nodeRetryScheduled | nodeSkipped | nodeCancelRequested | nodeCancelled
  deriving DecidableEq

/-! ## Events -/

/-- A Python dict of strings, in insertion order. -/
abbrev References := List (String × String)

/-- Equality of dicts: the same keys with the same values, in whatever order. -/
def sameDict (a b : References) : Prop := (∀ p ∈ a, p ∈ b) ∧ (∀ p ∈ b, p ∈ a)

instance (a b : References) : Decidable (sameDict a b) := by unfold sameDict; infer_instance

/-- The metadata an event may carry; an absent key is `none`. -/
structure EventMetadata where
  workflowCode : Option String := none
  workflowVersion : Option String := none
  nodeId : Option String := none
  attemptNumber : Option Nat := none
  errorCode : Option String := none
  executionReference : Option String := none
  outputReferences : Option References := none
  skipReason : Option String := none
  cancelMode : Option String := none
  deriving DecidableEq

/-- The keys present. -/
def EventMetadata.keys (m : EventMetadata) : List String :=
  (if m.workflowCode.isSome then ["workflow_code"] else []) ++
  (if m.workflowVersion.isSome then ["workflow_version"] else []) ++
  (if m.nodeId.isSome then ["node_id"] else []) ++
  (if m.attemptNumber.isSome then ["attempt_number"] else []) ++
  (if m.errorCode.isSome then ["error_code"] else []) ++
  (if m.executionReference.isSome then ["execution_reference"] else []) ++
  (if m.outputReferences.isSome then ["output_references"] else []) ++
  (if m.skipReason.isSome then ["skip_reason"] else []) ++
  (if m.cancelMode.isSome then ["cancel_mode"] else [])

/-- `_EVENT_METADATA_FIELDS` -/
def eventMetadataFields : WorkflowEventType → List String
  | .runCreated => ["workflow_code", "workflow_version"]
  | .runStarted => []
  | .runAccepted => ["node_id"]
  | .runSucceeded => []
  | .runFailed => ["node_id", "error_code"]
  | .runCancelRequested => []
  | .runCancelled => []
  | .nodeStarted => ["node_id", "attempt_number"]
  | .nodeAccepted => ["node_id", "attempt_number", "execution_reference"]
  | .nodeSucceeded => ["node_id", "attempt_number", "output_references"]
  | .nodeInputRejected => ["node_id", "error_code"]
  | .nodeFailed => ["node_id", "attempt_number", "error_code"]
  | .nodeRetryScheduled => ["node_id", "attempt_number", "error_code"]
  | .nodeSkipped => ["node_id", "skip_reason"]
  | .nodeCancelRequested => ["node_id", "attempt_number"]
  | .nodeCancelled => ["node_id", "attempt_number", "cancel_mode"]

structure WorkflowEvent where
  runId : UUID
  sequence : Nat
  transitionId : String
  eventType : WorkflowEventType
  metadata : EventMetadata
  createdAt : DateTime
  id : UUID
  deriving DecidableEq

/-- A check of a metadata value, made when its key is present. -/
def checkPresent {α : Type} (value : Option α) (f : α → Except WorkflowError Unit) :
    Except WorkflowError Unit :=
  match value with
  | none => pure ()
  | some a => f a

/-- One entry of an output reference map. -/
def checkReference (entry : String × String) (fieldLabel referenceLabel : String) :
    Except WorkflowError Unit := do
  let _ ← identifier entry.1 fieldLabel
  let _ ← opaqueReference entry.2 referenceLabel

/-- The metadata checks of `WorkflowEvent.__post_init__`. -/
def checkMetadata (eventType : WorkflowEventType) (m : EventMetadata) :
    Except WorkflowError Unit := do
  require (∀ k ∈ m.keys, k ∈ eventMetadataFields eventType)
    (.validation "事件元数据包含未允许的字段。")
  checkPresent m.nodeId fun nodeId => do
    let _ ← identifier nodeId "事件节点标识"
  checkPresent m.attemptNumber fun n => require (0 < n) (.validation "事件尝试序号无效。")
  checkPresent m.errorCode fun code =>
    require (isSafeError code = true) (.validation "事件错误码无效。")
  checkPresent m.executionReference fun reference => do
    let _ ← opaqueReference reference "事件执行引用"
  checkPresent m.outputReferences
    (forEach fun entry => checkReference entry "事件输出字段名" "事件输出引用")
  checkPresent m.cancelMode fun mode =>
    require (mode ∈ ["queued", "confirmed"]) (.validation "事件取消模式无效。")

def checkEvent (e : WorkflowEvent) : Except WorkflowError Unit := do
  require (0 < e.sequence) (.validation "事件序号必须为正整数。")
  let _ ← text e.transitionId "转换标识"
  checkMetadata e.eventType e.metadata
  let _ ← utc e.createdAt "事件时间"

/-- `WorkflowEvent(...)` -/
def WorkflowEvent.make (e : WorkflowEvent) : Except WorkflowError WorkflowEvent := do
  checkEvent e
  pure e

@[simp] theorem checkPresent_ok {α : Type} {value : Option α} {f : α → Except WorkflowError Unit}
    {u : Unit} : checkPresent value f = .ok u ↔ ∀ a, value = some a → f a = .ok () := by
  cases value <;> simp [checkPresent]

@[simp] theorem checkReference_ok {entry : String × String} {fieldLabel referenceLabel : String}
    {u : Unit} : checkReference entry fieldLabel referenceLabel = .ok u ↔
      (isBlank entry.1 = false ∧ isIdentifier (strip entry.1) = true) ∧
      (isBlank entry.2 = false ∧ isSafeReference (strip entry.2) = true) := by
  simp only [checkReference, except_bind_ok, identifier_ok, opaqueReference_ok, except_pure_ok,
    and_true, Subtype.exists]
  constructor
  · rintro ⟨i, hi, ⟨hb, rfl⟩, r, hrb, hr, rfl⟩
    exact ⟨⟨hb, hi⟩, hrb, hr⟩
  · rintro ⟨⟨hb, hi⟩, hrb, hr⟩
    exact ⟨_, hi, ⟨hb, rfl⟩, _, hrb, hr, rfl⟩

theorem checkEvent_ok {e : WorkflowEvent} : checkEvent e = .ok () ↔
    0 < e.sequence ∧ isBlank e.transitionId = false ∧
      checkMetadata e.eventType e.metadata = .ok () ∧ e.createdAt.tzAware = true := by
  simp [checkEvent]

@[simp] theorem WorkflowEvent.make_ok {e e' : WorkflowEvent} :
    WorkflowEvent.make e = .ok e' ↔ checkEvent e = .ok () ∧ e' = e := by
  simp [WorkflowEvent.make, eq_comm (a := e')]

/-! ## Node runs -/

structure WorkflowNodeRun where
  nodeId : String
  nodeType : WorkflowNodeType
  capabilityCode : String
  maxAttempts : Nat
  status : WorkflowNodeStatus := .queued
  attemptCount : Nat := 0
  executionReference : Option String := none
  resultSummary : Option String := none
  outputFingerprint : Option String := none
  failureCode : Option String := none
  createdAt : Option DateTime := none
  updatedAt : Option DateTime := none
  id : UUID
  deriving DecidableEq

/-- When, under which transition id and for which run a node method is called; `eventId` is the
id drawn for the event object it returns. -/
structure Occasion where
  now : DateTime
  transitionId : String
  runId : UUID
  eventId : UUID

abbrev NodeM := EStateM WorkflowError WorkflowNodeRun

/-- The statuses `_require_active` lets pass. -/
def WorkflowNodeStatus.Active (s : WorkflowNodeStatus) : Prop := s = .running ∨ s = .accepted

instance (s : WorkflowNodeStatus) : Decidable s.Active := by
  unfold WorkflowNodeStatus.Active; infer_instance

def nodeEventOf (node : WorkflowNodeRun) (eventType : WorkflowEventType) (o : Occasion)
    (metadata : EventMetadata) : WorkflowEvent where
  runId := o.runId
  sequence := 1
  transitionId := o.transitionId
  eventType := eventType
  metadata := { metadata with nodeId := some node.nodeId }
  createdAt := o.now
  id := o.eventId

/-- `_node_event` -/
def nodeEvent (node : WorkflowNodeRun) (eventType : WorkflowEventType) (o : Occasion)
    (metadata : EventMetadata) : Except WorkflowError WorkflowEvent := do
  require (isBlank o.transitionId = false) (.validation "节点转换标识不能为空。")
  let _ ← utc o.now "节点事件时间"
  WorkflowEvent.make (nodeEventOf node eventType o metadata)

@[simp] theorem nodeEvent_ok {node : WorkflowNodeRun} {eventType : WorkflowEventType}
    {o : Occasion} {metadata : EventMetadata} {e : WorkflowEvent} :
    nodeEvent node eventType o metadata = .ok e ↔
      e = nodeEventOf node eventType o metadata ∧ checkEvent e = .ok () := by
  simp only [nodeEvent, exists_unit, except_bind_ok, require_ok, utc_ok,
    WorkflowEvent.make_ok]
  constructor
  · rintro ⟨-, -, -, h, rfl⟩
    exact ⟨rfl, h⟩
  · rintro ⟨rfl, h⟩
    have h' := checkEvent_ok.1 h
    exact ⟨h'.2.1, _, ⟨h'.2.2.2, rfl⟩, h, rfl⟩

theorem nodeEvent_of_check {node : WorkflowNodeRun} {eventType : WorkflowEventType}
    {o : Occasion} {metadata : EventMetadata} (hid : isBlank o.transitionId = false)
    (hnow : o.now.tzAware = true)
    (hm : checkMetadata eventType { metadata with nodeId := some node.nodeId } = .ok ()) :
    nodeEvent node eventType o metadata = .ok (nodeEventOf node eventType o metadata) :=
  nodeEvent_ok.2 ⟨rfl, checkEvent_ok.2 ⟨Nat.one_pos, hid, hm, hnow⟩⟩

namespace WorkflowNodeRun

def requireActive : NodeM Unit := do
  let node ← get
  check node.status.Active (.state "节点不在可执行状态。")

def start (o : Occasion) : NodeM WorkflowEvent := do
  let node ← get
  check (node.status = .queued) (.state "只有 queued 节点可以开始执行。")
  check (node.attemptCount < node.maxAttempts) (.state "节点已耗尽最大尝试次数。")
  modify fun n => { n with attemptCount := n.attemptCount + 1 }
  modify fun n => { n with status := .running }
  let now ← lift (utc o.now "节点开始时间")
  modify fun n => { n with updatedAt := some now }
  let node ← get
  lift (nodeEvent node .nodeStarted o { attemptNumber := some node.attemptCount })

def accept (executionReference : String) (o : Occasion) : NodeM WorkflowEvent := do
  let node ← get
  if node.status = .accepted then
    let reference ← lift (opaqueReference executionReference "执行引用")
    check (node.executionReference = some reference)
      (.idempotencyConflict "同一节点接收使用了不同的执行引用。")
    lift (nodeEvent node .nodeAccepted o
      { attemptNumber := some node.attemptCount, executionReference := node.executionReference })
  else
    requireActive
    let reference ← lift (opaqueReference executionReference "执行引用")
    modify fun n => { n with executionReference := some reference }
    modify fun n => { n with status := .accepted }
    let now ← lift (utc o.now "节点接收时间")
    modify fun n => { n with updatedAt := some now }
    let node ← get
    lift (nodeEvent node .nodeAccepted o
      { attemptNumber := some node.attemptCount, executionReference := node.executionReference })

def succeed (resultSummary : String) (outputFingerprint : Option String)
    (outputReferences : References) (o : Occasion) : NodeM WorkflowEvent := do
  let node ← get
  if ¬node.status.Active then
    check (node.status = .succeeded ∧ node.resultSummary = some resultSummary)
      (.state "只有运行中或已接收节点可以成功。")
    check (node.outputFingerprint = outputFingerprint)
      (.idempotencyConflict "同一节点成功提交使用了不同的输出指纹。")
    lift (nodeEvent node .nodeSucceeded o
      { attemptNumber := some node.attemptCount, outputReferences := some outputReferences })
  else
    modify fun n => { n with status := .succeeded }
    let summary ← lift (text resultSummary "节点结果摘要")
    modify fun n => { n with resultSummary := some summary }
    let fp ← lift (fingerprint outputFingerprint "输出指纹")
    modify fun n => { n with outputFingerprint := fp }
    modify fun n => { n with executionReference := none }
    let now ← lift (utc o.now "节点完成时间")
    modify fun n => { n with updatedAt := some now }
    let node ← get
    lift (nodeEvent node .nodeSucceeded o
      { attemptNumber := some node.attemptCount, outputReferences := some outputReferences })

def rejectInput (errorCode : String) (o : Occasion) : NodeM WorkflowEvent := do
  let node ← get
  check (node.status = .queued) (.state "只有 queued 节点可以拒绝输入。")
  let code ← lift (text errorCode "错误码")
  check (isSafeError code = true) (.validation "错误码格式无效。")
  modify fun n => { n with failureCode := some code }
  modify fun n => { n with status := .failed }
  let now ← lift (utc o.now "节点输入拒绝时间")
  modify fun n => { n with updatedAt := some now }
  let node ← get
  lift (nodeEvent node .nodeInputRejected o { errorCode := some code })

def fail (errorCode : String) (retryable : Bool) (o : Occasion) : NodeM WorkflowEvent := do
  requireActive
  let code ← lift (text errorCode "错误码")
  check (isSafeError code = true) (.validation "错误码格式无效。")
  modify fun n => { n with failureCode := some code }
  modify fun n => { n with executionReference := none }
  let node ← get
  let retry := retryable = true ∧ node.attemptCount < node.maxAttempts
  modify fun n => { n with status := if retry then .queued else .failed }
  let now ← lift (utc o.now "节点失败时间")
  modify fun n => { n with updatedAt := some now }
  let node ← get
  lift (nodeEvent node (if retry then .nodeRetryScheduled else .nodeFailed) o
    { attemptNumber := some node.attemptCount, errorCode := some code })

def skip (reason : String) (o : Occasion) : NodeM WorkflowEvent := do
  let node ← get
  if node.status = .skipped then
    let reason ← lift (text reason "跳过原因")
    -- `self.result_summary or normalized_reason`
    let shown := if node.resultSummary.getD "" = "" then reason else node.resultSummary.getD ""
    lift (nodeEvent node .nodeSkipped o { skipReason := some shown })
  else
    check (node.status = .queued) (.state "只有 queued 节点可以跳过。")
    let reason ← lift (text reason "跳过原因")
    modify fun n => { n with resultSummary := some reason }
    modify fun n => { n with status := .skipped }
    let now ← lift (utc o.now "节点跳过时间")
    modify fun n => { n with updatedAt := some now }
    let node ← get
    lift (nodeEvent node .nodeSkipped o { skipReason := node.resultSummary })

def requestCancel (o : Occasion) : NodeM WorkflowEvent := do
  let node ← get
  if node.status.Active then
    modify fun n => { n with status := .cancelRequested }
    let now ← lift (utc o.now "节点取消时间")
    modify fun n => { n with updatedAt := some now }
    let node ← get
    lift (nodeEvent node .nodeCancelRequested o { attemptNumber := some node.attemptCount })
  else
    check (node.status = .queued) (.state "当前节点状态不能取消。")
    modify fun n => { n with status := .cancelled }
    let now ← lift (utc o.now "节点取消时间")
    modify fun n => { n with updatedAt := some now }
    let node ← get
    lift (nodeEvent node .nodeCancelled o { cancelMode := some "queued" })

def confirmCancel (o : Occasion) : NodeM WorkflowEvent := do
  let node ← get
  if node.status = .cancelled then
    lift (nodeEvent node .nodeCancelled o { cancelMode := some "confirmed" })
  else
    check (node.status = .cancelRequested) (.state "节点未请求取消。")
    modify fun n => { n with status := .cancelled }
    let now ← lift (utc o.now "节点取消确认时间")
    modify fun n => { n with updatedAt := some now }
    let node ← get
    lift (nodeEvent node .nodeCancelled o
      { attemptNumber := some node.attemptCount, cancelMode := some "confirmed" })

/-! ### The node a method leaves, and its event -/

variable {n n' : WorkflowNodeRun} {o : Occasion} {e : WorkflowEvent}

def started (n : WorkflowNodeRun) (now : DateTime) : WorkflowNodeRun :=
  { n with attemptCount := n.attemptCount + 1, status := .running, updatedAt := some now }

def acceptedWith (n : WorkflowNodeRun) (reference : String) (now : DateTime) : WorkflowNodeRun :=
  { n with executionReference := some reference, status := .accepted, updatedAt := some now }

def succeededWith (n : WorkflowNodeRun) (summary : String) (fp : Option String)
    (now : DateTime) : WorkflowNodeRun :=
  { n with status := .succeeded, resultSummary := some summary, outputFingerprint := fp,
           executionReference := none, updatedAt := some now }

def rejectedWith (n : WorkflowNodeRun) (code : String) (now : DateTime) : WorkflowNodeRun :=
  { n with failureCode := some code, status := .failed, updatedAt := some now }

/-- A retryable failure goes back to the queue while attempts remain. -/
def Retries (n : WorkflowNodeRun) (retryable : Bool) : Prop :=
  retryable = true ∧ n.attemptCount < n.maxAttempts

instance (n : WorkflowNodeRun) (retryable : Bool) : Decidable (n.Retries retryable) := by
  unfold Retries; infer_instance

def failedWith (n : WorkflowNodeRun) (code : String) (retryable : Bool) (now : DateTime) :
    WorkflowNodeRun :=
  { n with failureCode := some code, executionReference := none,
           status := if n.Retries retryable then .queued else .failed, updatedAt := some now }

def skippedWith (n : WorkflowNodeRun) (reason : String) (now : DateTime) : WorkflowNodeRun :=
  { n with resultSummary := some reason, status := .skipped, updatedAt := some now }

def cancelRequestedAt (n : WorkflowNodeRun) (now : DateTime) : WorkflowNodeRun :=
  { n with status := if n.status.Active then .cancelRequested else .cancelled,
           updatedAt := some now }

def cancelledAt (n : WorkflowNodeRun) (now : DateTime) : WorkflowNodeRun :=
  { n with status := .cancelled, updatedAt := some now }

def startedMetadata (n : WorkflowNodeRun) : EventMetadata :=
  { attemptNumber := some n.attemptCount }

def acceptedMetadata (n : WorkflowNodeRun) : EventMetadata :=
  { attemptNumber := some n.attemptCount, executionReference := n.executionReference }

def succeededMetadata (n : WorkflowNodeRun) (outputs : References) : EventMetadata :=
  { attemptNumber := some n.attemptCount, outputReferences := some outputs }

theorem tzAware_of_nodeEvent {eventType : WorkflowEventType} {m : EventMetadata}
    (h : nodeEvent n eventType o m = .ok e) : o.now.tzAware = true := by
  obtain ⟨rfl, h⟩ := nodeEvent_ok.1 h
  exact (checkEvent_ok.1 h).2.2.2

theorem start_ok : start o n = .ok e n' ↔
    n.status = .queued ∧ n.attemptCount < n.maxAttempts ∧ n' = n.started o.now ∧
      nodeEvent n' .nodeStarted o n'.startedMetadata = .ok e := by
  simp only [start, bind_ok, exists_unit, get_ok, check_ok, modify_ok, lift_ok, utc_ok,
    exists_eq_left, exists_and_left, and_assoc]
  constructor
  · rintro ⟨hq, ha, -, h, rfl⟩
    exact ⟨hq, ha, rfl, h⟩
  · rintro ⟨hq, ha, rfl, h⟩
    exact ⟨hq, ha, tzAware_of_nodeEvent h, h, rfl⟩

theorem accept_ok {reference : String} : accept reference o n = .ok e n' ↔
    (n.status = .accepted ∧ isBlank reference = false ∧ isSafeReference (strip reference) = true ∧
      n.executionReference = some (strip reference) ∧ n' = n ∧
      nodeEvent n' .nodeAccepted o n'.acceptedMetadata = .ok e) ∨
    (n.status = .running ∧ isBlank reference = false ∧ isSafeReference (strip reference) = true ∧
      n' = n.acceptedWith (strip reference) o.now ∧
      nodeEvent n' .nodeAccepted o n'.acceptedMetadata = .ok e) := by
  by_cases ha : n.status = .accepted
  · simp only [accept, ha, if_true, bind_ok, exists_unit, get_ok, check_ok, lift_ok,
      opaqueReference_ok, exists_eq_left, exists_and_left, and_assoc, true_and, reduceCtorEq,
      false_and, or_false]
    constructor
    · rintro ⟨hb, r, hs, rfl, hr, h, rfl⟩
      exact ⟨hb, hs, hr, rfl, h⟩
    · rintro ⟨hb, hs, hr, rfl, h⟩
      exact ⟨hb, _, hs, rfl, hr, h, rfl⟩
  · have hact : n.status.Active ↔ n.status = .running := by
      simp [WorkflowNodeStatus.Active, ha]
    simp only [accept, ha, if_false, requireActive, bind_ok, exists_unit, get_ok, check_ok,
      modify_ok, lift_ok, utc_ok, opaqueReference_ok, exists_eq_left, exists_and_left, and_assoc,
      false_and, false_or, hact]
    constructor
    · rintro ⟨hr, hb, r, hs, rfl, -, h, rfl⟩
      exact ⟨hr, hb, hs, rfl, h⟩
    · rintro ⟨hr, hb, hs, rfl, h⟩
      exact ⟨hr, hb, _, hs, rfl, tzAware_of_nodeEvent h, h, rfl⟩

theorem succeed_ok {summary : String} {fp : Option String} {outputs : References} :
    succeed summary fp outputs o n = .ok e n' ↔
    (n.status.Active ∧ isBlank summary = false ∧
      ∃ fp', fingerprint fp "输出指纹" = .ok fp' ∧
        n' = n.succeededWith (strip summary) fp' o.now ∧
        nodeEvent n' .nodeSucceeded o (n'.succeededMetadata outputs) = .ok e) ∨
    (n.status = .succeeded ∧ n.resultSummary = some summary ∧ n.outputFingerprint = fp ∧ n' = n ∧
      nodeEvent n' .nodeSucceeded o (n'.succeededMetadata outputs) = .ok e) := by
  by_cases ha : n.status.Active
  · have hs : n.status ≠ .succeeded := by
      rcases ha with h | h <;> rw [h] <;> decide
    simp only [succeed, ha, hs, not_true, if_false, bind_ok, exists_unit, get_ok, modify_ok,
      lift_ok, utc_ok, text_ok, exists_eq_left, exists_and_left, and_assoc, true_and, false_and,
      or_false]
    constructor
    · rintro ⟨hb, fp', hfp, -, h, rfl⟩
      exact ⟨hb, fp', hfp, rfl, h⟩
    · rintro ⟨hb, fp', hfp, rfl, h⟩
      exact ⟨hb, fp', hfp, tzAware_of_nodeEvent h, h, rfl⟩
  · simp only [succeed, ha, not_false_eq_true, if_true, bind_ok, exists_unit, get_ok, check_ok,
      lift_ok, exists_eq_left, exists_and_left, and_assoc, false_and, false_or]
    constructor
    · rintro ⟨hs, hr, hf, h, rfl⟩
      exact ⟨hs, hr, hf, rfl, h⟩
    · rintro ⟨hs, hr, hf, rfl, h⟩
      exact ⟨hs, hr, hf, h, rfl⟩

theorem rejectInput_ok {code : String} : rejectInput code o n = .ok e n' ↔
    n.status = .queued ∧ isBlank code = false ∧ isSafeError (strip code) = true ∧
      n' = n.rejectedWith (strip code) o.now ∧
      nodeEvent n' .nodeInputRejected o { errorCode := some (strip code) } = .ok e := by
  simp only [rejectInput, bind_ok, exists_unit, get_ok, check_ok, modify_ok, lift_ok, utc_ok,
    text_ok, exists_eq_left, exists_and_left, and_assoc]
  constructor
  · rintro ⟨hq, hb, hs, -, h, rfl⟩
    exact ⟨hq, hb, hs, rfl, h⟩
  · rintro ⟨hq, hb, hs, rfl, h⟩
    exact ⟨hq, hb, hs, tzAware_of_nodeEvent h, h, rfl⟩

theorem fail_ok {code : String} {retryable : Bool} : fail code retryable o n = .ok e n' ↔
    n.status.Active ∧ isBlank code = false ∧ isSafeError (strip code) = true ∧
      n' = n.failedWith (strip code) retryable o.now ∧
      nodeEvent n' (if n.Retries retryable then .nodeRetryScheduled else .nodeFailed) o
        { attemptNumber := some n'.attemptCount, errorCode := some (strip code) } = .ok e := by
  simp only [fail, requireActive, bind_ok, exists_unit, get_ok, check_ok, modify_ok, lift_ok,
    utc_ok, text_ok, exists_eq_left, exists_and_left, and_assoc]
  constructor
  · rintro ⟨ha, hb, hs, -, h, rfl⟩
    exact ⟨ha, hb, hs, rfl, h⟩
  · rintro ⟨ha, hb, hs, rfl, h⟩
    exact ⟨ha, hb, hs, tzAware_of_nodeEvent h, h, rfl⟩

/-- The reason a repeated skip reports: the recorded one, unless it is empty. -/
def skipReasonShown (n : WorkflowNodeRun) (reason : String) : String :=
  if n.resultSummary.getD "" = "" then reason else n.resultSummary.getD ""

theorem skip_ok {reason : String} : skip reason o n = .ok e n' ↔
    (n.status = .skipped ∧ isBlank reason = false ∧ n' = n ∧
      nodeEvent n' .nodeSkipped o
        { skipReason := some (n.skipReasonShown (strip reason)) } = .ok e) ∨
    (n.status = .queued ∧ isBlank reason = false ∧ n' = n.skippedWith (strip reason) o.now ∧
      nodeEvent n' .nodeSkipped o { skipReason := some (strip reason) } = .ok e) := by
  by_cases hs : n.status = .skipped
  · simp only [skip, hs, if_true, bind_ok, get_ok, lift_ok, text_ok, exists_eq_left,
      exists_and_left, and_assoc, true_and, reduceCtorEq, false_and, or_false]
    constructor
    · rintro ⟨hb, h, rfl⟩
      exact ⟨hb, rfl, h⟩
    · rintro ⟨hb, rfl, h⟩
      exact ⟨hb, h, rfl⟩
  · simp only [skip, hs, if_false, bind_ok, exists_unit, get_ok, check_ok, modify_ok, lift_ok,
      utc_ok, text_ok, exists_eq_left, exists_and_left, and_assoc, false_and, false_or]
    constructor
    · rintro ⟨hq, hb, -, h, rfl⟩
      exact ⟨hq, hb, rfl, h⟩
    · rintro ⟨hq, hb, rfl, h⟩
      exact ⟨hq, hb, tzAware_of_nodeEvent h, h, rfl⟩

theorem requestCancel_ok : requestCancel o n = .ok e n' ↔
    (n.status.Active ∧ n' = n.cancelRequestedAt o.now ∧
      nodeEvent n' .nodeCancelRequested o { attemptNumber := some n'.attemptCount } = .ok e) ∨
    (n.status = .queued ∧ n' = n.cancelRequestedAt o.now ∧
      nodeEvent n' .nodeCancelled o { cancelMode := some "queued" } = .ok e) := by
  by_cases ha : n.status.Active
  · have hq : n.status ≠ .queued := by
      rcases ha with h | h <;> rw [h] <;> decide
    simp only [requestCancel, cancelRequestedAt, ha, hq, if_true, bind_ok, exists_unit, get_ok,
      modify_ok, lift_ok, utc_ok, exists_eq_left, exists_and_left, and_assoc, true_and, false_and,
      or_false]
    constructor
    · rintro ⟨-, h, rfl⟩
      exact ⟨rfl, h⟩
    · rintro ⟨rfl, h⟩
      exact ⟨tzAware_of_nodeEvent h, h, rfl⟩
  · simp only [requestCancel, cancelRequestedAt, ha, if_false, bind_ok, exists_unit, get_ok,
      check_ok, modify_ok, lift_ok, utc_ok, exists_eq_left, exists_and_left, and_assoc, false_and,
      false_or]
    constructor
    · rintro ⟨hq, -, h, rfl⟩
      exact ⟨hq, rfl, h⟩
    · rintro ⟨hq, rfl, h⟩
      exact ⟨hq, tzAware_of_nodeEvent h, h, rfl⟩

theorem confirmCancel_ok : confirmCancel o n = .ok e n' ↔
    (n.status = .cancelled ∧ n' = n ∧
      nodeEvent n' .nodeCancelled o { cancelMode := some "confirmed" } = .ok e) ∨
    (n.status = .cancelRequested ∧ n' = n.cancelledAt o.now ∧
      nodeEvent n' .nodeCancelled o
        { attemptNumber := some n'.attemptCount, cancelMode := some "confirmed" } = .ok e) := by
  by_cases hc : n.status = .cancelled
  · simp only [confirmCancel, hc, if_true, bind_ok, get_ok, lift_ok, exists_eq_left,
      exists_and_left, and_assoc, true_and, reduceCtorEq, false_and, or_false]
    constructor
    · rintro ⟨h, rfl⟩
      exact ⟨rfl, h⟩
    · rintro ⟨rfl, h⟩
      exact ⟨h, rfl⟩
  · simp only [confirmCancel, hc, if_false, bind_ok, exists_unit, get_ok, check_ok, modify_ok,
      lift_ok, utc_ok, exists_eq_left, exists_and_left, and_assoc, false_and, false_or]
    constructor
    · rintro ⟨hr, -, h, rfl⟩
      exact ⟨hr, rfl, h⟩
    · rintro ⟨hr, rfl, h⟩
      exact ⟨hr, tzAware_of_nodeEvent h, h, rfl⟩

end WorkflowNodeRun

end GoAgent.Workflow
