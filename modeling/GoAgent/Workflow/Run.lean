import GoAgent.Workflow.NodeRun

/-!
# Workflow runs

The aggregate: a run owns its node runs and an append-only event log, and its commands move a
node, log the transition and recompute the run status. An event whose transition id is already
in the log is not appended again. A command that raises keeps the writes made before the
error, so the state a rejected command leaves is part of the model.

`Call` is what every command receives from outside: the clock reading, the command id and the
random ids drawn for the events it appends (`uuid4 k` for the event at position `k`; the event
object a node method returns is never stored and draws `uuid4 0`).
-/

namespace GoAgent.Workflow

open GoAgent.Foundation

inductive WorkflowRunStatus
  | queued | running | accepted | succeeded | failed | cancelRequested | cancelled
  deriving DecidableEq

structure WorkflowRun where
  workflowCode : String
  workflowVersion : String
  ownerSubject : String
  idempotencyKey : String
  inputFingerprint : String
  nodes : List WorkflowNodeRun
  status : WorkflowRunStatus := .queued
  resultSummary : Option String := none
  failureCode : Option String := none
  cancelRequestedAt : Option DateTime := none
  createdAt : Option DateTime := none
  updatedAt : Option DateTime := none
  events : List WorkflowEvent := []
  id : UUID
  deriving DecidableEq

structure Call where
  now : DateTime
  commandId : String
  uuid4 : Nat → UUID

abbrev RunM := EStateM WorkflowError WorkflowRun

/-- `node.status in {SUCCEEDED, SKIPPED}` -/
def WorkflowNodeStatus.Complete (s : WorkflowNodeStatus) : Prop := s = .succeeded ∨ s = .skipped

/-- `node.status in {CANCELLED, SUCCEEDED, SKIPPED}` -/
def WorkflowNodeStatus.Closed (s : WorkflowNodeStatus) : Prop := s = .cancelled ∨ s.Complete

/-- `node.status in {QUEUED, RUNNING, ACCEPTED}` -/
def WorkflowNodeStatus.Cancellable (s : WorkflowNodeStatus) : Prop := s = .queued ∨ s.Active

instance (s : WorkflowNodeStatus) : Decidable s.Complete := by
  unfold WorkflowNodeStatus.Complete; infer_instance

instance (s : WorkflowNodeStatus) : Decidable s.Closed := by
  unfold WorkflowNodeStatus.Closed; infer_instance

instance (s : WorkflowNodeStatus) : Decidable s.Cancellable := by
  unfold WorkflowNodeStatus.Cancellable; infer_instance

/-- The final statuses of a run. -/
def WorkflowRunStatus.Terminal (s : WorkflowRunStatus) : Prop :=
  s = .succeeded ∨ s = .failed ∨ s = .cancelled

/-- `status in {CANCEL_REQUESTED, CANCELLED, FAILED, SUCCEEDED}`, where nodes may not progress. -/
def WorkflowRunStatus.Shut (s : WorkflowRunStatus) : Prop := s = .cancelRequested ∨ s.Terminal

instance (s : WorkflowRunStatus) : Decidable s.Terminal := by
  unfold WorkflowRunStatus.Terminal; infer_instance

instance (s : WorkflowRunStatus) : Decidable s.Shut := by
  unfold WorkflowRunStatus.Shut; infer_instance

namespace WorkflowRun

/-! ## Reading a run -/

def node? (run : WorkflowRun) (nodeId : String) : Option WorkflowNodeRun :=
  lookup WorkflowNodeRun.nodeId nodeId run.nodes

def node (run : WorkflowRun) (nodeId : String) : Except WorkflowError WorkflowNodeRun :=
  match run.node? nodeId with
  | some node => pure node
  | none => .error (.validation "Run 节点不存在。")

/-- `_find_latest_node_event` -/
def findLatestNodeEvent (run : WorkflowRun) (nodeId : String) (eventType : WorkflowEventType) :
    Option WorkflowEvent :=
  run.events.reverse.find? fun e => e.eventType = eventType ∧ e.metadata.nodeId = some nodeId

def outputReferences (run : WorkflowRun) (nodeId : String) : References :=
  match run.findLatestNodeEvent nodeId .nodeSucceeded with
  | none => []
  | some event => event.metadata.outputReferences.getD []

/-- `set(edge.output_fields).issubset(self.output_references(edge.source_node_id))` -/
def Bound (run : WorkflowRun) (edge : WorkflowEdgeDefinition) : Prop :=
  ∀ f ∈ edge.outputFields.1, f ∈ (run.outputReferences edge.sourceNodeId.1).map Prod.fst

instance (run : WorkflowRun) (edge : WorkflowEdgeDefinition) : Decidable (run.Bound edge) := by
  unfold Bound; infer_instance

/-- The condition on one node in `ready_nodes`; later conditions are evaluated only when the
earlier ones hold. -/
def isReady (run : WorkflowRun) (v : WorkflowVersion) (node : WorkflowNodeRun) :
    Except WorkflowError Bool := do
  if node.status ≠ .queued then pure false
  else
    let predecessors ← v.predecessors node.nodeId
    let succeeded ← allHold (fun p => do
      let predecessor ← run.node p
      pure (decide (predecessor.status = .succeeded))) predecessors
    if succeeded = false then pure false
    else
      let incoming ← v.incomingEdges node.nodeId
      pure (decide (∀ edge ∈ incoming, run.Bound edge))

def readyNodes (run : WorkflowRun) (v : WorkflowVersion) : Except WorkflowError (List String) := do
  let ready ← keepIf (run.isReady v) run.nodes
  pure (ready.map WorkflowNodeRun.nodeId)

/-! ## Writing a run -/

/-- Put a node run in the place of the one with its id. -/
def put (run : WorkflowRun) (nodeId : String) (node : WorkflowNodeRun) : WorkflowRun :=
  { run with nodes := replace WorkflowNodeRun.nodeId nodeId node run.nodes }

def hasTransition (run : WorkflowRun) (transitionId : String) : Prop :=
  ∃ e ∈ run.events, e.transitionId = transitionId

instance (run : WorkflowRun) (transitionId : String) : Decidable (run.hasTransition transitionId) := by
  unfold hasTransition; infer_instance

/-- The event logged next. -/
def nextEvent (run : WorkflowRun) (call : Call) (transitionId : String)
    (eventType : WorkflowEventType) (metadata : EventMetadata) : WorkflowEvent where
  runId := run.id
  sequence := run.events.length + 1
  transitionId := transitionId
  eventType := eventType
  metadata := metadata
  createdAt := call.now
  id := call.uuid4 (run.events.length + 1)

end WorkflowRun

/-- Call a method of the node with the given id. -/
def onNode {α : Type} (nodeId : String) (method : NodeM α) : RunM α := fun run =>
  match run.node? nodeId with
  | none => .error (.validation "Run 节点不存在。") run
  | some node =>
    match method node with
    | .ok a node => .ok a (run.put nodeId node)
    | .error e node => .error e (run.put nodeId node)

/-- `_append_event` -/
def appendEvent (call : Call) (transitionId : String) (eventType : WorkflowEventType)
    (metadata : EventMetadata) : RunM Unit := do
  let run ← get
  if run.hasTransition transitionId then pure ()
  else
    let _ ← lift (utc call.now "事件时间")
    let event ← lift (WorkflowEvent.make (run.nextEvent call transitionId eventType metadata))
    modify fun r => { r with events := r.events ++ [event] }

/-- `_append_existing` -/
def appendExisting (call : Call) (event : WorkflowEvent) : RunM Unit := do
  let run ← get
  if run.hasTransition event.transitionId then pure ()
  else
    let event ← lift (WorkflowEvent.make { run.nextEvent call event.transitionId event.eventType
      event.metadata with createdAt := event.createdAt })
    modify fun r => { r with events := r.events ++ [event] }

/-- `_refresh_status` -/
def refreshStatus (call : Call) : RunM Unit := do
  let run ← get
  if ∀ n ∈ run.nodes, n.status.Complete then
    modify fun r => { r with status := .succeeded }
    modify fun r => { r with resultSummary := some "Workflow 节点已全部完成。" }
    appendEvent call call.commandId .runSucceeded {}
  else if ∃ n ∈ run.nodes, n.status = .accepted then
    modify fun r => { r with status := .accepted }
  else if run.status = .accepted then
    modify fun r => { r with status := .running }

/-- `self.updated_at = _utc(now, label)` -/
def touch (call : Call) (label : String) : RunM Unit := do
  let now ← lift (utc call.now label)
  modify fun r => { r with updatedAt := some now }

namespace WorkflowRun

def occasion (run : WorkflowRun) (call : Call) (suffix : String) : Occasion where
  now := call.now
  transitionId := call.commandId ++ suffix
  runId := run.id
  eventId := call.uuid4 0

/-! ## Commands -/

/-- The node run `WorkflowRun.create` makes for a node definition. -/
def createNode (now : DateTime) (id : UUID) (node : WorkflowNodeDefinition) :
    Except WorkflowError WorkflowNodeRun := do
  let nodeId ← identifier (nodeIdOf node) "节点标识"
  let capabilityCode ← identifier node.capabilityCode.1 "能力代码"
  require (0 < node.maxAttempts) (.validation "节点最大尝试次数必须为正整数。")
  pure { nodeId := nodeId.1, nodeType := node.nodeType, capabilityCode := capabilityCode.1,
         maxAttempts := node.maxAttempts, createdAt := some now, updatedAt := some now, id }

/-- `nodeIdAt k` is the id drawn for the `k`-th node. -/
def create (v : WorkflowVersion) (ownerSubject idempotencyKey inputFingerprint : String)
    (now : DateTime) (runId : UUID) (nodeIdAt uuid4 : Nat → UUID) :
    Except WorkflowError WorkflowRun := do
  let now ← utc now "Run 创建时间"
  let ownerSubject ← text ownerSubject "主体标识"
  let idempotencyKey ← text idempotencyKey "幂等键"
  let inputFingerprint ← text inputFingerprint "输入指纹"
  let nodes ← mapEach (fun p => createNode now (nodeIdAt p.2) p.1) v.nodes.zipIdx
  let run : WorkflowRun :=
    { workflowCode := v.workflowCode.1, workflowVersion := v.version.1, ownerSubject,
      idempotencyKey, inputFingerprint, nodes, createdAt := some now, updatedAt := some now,
      id := runId }
  let event ← WorkflowEvent.make (run.nextEvent ⟨now, "create", uuid4⟩ "create" .runCreated
    { workflowCode := some run.workflowCode, workflowVersion := some run.workflowVersion })
  pure { run with events := [event] }

def startNode (v : WorkflowVersion) (nodeId : String) (call : Call) : RunM WorkflowEvent := do
  let run ← get
  check (¬run.status.Shut) (.state "当前 Run 不能开始节点。")
  let ready ← lift (run.readyNodes v)
  check (nodeId ∈ ready) (.state "节点前置依赖尚未满足。")
  let event ← onNode nodeId (WorkflowNodeRun.start (run.occasion call ":start"))
  if run.status = .queued then
    modify fun r => { r with status := .running }
    appendEvent call (call.commandId ++ ":run-start") .runStarted {}
  appendExisting call event
  touch call "Run 开始时间"
  pure event

def acceptNode (nodeId executionReference : String) (call : Call) : RunM WorkflowEvent := do
  let run ← get
  check (¬run.status.Shut) (.state "当前 Run 不能接收节点结果。")
  let node ← lift (run.node nodeId)
  let event ← onNode nodeId
    (WorkflowNodeRun.accept executionReference (run.occasion call ":accept"))
  match if node.status = .accepted then run.findLatestNodeEvent nodeId .nodeAccepted else none with
  | some existing => pure existing
  | none =>
    modify fun r => { r with status := .accepted }
    appendExisting call event
    appendEvent call (call.commandId ++ ":run-accepted") .runAccepted { nodeId := some nodeId }
    touch call "Run 接收时间"
    pure event

/-- The original event of a repeated success report, when its facts agree and it was logged. -/
def succeedReplay (nodeId resultSummary : String) (outputFingerprint : Option String)
    (outputReferences : References) (node : WorkflowNodeRun) : RunM (Option WorkflowEvent) := do
  let run ← get
  if node.status = .succeeded then
    check (node.resultSummary = some resultSummary ∧ node.outputFingerprint = outputFingerprint)
      (.idempotencyConflict "同一节点成功提交使用了不同的结果。")
    check (sameDict (run.outputReferences nodeId) outputReferences)
      (.idempotencyConflict "同一节点成功提交使用了不同的输出引用。")
    pure (run.findLatestNodeEvent nodeId .nodeSucceeded)
  else pure none

def succeedNode (v : WorkflowVersion) (nodeId resultSummary : String)
    (outputFingerprint : Option String) (outputReferences : References) (call : Call) :
    RunM WorkflowEvent := do
  let run ← get
  let node ← lift (run.node nodeId)
  let definition ← lift (v.node nodeId)
  check ((∀ f ∈ outputReferences.map Prod.fst, f ∈ definition.outputFields.1) ∧
      (∀ f ∈ definition.outputFields.1, f ∈ outputReferences.map Prod.fst))
    (.validation "节点成功结果未完整提供声明的输出引用。")
  lift (forEach (fun entry => checkReference entry "节点输出字段名" "节点输出引用") outputReferences)
  match ← succeedReplay nodeId resultSummary outputFingerprint outputReferences node with
  | some existing => pure existing
  | none =>
    let event ← onNode nodeId (WorkflowNodeRun.succeed resultSummary outputFingerprint
      outputReferences (run.occasion call ":succeed"))
    appendExisting call event
    refreshStatus call
    pure event

/-- The run fails with its node. -/
def failWith (nodeId : String) (call : Call) : RunM Unit := do
  let run ← get
  let node ← lift (run.node nodeId)
  modify fun r => { r with status := .failed }
  modify fun r => { r with failureCode := node.failureCode }
  match node.failureCode with
  | some code =>
    appendEvent call (call.commandId ++ ":run-failed") .runFailed
      { nodeId := some nodeId, errorCode := some code }
  | none => throw (.validation "事件错误码无效。")

def rejectNodeInput (nodeId errorCode : String) (call : Call) : RunM WorkflowEvent := do
  let run ← get
  check (¬run.status.Shut) (.state "当前 Run 不能拒绝节点输入。")
  let event ← onNode nodeId
    (WorkflowNodeRun.rejectInput errorCode (run.occasion call ":reject-input"))
  appendExisting call event
  failWith nodeId call
  touch call "Run 输入失败时间"
  pure event

def failNode (nodeId errorCode : String) (retryable : Bool) (call : Call) :
    RunM WorkflowEvent := do
  let run ← get
  let event ← onNode nodeId
    (WorkflowNodeRun.fail errorCode retryable (run.occasion call ":fail"))
  appendExisting call event
  let run ← get
  let node ← lift (run.node nodeId)
  if node.status = .failed then
    failWith nodeId call
  touch call "Run 失败时间"
  pure event

def skipNode (nodeId reason : String) (call : Call) : RunM WorkflowEvent := do
  let run ← get
  let event ← onNode nodeId (WorkflowNodeRun.skip reason (run.occasion call ":skip"))
  appendExisting call event
  refreshStatus call
  pure event

/-- The loop of `request_cancel` over the nodes. -/
def cancelNodes (call : Call) : List String → RunM Unit
  | [] => pure ()
  | nodeId :: rest => do
    let run ← get
    let node ← lift (run.node nodeId)
    if node.status.Cancellable then
      let event ← onNode nodeId
        (WorkflowNodeRun.requestCancel (run.occasion call (":" ++ nodeId ++ ":cancel")))
      appendExisting call event
    cancelNodes call rest

def requestCancel (call : Call) : RunM Unit := do
  let run ← get
  check (¬run.status.Terminal) (.state "当前 Run 已经是终态。")
  if run.status = .cancelRequested then pure ()
  else
    modify fun r => { r with status := .cancelRequested }
    let now ← lift (utc call.now "Run 取消时间")
    modify fun r => { r with cancelRequestedAt := some now }
    appendEvent call (call.commandId ++ ":run-cancel-requested") .runCancelRequested {}
    cancelNodes call (run.nodes.map WorkflowNodeRun.nodeId)
    let run ← get
    if ∀ n ∈ run.nodes, n.status.Closed then
      modify fun r => { r with status := .cancelled }
      appendEvent call (call.commandId ++ ":complete") .runCancelled {}
    touch call "Run 取消时间"

def confirmNodeCancel (nodeId : String) (call : Call) : RunM WorkflowEvent := do
  let run ← get
  let event ← onNode nodeId (WorkflowNodeRun.confirmCancel (run.occasion call ":confirm"))
  appendExisting call event
  let run ← get
  if run.status = .cancelRequested ∧ ∀ n ∈ run.nodes, n.status.Closed then
    modify fun r => { r with status := .cancelled }
    appendEvent call call.commandId .runCancelled {}
  touch call "Run 取消确认时间"
  pure event

end WorkflowRun

/-- The commands of a run. -/
inductive WorkflowCommand
  | startNode (nodeId : String)
  | succeedNode (nodeId resultSummary : String) (outputFingerprint : Option String)
      (outputReferences : References)
  | acceptNode (nodeId executionReference : String)
  | rejectNodeInput (nodeId errorCode : String)
  | failNode (nodeId errorCode : String) (retryable : Bool)
  | skipNode (nodeId reason : String)
  | requestCancel
  | confirmNodeCancel (nodeId : String)

/-- A command with what the call brings from outside. -/
structure Request where
  command : WorkflowCommand
  call : Call

/-- Issue a command to a run. -/
def WorkflowRun.execute (v : WorkflowVersion) (r : Request) : RunM Unit :=
  match r.command with
  | .startNode nodeId => discard (startNode v nodeId r.call)
  | .succeedNode nodeId summary fp outputs => discard (succeedNode v nodeId summary fp outputs r.call)
  | .acceptNode nodeId reference => discard (acceptNode nodeId reference r.call)
  | .rejectNodeInput nodeId code => discard (rejectNodeInput nodeId code r.call)
  | .failNode nodeId code retryable => discard (failNode nodeId code retryable r.call)
  | .skipNode nodeId reason => discard (skipNode nodeId reason r.call)
  | .requestCancel => requestCancel r.call
  | .confirmNodeCancel nodeId => discard (confirmNodeCancel nodeId r.call)

end GoAgent.Workflow
