import GoAgent.Foundation.Postgres
import GoAgent.Workflow.Writes

/-!
# Storing a run

A run is stored in four tables; every statement of the repository filters by the id of the run,
so the rows of one run are a store of their own. The mapper turns a run into records and back, a
save updates some columns and inserts what is new, and the database checks its constraints at the
end of the transaction.

`Stores pg rows run` says that the rows are those of the run, in whatever order.

* `stores_of_save` — saving a run over an earlier version of it stores the run.
* `load_of_stores` — loading gives the run back with its nodes in the order of their ids
  (`WorkflowRun.reloaded`).
-/

namespace GoAgent.Workflow

open GoAgent.Foundation WorkflowRun

/-! ## The values of the enumerations -/

def WorkflowNodeType.value : WorkflowNodeType → String
  | .capability => "capability"

def WorkflowRunStatus.value : WorkflowRunStatus → String
  | .queued => "queued"
  | .running => "running"
  | .accepted => "accepted"
  | .succeeded => "succeeded"
  | .failed => "failed"
  | .cancelRequested => "cancel_requested"
  | .cancelled => "cancelled"

def WorkflowNodeStatus.value : WorkflowNodeStatus → String
  | .queued => "queued"
  | .running => "running"
  | .accepted => "accepted"
  | .succeeded => "succeeded"
  | .failed => "failed"
  | .cancelRequested => "cancel_requested"
  | .cancelled => "cancelled"
  | .skipped => "skipped"

def WorkflowEventType.value : WorkflowEventType → String
  | .runCreated => "RUN_CREATED"
  | .runStarted => "RUN_STARTED"
  | .runAccepted => "RUN_ACCEPTED"
  | .runSucceeded => "RUN_SUCCEEDED"
  | .runFailed => "RUN_FAILED"
  | .runCancelRequested => "RUN_CANCEL_REQUESTED"
  | .runCancelled => "RUN_CANCELLED"
  | .nodeStarted => "NODE_STARTED"
  | .nodeAccepted => "NODE_ACCEPTED"
  | .nodeSucceeded => "NODE_SUCCEEDED"
  | .nodeInputRejected => "NODE_INPUT_REJECTED"
  | .nodeFailed => "NODE_FAILED"
  | .nodeRetryScheduled => "NODE_RETRY_SCHEDULED"
  | .nodeSkipped => "NODE_SKIPPED"
  | .nodeCancelRequested => "NODE_CANCEL_REQUESTED"
  | .nodeCancelled => "NODE_CANCELLED"

/-- What loading a run may raise: `value` is the `ValueError` of an enumeration. -/
inductive LoadError
  | value (given : String)
  | domain (error : WorkflowError)
  deriving DecidableEq

/-- `Enum(value)` over the members of an enumeration. -/
def ofValue {α : Type} (value : α → String) (members : List α) (given : String) :
    Except LoadError α :=
  match members.find? fun a => value a = given with
  | some a => pure a
  | none => .error (.value given)

def WorkflowRunStatus.ofValue : String → Except LoadError WorkflowRunStatus :=
  Workflow.ofValue WorkflowRunStatus.value [.queued, .running, .accepted, .succeeded, .failed,
    .cancelRequested, .cancelled]

def WorkflowNodeStatus.ofValue : String → Except LoadError WorkflowNodeStatus :=
  Workflow.ofValue WorkflowNodeStatus.value [.queued, .running, .accepted, .succeeded, .failed,
    .cancelRequested, .cancelled, .skipped]

def WorkflowEventType.ofValue : String → Except LoadError WorkflowEventType :=
  Workflow.ofValue WorkflowEventType.value [.runCreated, .runStarted, .runAccepted, .runSucceeded,
    .runFailed, .runCancelRequested, .runCancelled, .nodeStarted, .nodeAccepted, .nodeSucceeded,
    .nodeInputRejected, .nodeFailed, .nodeRetryScheduled, .nodeSkipped, .nodeCancelRequested,
    .nodeCancelled]

@[simp] theorem runStatus_ofValue (s : WorkflowRunStatus) :
    WorkflowRunStatus.ofValue s.value = .ok s := by
  cases s <;> decide

@[simp] theorem nodeStatus_ofValue (s : WorkflowNodeStatus) :
    WorkflowNodeStatus.ofValue s.value = .ok s := by
  cases s <;> decide

theorem nodeStatus_value_inj {s t : WorkflowNodeStatus} : s.value = t.value ↔ s = t := by
  constructor
  · intro h
    have hs := nodeStatus_ofValue s
    rw [h, nodeStatus_ofValue] at hs
    exact (Except.ok.inj hs).symm
  · exact congrArg _

@[simp] theorem eventType_ofValue (ty : WorkflowEventType) :
    WorkflowEventType.ofValue ty.value = .ok ty := by
  cases ty <;> decide

@[simp] theorem nodeType_ofValue (ty : WorkflowNodeType) :
    WorkflowNodeType.ofValue ty.value = .ok ty := by
  cases ty
  rfl

/-! ## Records -/

/-- A row of `workflow_run`; a time is the instant its column holds. -/
structure WorkflowRunRecord where
  id : UUID
  workflowCode : String
  workflowVersion : String
  ownerSubject : String
  idempotencyKey : String
  inputFingerprint : String
  status : String
  resultSummary : Option String
  failureCode : Option String
  cancelRequestedAt : Option Int
  createdAt : Option Int
  updatedAt : Option Int
  deriving DecidableEq

structure WorkflowNodeRunRecord where
  id : UUID
  runId : UUID
  nodeId : String
  nodeType : String
  capabilityCode : String
  maxAttempts : Nat
  status : String
  attemptCount : Nat
  executionReference : Option String
  resultSummary : Option String
  outputFingerprint : Option String
  failureCode : Option String
  createdAt : Option Int
  updatedAt : Option Int
  deriving DecidableEq

structure WorkflowEventRecord where
  id : UUID
  runId : UUID
  sequence : Nat
  transitionId : String
  eventType : String
  eventMetadata : EventMetadata
  createdAt : Int
  deriving DecidableEq

structure WorkflowCommandReceipt where
  commandType : String
  commandId : String
  deriving DecidableEq

/-- The rows of one run. -/
structure WorkflowRows where
  run : WorkflowRunRecord
  nodes : List WorkflowNodeRunRecord
  events : List WorkflowEventRecord
  receipts : List WorkflowCommandReceipt
  deriving DecidableEq

/-! ## The mapper -/

/-- The metadata as its `JSONB` column gives them back. -/
def EventMetadata.stored (pg : Postgres) (m : EventMetadata) : EventMetadata :=
  { m with outputReferences := m.outputReferences.map pg.jsonb }

def runToRecord (run : WorkflowRun) : WorkflowRunRecord where
  id := run.id
  workflowCode := run.workflowCode
  workflowVersion := run.workflowVersion
  ownerSubject := run.ownerSubject
  idempotencyKey := run.idempotencyKey
  inputFingerprint := run.inputFingerprint
  status := run.status.value
  resultSummary := run.resultSummary
  failureCode := run.failureCode
  cancelRequestedAt := run.cancelRequestedAt.map DateTime.instant
  createdAt := run.createdAt.map DateTime.instant
  updatedAt := run.updatedAt.map DateTime.instant

def updateRunRecord (record : WorkflowRunRecord) (run : WorkflowRun) : WorkflowRunRecord :=
  { record with
    status := run.status.value
    resultSummary := run.resultSummary
    failureCode := run.failureCode
    cancelRequestedAt := run.cancelRequestedAt.map DateTime.instant
    updatedAt := run.updatedAt.map DateTime.instant }

def nodeToRecord (runId : UUID) (node : WorkflowNodeRun) : WorkflowNodeRunRecord where
  id := node.id
  runId := runId
  nodeId := node.nodeId
  nodeType := node.nodeType.value
  capabilityCode := node.capabilityCode
  maxAttempts := node.maxAttempts
  status := node.status.value
  attemptCount := node.attemptCount
  executionReference := node.executionReference
  resultSummary := node.resultSummary
  outputFingerprint := node.outputFingerprint
  failureCode := node.failureCode
  createdAt := node.createdAt.map DateTime.instant
  updatedAt := node.updatedAt.map DateTime.instant

def updateNodeRecord (record : WorkflowNodeRunRecord) (node : WorkflowNodeRun) :
    WorkflowNodeRunRecord :=
  { record with
    status := node.status.value
    attemptCount := node.attemptCount
    executionReference := node.executionReference
    resultSummary := node.resultSummary
    outputFingerprint := node.outputFingerprint
    failureCode := node.failureCode
    updatedAt := node.updatedAt.map DateTime.instant }

def eventToRecord (pg : Postgres) (event : WorkflowEvent) : WorkflowEventRecord where
  id := event.id
  runId := event.runId
  sequence := event.sequence
  transitionId := event.transitionId
  eventType := event.eventType.value
  eventMetadata := event.metadata.stored pg
  createdAt := event.createdAt.instant

/-- A time read from a `TIMESTAMPTZ` column. -/
def timestamp (instant : Int) : DateTime := ⟨instant, true⟩

def raises {α : Type} (x : Except WorkflowError α) : Except LoadError α :=
  match x with
  | .ok a => .ok a
  | .error e => .error (.domain e)

/-- The checks of `WorkflowNodeRun.__post_init__`. -/
def WorkflowNodeRun.make (n : WorkflowNodeRun) : Except WorkflowError WorkflowNodeRun := do
  let nodeId ← identifier n.nodeId "节点标识"
  let capabilityCode ← identifier n.capabilityCode "能力代码"
  require (0 < n.maxAttempts) (.validation "节点最大尝试次数必须为正整数。")
  require (n.attemptCount ≤ n.maxAttempts) (.validation "节点尝试次数超出范围。")
  let reference ← match n.executionReference with
    | none => pure none
    | some reference => do
      let reference ← opaqueReference reference "执行引用"
      pure (some reference)
  let fp ← fingerprint n.outputFingerprint "输出指纹"
  checkPresent n.failureCode fun code =>
    require (isSafeError code = true) (.validation "错误码格式无效。")
  pure { n with nodeId := nodeId.1, capabilityCode := capabilityCode.1,
                executionReference := reference, outputFingerprint := fp }

def nodeFromRecord (record : WorkflowNodeRunRecord) : Except LoadError WorkflowNodeRun := do
  let nodeType ← raises (WorkflowNodeType.ofValue record.nodeType)
  let status ← WorkflowNodeStatus.ofValue record.status
  raises (WorkflowNodeRun.make
    { id := record.id, nodeId := record.nodeId, nodeType, capabilityCode := record.capabilityCode,
      maxAttempts := record.maxAttempts, status, attemptCount := record.attemptCount,
      executionReference := record.executionReference, resultSummary := record.resultSummary,
      outputFingerprint := record.outputFingerprint, failureCode := record.failureCode,
      createdAt := record.createdAt.map timestamp, updatedAt := record.updatedAt.map timestamp })

def eventFromRecord (record : WorkflowEventRecord) : Except LoadError WorkflowEvent := do
  let eventType ← WorkflowEventType.ofValue record.eventType
  raises (WorkflowEvent.make
    { id := record.id, runId := record.runId, sequence := record.sequence,
      transitionId := record.transitionId, eventType, metadata := record.eventMetadata,
      createdAt := timestamp record.createdAt })

def runFromRecords (record : WorkflowRunRecord) (nodes : List WorkflowNodeRunRecord)
    (events : List WorkflowEventRecord) : Except LoadError WorkflowRun := do
  let status ← WorkflowRunStatus.ofValue record.status
  let nodes ← mapEach nodeFromRecord nodes
  let events ← mapEach eventFromRecord events
  pure { id := record.id, workflowCode := record.workflowCode,
         workflowVersion := record.workflowVersion, ownerSubject := record.ownerSubject,
         idempotencyKey := record.idempotencyKey, inputFingerprint := record.inputFingerprint,
         status, resultSummary := record.resultSummary, failureCode := record.failureCode,
         cancelRequestedAt := record.cancelRequestedAt.map timestamp,
         createdAt := record.createdAt.map timestamp, updatedAt := record.updatedAt.map timestamp,
         nodes, events }

/-! ## Constraints -/

/-- The database refuses the transaction. -/
inductive DatabaseError
  | rejected
  deriving DecidableEq

/-- The strings of the metadata. -/
def EventMetadata.texts (m : EventMetadata) : List String :=
  m.workflowCode.toList ++ m.workflowVersion.toList ++ m.nodeId.toList ++ m.errorCode.toList ++
    m.executionReference.toList ++
    (m.outputReferences.getD []).flatMap (fun p => [p.1, p.2]) ++ m.skipReason.toList ++
    m.cancelMode.toList

def WorkflowRunRecord.Accepted (r : WorkflowRunRecord) : Prop :=
  (∀ s ∈ [r.workflowCode, r.workflowVersion, r.ownerSubject, r.idempotencyKey, r.inputFingerprint],
    storableText s = true ∧ notBlank s = true) ∧
  (∀ s ∈ r.resultSummary.toList ++ r.failureCode.toList, storableText s = true) ∧
  r.createdAt.isSome ∧ r.updatedAt.isSome

def WorkflowNodeRunRecord.Accepted (r : WorkflowNodeRunRecord) : Prop :=
  (∀ s ∈ [r.nodeId, r.capabilityCode], storableText s = true ∧ notBlank s = true) ∧
  (∀ s ∈ r.executionReference.toList ++ r.resultSummary.toList ++ r.outputFingerprint.toList ++
    r.failureCode.toList, storableText s = true) ∧
  storableInt r.maxAttempts = true ∧ storableInt r.attemptCount = true ∧
  0 < r.maxAttempts ∧ r.attemptCount ≤ r.maxAttempts ∧ r.createdAt.isSome ∧ r.updatedAt.isSome

def WorkflowEventRecord.Accepted (r : WorkflowEventRecord) : Prop :=
  storableText r.transitionId = true ∧ notBlank r.transitionId = true ∧
  (∀ s ∈ r.eventMetadata.texts, storableText s = true) ∧
  storableInt r.sequence = true ∧ 0 < r.sequence

def WorkflowCommandReceipt.Accepted (r : WorkflowCommandReceipt) : Prop :=
  ∀ s ∈ [r.commandType, r.commandId], storableText s = true ∧ notBlank s = true

/-- Every row passes its checks, and the unique columns are unique. -/
structure WorkflowRows.Accepted (rows : WorkflowRows) : Prop where
  run : rows.run.Accepted
  nodes : ∀ r ∈ rows.nodes, r.Accepted
  events : ∀ r ∈ rows.events, r.Accepted
  receipts : ∀ r ∈ rows.receipts, r.Accepted
  nodePks : (rows.nodes.map WorkflowNodeRunRecord.id).Nodup
  nodeIds : (rows.nodes.map WorkflowNodeRunRecord.nodeId).Nodup
  eventPks : (rows.events.map WorkflowEventRecord.id).Nodup
  sequences : (rows.events.map WorkflowEventRecord.sequence).Nodup
  transitions : (rows.events.map WorkflowEventRecord.transitionId).Nodup
  uniqueReceipts : rows.receipts.Nodup

instance (r : WorkflowRunRecord) : Decidable r.Accepted := by
  unfold WorkflowRunRecord.Accepted; infer_instance

instance (r : WorkflowNodeRunRecord) : Decidable r.Accepted := by
  unfold WorkflowNodeRunRecord.Accepted; infer_instance

instance (r : WorkflowEventRecord) : Decidable r.Accepted := by
  unfold WorkflowEventRecord.Accepted; infer_instance

instance (r : WorkflowCommandReceipt) : Decidable r.Accepted := by
  unfold WorkflowCommandReceipt.Accepted; infer_instance

instance (rows : WorkflowRows) : Decidable rows.Accepted :=
  decidable_of_iff (rows.run.Accepted ∧ (∀ r ∈ rows.nodes, r.Accepted) ∧
    (∀ r ∈ rows.events, r.Accepted) ∧ (∀ r ∈ rows.receipts, r.Accepted) ∧
    (rows.nodes.map WorkflowNodeRunRecord.id).Nodup ∧
    (rows.nodes.map WorkflowNodeRunRecord.nodeId).Nodup ∧
    (rows.events.map WorkflowEventRecord.id).Nodup ∧
    (rows.events.map WorkflowEventRecord.sequence).Nodup ∧
    (rows.events.map WorkflowEventRecord.transitionId).Nodup ∧ rows.receipts.Nodup)
    ⟨fun ⟨a, b, c, d, e, f, g, h, i, j⟩ => ⟨a, b, c, d, e, f, g, h, i, j⟩,
      fun ⟨a, b, c, d, e, f, g, h, i, j⟩ => ⟨a, b, c, d, e, f, g, h, i, j⟩⟩

/-- `session.commit()` -/
def commit (rows : WorkflowRows) : Except DatabaseError WorkflowRows := do
  require rows.Accepted .rejected
  pure rows

/-! ## The repository -/

/-- The insertion of `create_or_get`. -/
def createRun (pg : Postgres) (run : WorkflowRun) : Except DatabaseError WorkflowRows :=
  commit { run := runToRecord run, nodes := run.nodes.map (nodeToRecord run.id),
           events := run.events.map (eventToRecord pg), receipts := [] }

/-- `save`'s loop over the nodes. -/
def saveNode (runId : UUID) (existing : List WorkflowNodeRunRecord)
    (records : List WorkflowNodeRunRecord) (node : WorkflowNodeRun) : List WorkflowNodeRunRecord :=
  match lookup WorkflowNodeRunRecord.id node.id existing with
  | none => records ++ [nodeToRecord runId node]
  | some record => replace WorkflowNodeRunRecord.id node.id (updateNodeRecord record node) records

def save (pg : Postgres) (rows : WorkflowRows) (run : WorkflowRun)
    (commandReceipt : Option WorkflowCommandReceipt) : Except DatabaseError WorkflowRows :=
  commit
    { run := updateRunRecord rows.run run
      nodes := run.nodes.foldl (saveNode run.id rows.nodes) rows.nodes
      events := rows.events ++ (run.events.filter fun e =>
        e.id ∉ rows.events.map WorkflowEventRecord.id).map (eventToRecord pg)
      receipts := rows.receipts ++ commandReceipt.toList.filter fun r => r ∉ rows.receipts }

def hasProcessedCommand (rows : WorkflowRows) (commandType commandId : String) : Prop :=
  ⟨commandType, commandId⟩ ∈ rows.receipts

instance (rows : WorkflowRows) (commandType commandId : String) :
    Decidable (hasProcessedCommand rows commandType commandId) := by
  unfold hasProcessedCommand; infer_instance

/-- `_from_record` -/
def loadRun (pg : Postgres) (rows : WorkflowRows) : Except LoadError WorkflowRun :=
  runFromRecords rows.run (orderBy pg.collation.le WorkflowNodeRunRecord.nodeId rows.nodes)
    (orderBy (· ≤ ·) WorkflowEventRecord.sequence rows.events)

/-! ## The rows of a run -/

variable {pg : Postgres} {rows rows' : WorkflowRows} {run run' : WorkflowRun}
  {n : WorkflowNodeRun} {e : WorkflowEvent} {receipt : Option WorkflowCommandReceipt}

/-- The rows are those of the run, in some order. -/
structure Stores (pg : Postgres) (rows : WorkflowRows) (run : WorkflowRun) : Prop where
  record : rows.run = runToRecord run
  nodes : rows.nodes.Perm (run.nodes.map (nodeToRecord run.id))
  events : rows.events.Perm (run.events.map (eventToRecord pg))

theorem commit_ok : commit rows = .ok rows' ↔ rows.Accepted ∧ rows' = rows := by
  simp [commit, eq_comm (a := rows')]

theorem stores_of_create (h : createRun pg run = .ok rows) :
    Stores pg rows run ∧ rows.Accepted ∧ rows.receipts = [] := by
  obtain ⟨hacc, rfl⟩ := commit_ok.1 h
  exact ⟨⟨rfl, .refl _, .refl _⟩, hacc, rfl⟩

namespace Stores

theorem nodePks (h : Stores pg rows run) :
    (rows.nodes.map WorkflowNodeRunRecord.id).Perm (run.nodes.map WorkflowNodeRun.id) := by
  have := h.nodes.map WorkflowNodeRunRecord.id
  rwa [List.map_map] at this

theorem eventPks (h : Stores pg rows run) :
    (rows.events.map WorkflowEventRecord.id).Perm (run.events.map WorkflowEvent.id) := by
  have := h.events.map WorkflowEventRecord.id
  rwa [List.map_map] at this

theorem transitions (h : Stores pg rows run) :
    (rows.events.map WorkflowEventRecord.transitionId).Perm
      (run.events.map WorkflowEvent.transitionId) := by
  have := h.events.map WorkflowEventRecord.transitionId
  rwa [List.map_map] at this

end Stores

/-! ## Saving -/

/-- The columns an update leaves alone. -/
def WorkflowNodeRunRecord.kept (r : WorkflowNodeRunRecord) :
    UUID × UUID × String × String × String × Nat × Option Int :=
  (r.id, r.runId, r.nodeId, r.nodeType, r.capabilityCode, r.maxAttempts, r.createdAt)

theorem updateNodeRecord_congr {r r' : WorkflowNodeRunRecord} (h : r.kept = r'.kept) :
    updateNodeRecord r n = updateNodeRecord r' n := by
  simp only [WorkflowNodeRunRecord.kept, Prod.mk.injEq] at h
  simp only [updateNodeRecord, WorkflowNodeRunRecord.mk.injEq, and_true, true_and]
  exact ⟨h.1, h.2.1, h.2.2.1, h.2.2.2.1, h.2.2.2.2.1, h.2.2.2.2.2.1, h.2.2.2.2.2.2⟩

/-- A record after the nodes were saved. -/
def savedRecord (nodes : List WorkflowNodeRun) (r : WorkflowNodeRunRecord) :
    WorkflowNodeRunRecord :=
  match lookup WorkflowNodeRun.id r.id nodes with
  | some node => updateNodeRecord r node
  | none => r

theorem savedRecord_cons (r : WorkflowNodeRunRecord) (nodes : List WorkflowNodeRun) :
    savedRecord (n :: nodes) r =
      if r.id = n.id then updateNodeRecord r n else savedRecord nodes r := by
  unfold savedRecord lookup
  rw [List.find?_cons]
  by_cases h : r.id = n.id
  · simp [h]
  · simp [h, Ne.symm h]

/-- Saving nodes that are all stored updates their records. -/
theorem foldl_saveNode {runId : UUID} {existing : List WorkflowNodeRunRecord}
    {nodes : List WorkflowNodeRun} (hnd : (nodes.map WorkflowNodeRun.id).Nodup)
    (hstored : ∀ n ∈ nodes, n.id ∈ existing.map WorkflowNodeRunRecord.id)
    {records : List WorkflowNodeRunRecord}
    (hkept : ∀ r ∈ records, ∀ x ∈ existing, r.id = x.id → r.kept = x.kept) :
    nodes.foldl (saveNode runId existing) records = records.map (savedRecord nodes) := by
  induction nodes generalizing records with
  | nil => exact (List.map_id' records).symm
  | cons n nodes ih =>
    rw [List.map_cons, List.nodup_cons] at hnd
    obtain ⟨x, hx⟩ := Option.isSome_iff_exists.1
      (lookup_isSome_iff.2 (hstored n List.mem_cons_self))
    have hstep : saveNode runId existing records n =
        records.map fun r => if r.id = n.id then updateNodeRecord r n else r := by
      rw [saveNode, hx]
      apply List.map_congr_left
      intro r hr
      split_ifs with hid
      · have hxid := key_of_lookup hx
        exact (updateNodeRecord_congr (hkept r hr x (mem_of_lookup hx) (hid.trans hxid.symm))).symm
      · rfl
    rw [List.foldl_cons, hstep, ih hnd.2 (fun m hm => hstored m (List.mem_cons_of_mem _ hm)),
      List.map_map]
    · apply List.map_congr_left
      intro r _
      rw [savedRecord_cons, Function.comp_apply]
      split_ifs with hid
      · -- The record of `n` is not saved again.
        have hnone : lookup WorkflowNodeRun.id (updateNodeRecord r n).id nodes = none := by
          rw [lookup_eq_none_iff]
          show r.id ∉ _
          rw [hid]
          exact hnd.1
        rw [savedRecord, hnone]
      · rfl
    · intro r hr y hy hid
      obtain ⟨r₀, hr₀, rfl⟩ := List.mem_map.1 hr
      split_ifs at hid ⊢
      · exact hkept r₀ hr₀ y hy hid
      · exact hkept r₀ hr₀ y hy hid

theorem savedRecord_eq {runId : UUID} {n₀ : WorkflowNodeRun} {nodes : List WorkflowNodeRun}
    (hnd : (nodes.map WorkflowNodeRun.id).Nodup) (hn : n ∈ nodes) (hc : n.constant = n₀.constant) :
    savedRecord nodes (nodeToRecord runId n₀) = nodeToRecord runId n := by
  simp only [WorkflowNodeRun.constant, Prod.mk.injEq] at hc
  obtain ⟨hid, hnode, htype, hcap, hmax, hcreated⟩ := hc
  have hlookup : lookup WorkflowNodeRun.id (nodeToRecord runId n₀).id nodes = some n := by
    rw [lookup_eq_some_iff hnd]
    exact ⟨hn, hid⟩
  rw [savedRecord, hlookup]
  simp only [updateNodeRecord, nodeToRecord, hid, hnode, hcap, hmax, hcreated]

theorem updateRunRecord_eq (h : run'.constant = run.constant) :
    updateRunRecord (runToRecord run) run' = runToRecord run' := by
  simp only [WorkflowRun.constant, Prod.mk.injEq] at h
  obtain ⟨hid, hcode, hversion, howner, hkey, hinput, hcreated⟩ := h
  simp only [updateRunRecord, runToRecord, hid, hcode, hversion, howner, hkey, hinput, hcreated]

theorem nodePks_of_evolves (hev : Evolves run run') :
    run'.nodes.map WorkflowNodeRun.id = run.nodes.map WorkflowNodeRun.id := by
  have := congrArg (List.map Prod.fst) hev.nodes
  simpa [List.map_map, Function.comp_def, WorkflowNodeRun.constant] using this

/-- The nodes of a run that evolved are saved over the earlier ones. -/
theorem nodes_of_save (h : Stores pg rows run) (hacc : rows.Accepted) (hev : Evolves run run') :
    (run'.nodes.foldl (saveNode run'.id rows.nodes) rows.nodes).Perm
      (run'.nodes.map (nodeToRecord run'.id)) := by
  have hid : run'.id = run.id := congrArg Prod.fst hev.constant
  have hpks := nodePks_of_evolves hev
  have hnd : (run'.nodes.map WorkflowNodeRun.id).Nodup := by
    rw [hpks]
    exact h.nodePks.nodup_iff.1 hacc.nodePks
  have hstored : ∀ n ∈ run'.nodes, n.id ∈ rows.nodes.map WorkflowNodeRunRecord.id := by
    intro n hn
    rw [h.nodePks.mem_iff, ← hpks]
    exact List.mem_map_of_mem hn
  rw [foldl_saveNode hnd hstored]
  · have hlists : run.nodes.map (fun n => savedRecord run'.nodes (nodeToRecord run.id n)) =
        run'.nodes.map (nodeToRecord run'.id) := by
      have hall : List.Forall₂ (fun n n' => n'.constant = n.constant) run.nodes run'.nodes := by
        have := hev.nodes
        rw [eq_comm, ← List.forall₂_eq_eq_eq, List.forall₂_map_left_iff,
          List.forall₂_map_right_iff] at this
        exact this.imp fun _ _ h => h.symm
      rw [← List.forall₂_eq_eq_eq, List.forall₂_map_left_iff, List.forall₂_map_right_iff]
      have hmem := List.forall₂_iff_get.1 hall
      rw [List.forall₂_iff_get]
      refine ⟨hmem.1, fun i hi hi' => ?_⟩
      rw [hid]
      exact savedRecord_eq hnd (List.get_mem _ _) (hmem.2 i hi hi')
    have := h.nodes.map (savedRecord run'.nodes)
    rw [List.map_map] at this
    rw [← hlists]
    exact this
  · intro r hr x hx hrx
    exact congrArg _ (List.inj_on_of_nodup_map hacc.nodePks hr hx hrx)

/-- The events not stored yet are the new ones. -/
theorem events_of_save (h : Stores pg rows run) (hev : run.events <+: run'.events)
    (hnd : (run'.events.map WorkflowEvent.id).Nodup) :
    (rows.events ++ (run'.events.filter fun e =>
      e.id ∉ rows.events.map WorkflowEventRecord.id).map (eventToRecord pg)).Perm
        (run'.events.map (eventToRecord pg)) := by
  obtain ⟨new, hnew⟩ := hev
  rw [← hnew] at hnd ⊢
  rw [List.map_append, List.nodup_append] at hnd
  obtain ⟨-, -, hdisj⟩ := hnd
  have hold : run.events.filter (fun e => e.id ∉ rows.events.map WorkflowEventRecord.id) = [] := by
    rw [List.filter_eq_nil_iff]
    intro e he
    rw [decide_eq_true_eq, not_not, h.eventPks.mem_iff]
    exact List.mem_map_of_mem he
  have hfresh : new.filter (fun e => e.id ∉ rows.events.map WorkflowEventRecord.id) = new := by
    rw [List.filter_eq_self]
    intro e he
    rw [decide_eq_true_eq, h.eventPks.mem_iff]
    intro hmem
    exact hdisj _ hmem _ (List.mem_map_of_mem he) rfl
  rw [List.filter_append, hold, hfresh, List.nil_append, List.map_append]
  exact h.events.append_right _

/-- **Saving a run over an earlier version of it stores the run.** -/
theorem stores_of_save (h : Stores pg rows run) (hacc : rows.Accepted) (hev : Evolves run run')
    (hnd : (run'.events.map WorkflowEvent.id).Nodup)
    (hs : save pg rows run' receipt = .ok rows') :
    Stores pg rows' run' ∧ rows'.Accepted ∧ rows.events <+: rows'.events ∧
      rows'.receipts = rows.receipts ++ receipt.toList.filter fun r => r ∉ rows.receipts := by
  obtain ⟨hacc', rfl⟩ := commit_ok.1 hs
  refine ⟨⟨?_, nodes_of_save h hacc hev, events_of_save h hev.events hnd⟩, hacc',
    List.prefix_append _ _, rfl⟩
  show updateRunRecord rows.run run' = _
  rw [h.record]
  exact updateRunRecord_eq hev.constant

/-! ## Loading -/

/-- The event with its metadata as the database gives them back. -/
def WorkflowEvent.reloaded (pg : Postgres) (e : WorkflowEvent) : WorkflowEvent :=
  { e with metadata := e.metadata.stored pg }

/-- The run as it is read back: its nodes in the order of their ids. -/
def WorkflowRun.reloaded (pg : Postgres) (run : WorkflowRun) : WorkflowRun :=
  { run with nodes := orderBy pg.collation.le WorkflowNodeRun.nodeId run.nodes
             events := run.events.map (WorkflowEvent.reloaded pg) }

theorem timestamp_instant {d : DateTime} (h : d.tzAware = true) : timestamp d.instant = d := by
  cases d
  cases h
  rfl

theorem timed_stored {d : Option DateTime} (h : Timed d) :
    (d.map DateTime.instant).map timestamp = d := by
  obtain ⟨t, rfl, ht⟩ := h
  rw [Option.map_some, Option.map_some, timestamp_instant ht]

@[simp] theorem raises_ok {α : Type} {x : Except WorkflowError α} {a : α} :
    raises x = .ok a ↔ x = .ok a := by
  cases x <;> simp [raises]

theorem fingerprint_self {fp : Option String} {label : String}
    (h : ∀ s, fp = some s → isSafeFingerprint s = true) : fingerprint fp label = .ok fp := by
  cases fp with
  | none => rfl
  | some s =>
    have hs := h s rfl
    obtain ⟨hne, hsp⟩ := isSafeReference_no_space (show isSafeReference s = true from hs)
    simp [fingerprint, text_self label hne hsp, hs]

/-- A storable node passes its constructor unchanged. -/
theorem make_of_storable (h : n.Storable) : WorkflowNodeRun.make n = .ok n := by
  have hid : identifier n.nodeId "节点标识" = .ok ⟨n.nodeId, h.nodeId⟩ :=
    identifier_self ⟨n.nodeId, h.nodeId⟩ _
  have hcap : identifier n.capabilityCode "能力代码" = .ok ⟨n.capabilityCode, h.capabilityCode⟩ :=
    identifier_self ⟨n.capabilityCode, h.capabilityCode⟩ _
  have hfail : checkPresent n.failureCode (fun code =>
      require (isSafeError code = true) (.validation "错误码格式无效。")) = .ok () := by
    rw [checkPresent_ok]
    intro code hcode
    rw [require_ok]
    exact h.failureCode code hcode
  cases href : n.executionReference with
  | none =>
    simp only [WorkflowNodeRun.make, hid, hcap, href, except_bind_ok, exists_unit, require_ok,
      h.maxAttempts, h.attempts, fingerprint_self h.fingerprint, hfail, except_pure_ok,
      Except.ok.injEq, exists_eq_left', true_and]
    rw [← href]
  | some s =>
    have hs : opaqueReference s "执行引用" = .ok s := opaqueReference_self (h.reference s href)
    simp only [WorkflowNodeRun.make, hid, hcap, href, except_bind_ok, exists_unit, require_ok,
      h.maxAttempts, h.attempts, fingerprint_self h.fingerprint, hfail, hs, except_pure_ok,
      Except.ok.injEq, exists_eq_left', true_and]
    rw [← href]

theorem nodeFromRecord_eq {runId : UUID} (h : n.Storable) :
    nodeFromRecord (nodeToRecord runId n) = .ok n := by
  simp only [nodeFromRecord, nodeToRecord, nodeType_ofValue, nodeStatus_ofValue, except_bind_ok,
    raises_ok, Except.ok.injEq, exists_eq_left', timed_stored h.created, timed_stored h.updated]
  cases hty : n.nodeType
  exact ⟨.capability, trivial, hty ▸ make_of_storable h⟩

theorem keys_stored {m : EventMetadata} : (m.stored pg).keys = m.keys := by
  cases m with
  | mk code version node attempt error reference outputs reason mode =>
    cases outputs with
    | none => rfl
    | some outputs => rfl

/-- What the checks of the metadata see does not depend on the order of an object. -/
theorem checkMetadata_stored {ty : WorkflowEventType} {m : EventMetadata} :
    checkMetadata ty (m.stored pg) = .ok () ↔ checkMetadata ty m = .ok () := by
  simp only [checkMetadata, except_bind_ok, exists_unit, require_ok, checkPresent_ok, keys_stored]
  simp [EventMetadata.stored]

theorem eventFromRecord_eq (h : checkEvent e = .ok ()) :
    eventFromRecord (eventToRecord pg e) = .ok (e.reloaded pg) := by
  obtain ⟨hseq, ht, hm, htz⟩ := checkEvent_ok.1 h
  simp only [eventFromRecord, eventToRecord, eventType_ofValue, except_bind_ok, raises_ok,
    Except.ok.injEq, exists_eq_left', timestamp_instant htz, WorkflowEvent.make_ok]
  exact ⟨checkEvent_ok.2 ⟨hseq, ht, checkMetadata_stored.2 hm, htz⟩, rfl⟩

/-- Reading back what was written, element by element. -/
theorem mapEach_map {ε α β γ : Type} {f : β → Except ε γ} {g : α → β} {h : α → γ} {as : List α}
    (hf : ∀ a ∈ as, f (g a) = .ok (h a)) : mapEach f (as.map g) = .ok (as.map h) := by
  rw [mapEach_ok, List.forall₂_map_left_iff, List.forall₂_map_right_iff, List.forall₂_same]
  exact hf

theorem orderBy_nodes (h : Stores pg rows run)
    (hnd : (run.nodes.map WorkflowNodeRun.nodeId).Nodup) :
    orderBy pg.collation.le WorkflowNodeRunRecord.nodeId rows.nodes =
      (run.reloaded pg).nodes.map (nodeToRecord run.id) := by
  apply orderBy_eq
  · exact h.nodes.trans (orderBy_perm.symm.map _)
  · rw [List.map_map]
    exact (orderBy_perm.map WorkflowNodeRun.nodeId).nodup_iff.2 hnd
  · rw [List.pairwise_map]
    exact orderBy_pairwise

theorem orderBy_events (h : Stores pg rows run) (hst : run.Storable) :
    orderBy (· ≤ ·) WorkflowEventRecord.sequence rows.events =
      run.events.map (eventToRecord pg) := by
  have hseq : (run.events.map (eventToRecord pg)).map WorkflowEventRecord.sequence =
      List.range' 1 run.events.length := by
    rw [List.map_map]
    exact hst.numbered
  have hlt := List.pairwise_lt_range' (s := 1) (n := run.events.length)
  apply orderBy_eq h.events
  · rw [hseq]
    exact hlt.imp Nat.ne_of_lt
  · rw [← hseq, List.pairwise_map] at hlt
    exact hlt.imp Nat.le_of_lt

/-- **Loading gives the stored run back**, with its nodes in the order of their ids. -/
theorem load_of_stores (h : Stores pg rows run) (hst : run.Storable)
    (hnd : (run.nodes.map WorkflowNodeRun.nodeId).Nodup) :
    loadRun pg rows = .ok (run.reloaded pg) := by
  have hnodes : mapEach nodeFromRecord ((run.reloaded pg).nodes.map (nodeToRecord run.id)) =
      .ok ((run.reloaded pg).nodes.map id) :=
    mapEach_map fun n hn => nodeFromRecord_eq (hst.nodes n (mem_orderBy.1 hn))
  have hevents : mapEach eventFromRecord (run.events.map (eventToRecord pg)) =
      .ok (run.reloaded pg).events :=
    mapEach_map fun e he => eventFromRecord_eq (hst.checked e he)
  have hcancel : (run.cancelRequestedAt.map DateTime.instant).map timestamp =
      run.cancelRequestedAt := by
    cases hc : run.cancelRequestedAt with
    | none => rfl
    | some t => rw [Option.map_some, Option.map_some, timestamp_instant (hst.cancelled t hc)]
  rw [List.map_id] at hnodes
  rw [loadRun, orderBy_nodes h hnd, orderBy_events h hst, h.record]
  simp only [runFromRecords, runToRecord, runStatus_ofValue, hnodes, hevents, except_bind_ok,
    Except.ok.injEq, exists_eq_left', except_pure_ok, timed_stored hst.created,
    timed_stored hst.updated, hcancel]
  rfl

end GoAgent.Workflow
