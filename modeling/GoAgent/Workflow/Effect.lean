import GoAgent.Foundation.Ledger
import GoAgent.Workflow.Run

/-!
# What an accepted command does

`Effect v call run c run'` lists every way a command `c` that returns can change a run, with
the run it leaves written out over a few pure operations: putting a node run in its place,
logging an event, refreshing the status.

* `effect_of_execute` — an accepted command has one of these effects.
* `Instantiates` — the nodes of a run are those of its version; no command changes that.

Everything proved about runs goes through these two; no later proof unfolds a command.
-/

namespace GoAgent.Workflow

open GoAgent.Foundation

/-! ## Runs of a version -/

/-- What a node run keeps of its definition. -/
def WorkflowNodeRun.fixed (n : WorkflowNodeRun) : String × WorkflowNodeType × String × Nat :=
  (n.nodeId, n.nodeType, n.capabilityCode, n.maxAttempts)

def WorkflowNodeDefinition.fixed (d : WorkflowNodeDefinition) :
    String × WorkflowNodeType × String × Nat :=
  (nodeIdOf d, d.nodeType, d.capabilityCode.1, d.maxAttempts)

/-- The nodes are those of the version, in some order. -/
def Instantiates (v : WorkflowVersion) (nodes : List WorkflowNodeRun) : Prop :=
  (nodes.map WorkflowNodeRun.fixed).Perm (v.nodes.map WorkflowNodeDefinition.fixed)

namespace Instantiates

variable {v : WorkflowVersion} {nodes nodes' : List WorkflowNodeRun} {n : WorkflowNodeRun}

theorem perm (h : Instantiates v nodes) (hp : nodes'.Perm nodes) : Instantiates v nodes' :=
  (hp.map _).trans h

theorem nodeIds (h : Instantiates v nodes) : (nodes.map WorkflowNodeRun.nodeId).Perm v.nodeIds := by
  have := h.map Prod.fst
  simpa [List.map_map, Function.comp_def, WorkflowNodeRun.fixed, WorkflowNodeDefinition.fixed,
    WorkflowVersion.nodeIds] using this

theorem nodup (h : Instantiates v nodes) : (nodes.map WorkflowNodeRun.nodeId).Nodup :=
  h.nodeIds.nodup_iff.2 v.nodeIds_nodup

theorem mem_nodeIds {i : String} (h : Instantiates v nodes) :
    i ∈ nodes.map WorkflowNodeRun.nodeId ↔ i ∈ v.nodeIds := h.nodeIds.mem_iff

theorem definition (h : Instantiates v nodes) (hn : n ∈ nodes) : ∃ d ∈ v.nodes, d.fixed = n.fixed := by
  have hmem : n.fixed ∈ v.nodes.map WorkflowNodeDefinition.fixed :=
    h.mem_iff.1 (List.mem_map_of_mem hn)
  simpa using hmem

theorem isIdentifier (h : Instantiates v nodes) (hn : n ∈ nodes) : isIdentifier n.nodeId = true := by
  obtain ⟨d, -, hd⟩ := h.definition hn
  have : nodeIdOf d = n.nodeId := congrArg Prod.fst hd
  rw [← this]
  exact d.nodeId.2

end Instantiates

namespace WorkflowRun

variable {v : WorkflowVersion} {run run' : WorkflowRun} {call : Call} {nodeId i : String}
  {n n' : WorkflowNodeRun}

/-! ## Writing a run -/

theorem mem_of_node? (h : run.node? nodeId = some n) : n ∈ run.nodes := mem_of_lookup h

theorem nodeId_of_node? (h : run.node? nodeId = some n) : n.nodeId = nodeId := key_of_lookup h

@[simp] theorem node_ok : run.node nodeId = .ok n ↔ run.node? nodeId = some n := by
  unfold node
  cases run.node? nodeId <;> simp

/-- Log an event unless its transition id is logged. -/
def record (run : WorkflowRun) (call : Call) (transitionId : String)
    (eventType : WorkflowEventType) (metadata : EventMetadata) : WorkflowRun :=
  let event := run.nextEvent call transitionId eventType metadata
  { run with events := post WorkflowEvent.transitionId event run.events }

/-- Log the event of a node's transition. -/
def recordNode (run : WorkflowRun) (call : Call) (suffix : String) (n : WorkflowNodeRun)
    (eventType : WorkflowEventType) (metadata : EventMetadata) : WorkflowRun :=
  run.record call (call.commandId ++ suffix) eventType { metadata with nodeId := some n.nodeId }

def withStatus (run : WorkflowRun) (status : WorkflowRunStatus) : WorkflowRun :=
  { run with status }

def touched (run : WorkflowRun) (call : Call) : WorkflowRun :=
  { run with updatedAt := some call.now }

/-- The first start puts the run to work. -/
def begun (run : WorkflowRun) (call : Call) : WorkflowRun :=
  if run.status = .queued then
    (run.withStatus .running).record call (call.commandId ++ ":run-start") .runStarted {}
  else run

def refreshed (run : WorkflowRun) (call : Call) : WorkflowRun :=
  if ∀ n ∈ run.nodes, n.status.Complete then
    ({ run with status := .succeeded, resultSummary := some "Workflow 节点已全部完成。" } :
      WorkflowRun).record call call.commandId .runSucceeded {}
  else if ∃ n ∈ run.nodes, n.status = .accepted then run.withStatus .accepted
  else if run.status = .accepted then run.withStatus .running
  else run

def failedWith (run : WorkflowRun) (nodeId code : String) (call : Call) : WorkflowRun :=
  ({ run with status := .failed, failureCode := some code } : WorkflowRun).record call
    (call.commandId ++ ":run-failed") .runFailed { nodeId := some nodeId, errorCode := some code }

def cancelMetadata (n : WorkflowNodeRun) : EventMetadata :=
  if n.status.Active then { attemptNumber := some n.attemptCount }
  else { cancelMode := some "queued" }

def cancelNode (run : WorkflowRun) (call : Call) (n : WorkflowNodeRun) : WorkflowRun :=
  (run.put n.nodeId (n.cancelRequestedAt call.now)).recordNode call (":" ++ n.nodeId ++ ":cancel") n
    (if n.status.Active then .nodeCancelRequested else .nodeCancelled) (cancelMetadata n)

/-- Cancel the cancellable ones of the named nodes. -/
def cancelEach (call : Call) : List String → WorkflowRun → WorkflowRun
  | [], run => run
  | nodeId :: rest, run =>
    match run.node? nodeId with
    | some n => cancelEach call rest (if n.status.Cancellable then run.cancelNode call n else run)
    | none => cancelEach call rest run

/-- A run whose nodes are all closed is cancelled. -/
def closed (run : WorkflowRun) (call : Call) (transitionId : String) : WorkflowRun :=
  if ∀ n ∈ run.nodes, n.status.Closed then
    (run.withStatus .cancelled).record call transitionId .runCancelled {}
  else run

/-- A requested cancellation is complete with the last node's. -/
def cancelSettled (run : WorkflowRun) (call : Call) : WorkflowRun :=
  if run.status = .cancelRequested then run.closed call call.commandId else run

def cancelStarted (run : WorkflowRun) (call : Call) : WorkflowRun :=
  ({ run with status := .cancelRequested, cancelRequestedAt := some call.now } : WorkflowRun).record
    call (call.commandId ++ ":run-cancel-requested") .runCancelRequested {}

section Fields

variable {t suffix : String} {ty : WorkflowEventType} {m : EventMetadata} {s : WorkflowRunStatus}

@[simp] theorem put_status : (run.put nodeId n).status = run.status := rfl
@[simp] theorem put_events : (run.put nodeId n).events = run.events := rfl
@[simp] theorem put_id : (run.put nodeId n).id = run.id := rfl

@[simp] theorem record_status : (run.record call t ty m).status = run.status := rfl
@[simp] theorem record_nodes : (run.record call t ty m).nodes = run.nodes := rfl
@[simp] theorem record_id : (run.record call t ty m).id = run.id := rfl
@[simp] theorem record_node? : (run.record call t ty m).node? i = run.node? i := rfl

@[simp] theorem recordNode_status : (run.recordNode call suffix n ty m).status = run.status := rfl
@[simp] theorem recordNode_nodes : (run.recordNode call suffix n ty m).nodes = run.nodes := rfl
@[simp] theorem recordNode_id : (run.recordNode call suffix n ty m).id = run.id := rfl
@[simp] theorem recordNode_node? : (run.recordNode call suffix n ty m).node? i = run.node? i := rfl

@[simp] theorem withStatus_status : (run.withStatus s).status = s := rfl
@[simp] theorem withStatus_nodes : (run.withStatus s).nodes = run.nodes := rfl
@[simp] theorem withStatus_events : (run.withStatus s).events = run.events := rfl
@[simp] theorem withStatus_id : (run.withStatus s).id = run.id := rfl
@[simp] theorem withStatus_node? : (run.withStatus s).node? i = run.node? i := rfl

@[simp] theorem touched_status : (run.touched call).status = run.status := rfl
@[simp] theorem touched_nodes : (run.touched call).nodes = run.nodes := rfl
@[simp] theorem touched_events : (run.touched call).events = run.events := rfl
@[simp] theorem touched_id : (run.touched call).id = run.id := rfl
@[simp] theorem touched_node? : (run.touched call).node? i = run.node? i := rfl

@[simp] theorem failedWith_status {code : String} :
    (run.failedWith nodeId code call).status = .failed := rfl
@[simp] theorem failedWith_nodes {code : String} :
    (run.failedWith nodeId code call).nodes = run.nodes := rfl
@[simp] theorem failedWith_node? {code : String} :
    (run.failedWith nodeId code call).node? i = run.node? i := rfl

@[simp] theorem cancelStarted_status : (run.cancelStarted call).status = .cancelRequested := rfl
@[simp] theorem cancelStarted_nodes : (run.cancelStarted call).nodes = run.nodes := rfl
@[simp] theorem cancelStarted_node? : (run.cancelStarted call).node? i = run.node? i := rfl

@[simp] theorem begun_nodes : (run.begun call).nodes = run.nodes := by
  unfold begun
  split_ifs <;> rfl

@[simp] theorem begun_node? : (run.begun call).node? i = run.node? i := by simp [node?]

@[simp] theorem refreshed_nodes : (run.refreshed call).nodes = run.nodes := by
  unfold refreshed
  split_ifs <;> rfl

@[simp] theorem refreshed_node? : (run.refreshed call).node? i = run.node? i := by simp [node?]

@[simp] theorem closed_nodes : (run.closed call t).nodes = run.nodes := by
  unfold closed
  split_ifs <;> rfl

theorem closed_of_all (h : ∀ n ∈ run.nodes, n.status.Closed) :
    run.closed call t = (run.withStatus .cancelled).record call t .runCancelled {} := if_pos h

theorem closed_of_not (h : ¬∀ n ∈ run.nodes, n.status.Closed) : run.closed call t = run := if_neg h

@[simp] theorem closed_node? : (run.closed call t).node? i = run.node? i := by simp [node?]

@[simp] theorem cancelSettled_nodes : (run.cancelSettled call).nodes = run.nodes := by
  unfold cancelSettled
  split_ifs
  · exact closed_nodes
  · rfl

@[simp] theorem cancelSettled_node? : (run.cancelSettled call).node? i = run.node? i := by
  simp [node?]

end Fields

theorem node?_put (hn' : n'.nodeId = nodeId) (hn : run.node? nodeId = some n) :
    (run.put nodeId n').node? i = if i = nodeId then some n' else run.node? i :=
  lookup_replace hn' hn

/-- Putting a node back changes nothing. -/
theorem put_self (hnd : (run.nodes.map WorkflowNodeRun.nodeId).Nodup)
    (hn : run.node? nodeId = some n) : run.put nodeId n = run := by
  unfold put
  have hmap : (replace WorkflowNodeRun.nodeId nodeId n run.nodes).map (fun r => r) =
      run.nodes.map fun r => r := map_replace hnd hn rfl
  rw [List.map_id', List.map_id'] at hmap
  rw [hmap]

theorem instantiates_put (h : Instantiates v run.nodes) (hn : run.node? nodeId = some n)
    (hf : n'.fixed = n.fixed) : Instantiates v (run.put nodeId n').nodes := by
  unfold Instantiates put
  rw [map_replace h.nodup hn hf]
  exact h

/-! ## Inverting the primitives -/

theorem onNode_ok {α : Type} {method : NodeM α} {a : α} :
    onNode nodeId method run = .ok a run' ↔
      ∃ n n', run.node? nodeId = some n ∧ method n = .ok a n' ∧ run' = run.put nodeId n' := by
  unfold onNode
  cases run.node? nodeId with
  | none => simp
  | some n => cases h : method n <;> simp [h, eq_comm (a := run')]

theorem record_of_logged {t : String} {ty : WorkflowEventType} {m : EventMetadata}
    (h : run.hasTransition t) : run.record call t ty m = run := by
  have hpost : post WorkflowEvent.transitionId (run.nextEvent call t ty m) run.events =
    run.events := post_of_logged (by exact h)
  simp only [record, hpost]

theorem record_of_fresh {t : String} {ty : WorkflowEventType} {m : EventMetadata}
    (h : ¬run.hasTransition t) : run.record call t ty m =
      { run with events := run.events ++ [run.nextEvent call t ty m] } := by
  have hpost : post WorkflowEvent.transitionId (run.nextEvent call t ty m) run.events =
    run.events ++ [run.nextEvent call t ty m] := post_of_fresh (by exact h)
  simp only [record, hpost]

theorem hasTransition_record {t t' : String} {ty : WorkflowEventType} {m : EventMetadata} :
    (run.record call t ty m).hasTransition t' ↔ run.hasTransition t' ∨ t' = t := by
  by_cases h : run.hasTransition t
  · rw [record_of_logged h]
    exact ⟨Or.inl, fun h' => h'.elim (fun h => h) fun ht => ht ▸ h⟩
  · rw [record_of_fresh h]
    simp [hasTransition, nextEvent, or_and_right, exists_or, eq_comm (a := t)]

theorem appendEvent_ok {t : String} {ty : WorkflowEventType} {m : EventMetadata} :
    appendEvent call t ty m run = .ok () run' ↔
      (¬run.hasTransition t → checkEvent (run.nextEvent call t ty m) = .ok ()) ∧
        run' = run.record call t ty m := by
  by_cases h : run.hasTransition t
  · simp [appendEvent, h, record_of_logged h]
  · simp only [appendEvent, bind_ok, get_ok, exists_eq_left, exists_and_left, h, if_false, lift_ok,
      utc_ok, WorkflowEvent.make_ok, modify_ok, and_assoc, not_false_eq_true, true_imp_iff,
      record_of_fresh h]
    constructor
    · intro h
      exact h.2
    · intro h
      exact ⟨(checkEvent_ok.1 h.1).2.2.2, h⟩

/-- The event a node method returned passes its check again in the run's log. -/
theorem appendExisting_ok {run₀ : WorkflowRun} {suffix : String} {ty : WorkflowEventType}
    {m : EventMetadata} {e : WorkflowEvent}
    (he : nodeEvent n ty (run₀.occasion call suffix) m = .ok e) :
    appendExisting call e run = .ok () run' ↔ run' = run.recordNode call suffix n ty m := by
  obtain ⟨rfl, hc⟩ := nodeEvent_ok.1 he
  have ht : (nodeEventOf n ty (run₀.occasion call suffix) m).transitionId =
    call.commandId ++ suffix := rfl
  unfold recordNode
  by_cases h : run.hasTransition (call.commandId ++ suffix)
  · rw [record_of_logged h]
    simp [appendExisting, ht, h]
  · have hc' : checkEvent (run.nextEvent call (call.commandId ++ suffix) ty
        { m with nodeId := some n.nodeId }) = .ok () := by
      rw [checkEvent_ok] at hc ⊢
      exact ⟨Nat.succ_pos _, hc.2⟩
    rw [record_of_fresh h]
    simp only [appendExisting, ht, bind_ok, get_ok, exists_eq_left, exists_and_left, h, if_false,
      lift_ok, WorkflowEvent.make_ok, modify_ok, and_assoc]
    exact ⟨fun h => h.2, fun h => ⟨hc', h⟩⟩

theorem touch_ok {label : String} : touch call label run = .ok () run' ↔
    call.now.tzAware = true ∧ run' = run.touched call := by
  simp [touch, touched, and_assoc]

theorem checkEvent_nextEvent {suffix : String} {ty : WorkflowEventType} {m : EventMetadata}
    (hs : isBlank suffix = false) (hm : checkMetadata ty m = .ok ())
    (hnow : call.now.tzAware = true) :
    checkEvent (run.nextEvent call (call.commandId ++ suffix) ty m) = .ok () :=
  checkEvent_ok.2 ⟨Nat.succ_pos _, isBlank_append_right hs, hm, hnow⟩

theorem refreshStatus_ok : refreshStatus call run = .ok () run' ↔
    ((∀ n ∈ run.nodes, n.status.Complete) → ¬run.hasTransition call.commandId →
      isBlank call.commandId = false ∧ call.now.tzAware = true) ∧
    run' = run.refreshed call := by
  unfold refreshStatus refreshed
  simp only [bind_ok, get_ok, exists_eq_left, exists_and_left, and_assoc]
  split_ifs with hall hacc hst
  · have hcheck : ∀ r : WorkflowRun,
        checkEvent (r.nextEvent call call.commandId .runSucceeded {}) = .ok () ↔
          isBlank call.commandId = false ∧ call.now.tzAware = true := fun r => by
      have hm : checkMetadata .runSucceeded {} = .ok () := by decide
      rw [checkEvent_ok]
      exact ⟨fun h => ⟨h.2.1, h.2.2.2⟩, fun h => ⟨Nat.succ_pos _, h.1, hm, h.2⟩⟩
    simp only [bind_ok, exists_unit, modify_ok, exists_eq_left, appendEvent_ok, hcheck]
    exact Iff.and ⟨fun h _ => h, fun h => h hall⟩ Iff.rfl
  · simp [hall, withStatus]
  · simp [hall, withStatus]
  · simp [hall]

end WorkflowRun

/-! ## Effects -/

open WorkflowRun

/-- The ways an accepted command changes a run. -/
inductive Effect (v : WorkflowVersion) (call : Call) (run : WorkflowRun) :
    WorkflowCommand → WorkflowRun → Prop
  | start {nodeId : String} {n : WorkflowNodeRun} {ready : List String}
      (open_ : ¬run.status.Shut) (hready : run.readyNodes v = .ok ready) (hmem : nodeId ∈ ready)
      (hn : run.node? nodeId = some n) (hq : n.status = .queued)
      (hattempt : n.attemptCount < n.maxAttempts) :
      Effect v call run (.startNode nodeId)
        ((((run.put nodeId (n.started call.now)).begun call).recordNode call ":start"
          (n.started call.now) .nodeStarted (n.started call.now).startedMetadata).touched call)
  /-- A repeated acceptance that was logged. -/
  | acceptLogged {nodeId reference : String} {n : WorkflowNodeRun} {e : WorkflowEvent}
      (open_ : ¬run.status.Shut) (hn : run.node? nodeId = some n) (ha : n.status = .accepted)
      (hlog : run.findLatestNodeEvent nodeId .nodeAccepted = some e) :
      Effect v call run (.acceptNode nodeId reference) run
  | accept {nodeId reference : String} {n n' : WorkflowNodeRun}
      (open_ : ¬run.status.Shut) (hn : run.node? nodeId = some n)
      (hn' : n.status = .running ∧ isSafeReference (strip reference) = true ∧
          n' = n.acceptedWith (strip reference) call.now ∨
        n.status = .accepted ∧ n' = n ∧ run.findLatestNodeEvent nodeId .nodeAccepted = none) :
      Effect v call run (.acceptNode nodeId reference)
        (((((run.put nodeId n').withStatus .accepted).recordNode call ":accept" n' .nodeAccepted
          n'.acceptedMetadata).record call (call.commandId ++ ":run-accepted") .runAccepted
          { nodeId := some nodeId }).touched call)
  /-- A repeated success report that was logged. -/
  | succeedLogged {nodeId summary : String} {fp : Option String} {outputs : References}
      {n : WorkflowNodeRun} {e : WorkflowEvent}
      (hn : run.node? nodeId = some n) (hs : n.status = .succeeded)
      (hlog : run.findLatestNodeEvent nodeId .nodeSucceeded = some e) :
      Effect v call run (.succeedNode nodeId summary fp outputs) run
  | succeed {nodeId summary : String} {fp fp' : Option String} {outputs : References}
      {n : WorkflowNodeRun} {d : WorkflowNodeDefinition}
      (hn : run.node? nodeId = some n) (hact : n.status.Active) (hd : v.node nodeId = .ok d)
      (hout : ∀ f, f ∈ outputs.map Prod.fst ↔ f ∈ d.outputFields.1)
      (hfp : fingerprint fp "输出指纹" = .ok fp') :
      Effect v call run (.succeedNode nodeId summary fp outputs)
        (((run.put nodeId (n.succeededWith (strip summary) fp' call.now)).recordNode call ":succeed"
          (n.succeededWith (strip summary) fp' call.now) .nodeSucceeded
          (n.succeededMetadata outputs)).refreshed call)
  /-- A repeated success report that was not logged: its node declares no outputs. -/
  | succeedUnlogged {nodeId summary : String} {fp : Option String} {outputs : References}
      {n : WorkflowNodeRun} (hn : run.node? nodeId = some n) (hs : n.status = .succeeded)
      (hlog : run.findLatestNodeEvent nodeId .nodeSucceeded = none) (hout : outputs = []) :
      Effect v call run (.succeedNode nodeId summary fp outputs)
        ((run.recordNode call ":succeed" n .nodeSucceeded (n.succeededMetadata outputs)).refreshed
          call)
  | reject {nodeId code : String} {n : WorkflowNodeRun} (open_ : ¬run.status.Shut)
      (hn : run.node? nodeId = some n) (hq : n.status = .queued)
      (hcode : isSafeError (strip code) = true) :
      Effect v call run (.rejectNodeInput nodeId code)
        ((((run.put nodeId (n.rejectedWith (strip code) call.now)).recordNode call ":reject-input"
          (n.rejectedWith (strip code) call.now) .nodeInputRejected
          { errorCode := some (strip code) }).failedWith nodeId (strip code) call).touched call)
  | retry {nodeId code : String} {retryable : Bool} {n : WorkflowNodeRun}
      (hn : run.node? nodeId = some n) (hact : n.status.Active) (hr : n.Retries retryable)
      (hcode : isSafeError (strip code) = true) :
      Effect v call run (.failNode nodeId code retryable)
        (((run.put nodeId (n.failedWith (strip code) retryable call.now)).recordNode call ":fail"
          (n.failedWith (strip code) retryable call.now) .nodeRetryScheduled
          { attemptNumber := some n.attemptCount, errorCode := some (strip code) }).touched call)
  | fail {nodeId code : String} {retryable : Bool} {n : WorkflowNodeRun}
      (hn : run.node? nodeId = some n) (hact : n.status.Active) (hr : ¬n.Retries retryable)
      (hcode : isSafeError (strip code) = true) :
      Effect v call run (.failNode nodeId code retryable)
        ((((run.put nodeId (n.failedWith (strip code) retryable call.now)).recordNode call ":fail"
          (n.failedWith (strip code) retryable call.now) .nodeFailed
          { attemptNumber := some n.attemptCount, errorCode := some (strip code) }).failedWith nodeId
          (strip code) call).touched call)
  | skip {nodeId reason : String} {n n' : WorkflowNodeRun} {shown : String}
      (hn : run.node? nodeId = some n)
      (hn' : n.status = .queued ∧ n' = n.skippedWith (strip reason) call.now ∨
        n.status = .skipped ∧ n' = n) :
      Effect v call run (.skipNode nodeId reason)
        (((run.put nodeId n').recordNode call ":skip" n' .nodeSkipped
          { skipReason := some shown }).refreshed call)
  /-- A repeated cancellation request. -/
  | cancelAgain (hs : run.status = .cancelRequested) : Effect v call run .requestCancel run
  | cancel (hs : ¬run.status.Shut) :
      Effect v call run .requestCancel
        (((cancelEach call (run.nodes.map WorkflowNodeRun.nodeId) (run.cancelStarted call)).closed
          call (call.commandId ++ ":complete")).touched call)
  | confirm {nodeId : String} {n n' : WorkflowNodeRun} {m : EventMetadata}
      (hn : run.node? nodeId = some n)
      (hn' : n.status = .cancelRequested ∧ n' = n.cancelledAt call.now ∨
        n.status = .cancelled ∧ n' = n) :
      Effect v call run (.confirmNodeCancel nodeId)
        ((((run.put nodeId n').recordNode call ":confirm" n' .nodeCancelled m).cancelSettled
          call).touched call)

/-- A call whose time has a zone and whose command id is not blank. -/
def Call.Valid (call : Call) : Prop := call.now.tzAware = true ∧ isBlank call.commandId = false

/-- The event of a node's transition is accepted when its own metadata are. -/
theorem nodeEvent_accepted {v : WorkflowVersion} {run : WorkflowRun} {call : Call} {nodeId : String}
    {n : WorkflowNodeRun} (hv : Instantiates v run.nodes) (hn : run.node? nodeId = some n)
    (n' : WorkflowNodeRun) (hid : n'.nodeId = n.nodeId) (suffix : String) (ty : WorkflowEventType)
    (m : EventMetadata) (hm : isBlank n'.nodeId = false ∧ isIdentifier (strip n'.nodeId) = true →
      checkMetadata ty { m with nodeId := some n'.nodeId } = .ok ())
    (hs : isBlank suffix = false) (hnow : call.now.tzAware = true) :
    ∃ e, nodeEvent n' ty (run.occasion call suffix) m = .ok e := by
  have hvalid := isIdentifier_strip (hv.isIdentifier (mem_of_node? hn))
  exact ⟨_, nodeEvent_of_check (isBlank_append_right hs) hnow (hm (hid ▸ hvalid))⟩

section Inversion

variable {v : WorkflowVersion} {run run' : WorkflowRun} {call : Call} {nodeId : String}
  {e : WorkflowEvent}

theorem startNode_ok : startNode v nodeId call run = .ok e run' ↔
    ¬run.status.Shut ∧ (∃ ready, run.readyNodes v = .ok ready ∧ nodeId ∈ ready) ∧
      ∃ n, run.node? nodeId = some n ∧ n.status = .queued ∧ n.attemptCount < n.maxAttempts ∧
        nodeEvent (n.started call.now) .nodeStarted (run.occasion call ":start")
          (n.started call.now).startedMetadata = .ok e ∧
        run' = (((run.put nodeId (n.started call.now)).begun call).recordNode call ":start"
          (n.started call.now) .nodeStarted (n.started call.now).startedMetadata).touched call := by
  have hnow : (run.occasion call ":start").now = call.now := rfl
  simp only [startNode, bind_ok, get_ok, check_ok, lift_ok, onNode_ok, exists_unit, exists_eq_left,
    exists_and_left, and_assoc, WorkflowNodeRun.start_ok, hnow]
  constructor
  · rintro ⟨hs, ready, hr, hmem, e', u, ⟨n, hn, hq, ha, he, rfl⟩, h⟩
    refine ⟨hs, ⟨ready, hr, hmem⟩, n, hn, hq, ha, ?_⟩
    by_cases hrq : run.status = .queued
    · simp only [hrq, if_true, bind_ok, exists_unit, modify_ok, appendEvent_ok,
        appendExisting_ok he, touch_ok, pure_ok, exists_eq_left, exists_and_left, and_assoc] at h
      obtain ⟨-, -, rfl, rfl⟩ := h
      exact ⟨he, by simp [begun, hrq, put, withStatus]⟩
    · simp only [hrq, if_false, bind_ok, exists_unit, appendExisting_ok he, touch_ok, pure_ok,
        exists_eq_left, exists_and_left, and_assoc] at h
      obtain ⟨-, rfl, rfl⟩ := h
      exact ⟨he, by simp [begun, hrq]⟩
  · rintro ⟨hs, ⟨ready, hr, hmem⟩, n, hn, hq, ha, he, rfl⟩
    refine ⟨hs, ready, hr, hmem, e, _, ⟨n, hn, hq, ha, he, rfl⟩, ?_⟩
    have htz : call.now.tzAware = true := WorkflowNodeRun.tzAware_of_nodeEvent he
    by_cases hrq : run.status = .queued
    · simp only [hrq, if_true, bind_ok, exists_unit, modify_ok, appendEvent_ok,
        appendExisting_ok he, touch_ok, pure_ok, exists_eq_left, exists_and_left, and_assoc]
      refine ⟨fun _ => checkEvent_nextEvent (by decide) (by decide) htz, htz, ?_⟩
      simp [begun, hrq, put, withStatus]
    · simp only [hrq, if_false, bind_ok, exists_unit, appendExisting_ok he, touch_ok, pure_ok,
        exists_eq_left, exists_and_left, and_assoc]
      exact ⟨htz, by simp [begun, hrq]⟩

theorem acceptNode_effect {reference : String} (hv : Instantiates v run.nodes)
    (h : acceptNode nodeId reference call run = .ok e run') :
    Effect v call run (.acceptNode nodeId reference) run' := by
  simp only [acceptNode, bind_ok, get_ok, check_ok, lift_ok, node_ok, onNode_ok, exists_unit,
    exists_eq_left, exists_and_left, and_assoc, WorkflowNodeRun.accept_ok] at h
  obtain ⟨hs, n, hn, e', u, ⟨n₁, hn₁, n', hacc, rfl⟩, h⟩ := h
  obtain rfl : n = n₁ := Option.some.inj (hn.symm.trans hn₁)
  have he : nodeEvent n' .nodeAccepted (run.occasion call ":accept") n'.acceptedMetadata =
      .ok e' := by
    rcases hacc with ⟨-, -, -, -, -, he⟩ | ⟨-, -, -, -, he⟩ <;> exact he
  cases hlog : (if n.status = .accepted then run.findLatestNodeEvent nodeId .nodeAccepted
      else none) with
  | some e₀ =>
    rw [hlog] at h
    obtain ⟨-, rfl⟩ := pure_ok.1 h
    rcases hacc with ⟨ha, -, -, -, rfl, -⟩ | ⟨hr, -⟩
    · rw [put_self hv.nodup hn]
      rw [if_pos ha] at hlog
      exact .acceptLogged hs hn ha hlog
    · rw [if_neg (by rw [hr]; decide)] at hlog
      cases hlog
  | none =>
    rw [hlog] at h
    simp only [bind_ok, exists_unit, modify_ok, appendExisting_ok he, appendEvent_ok, touch_ok,
      pure_ok, exists_eq_left, exists_and_left, and_assoc] at h
    obtain ⟨-, -, -, rfl⟩ := h
    refine .accept hs hn ?_
    rcases hacc with ⟨ha, -, -, -, rfl, -⟩ | ⟨hr, -, href, rfl, -⟩
    · rw [if_pos ha] at hlog
      exact Or.inr ⟨ha, rfl, hlog⟩
    · exact Or.inl ⟨hr, href, rfl⟩

theorem succeedReplay_ok {n : WorkflowNodeRun} {summary : String} {fp : Option String}
    {outputs : References} {r : Option WorkflowEvent} :
    succeedReplay nodeId summary fp outputs n run = .ok r run' ↔
      (n.status = .succeeded → (n.resultSummary = some summary ∧ n.outputFingerprint = fp) ∧
        sameDict (run.outputReferences nodeId) outputs) ∧
      r = (if n.status = .succeeded then run.findLatestNodeEvent nodeId .nodeSucceeded else none) ∧
      run' = run := by
  simp only [succeedReplay, bind_ok, get_ok, exists_eq_left, exists_and_left, and_assoc]
  split_ifs with hs
  · simp only [bind_ok, exists_unit, check_ok, pure_ok, exists_eq_left, exists_and_left, and_assoc,
      hs, true_imp_iff]
  · simp [hs]

theorem succeedNode_effect {summary : String} {fp : Option String} {outputs : References}
    (hv : Instantiates v run.nodes) (h : succeedNode v nodeId summary fp outputs call run = .ok e run') :
    Effect v call run (.succeedNode nodeId summary fp outputs) run' := by
  simp only [succeedNode, bind_ok, get_ok, check_ok, lift_ok, node_ok, exists_unit,
    exists_eq_left, exists_and_left, and_assoc, succeedReplay_ok] at h
  obtain ⟨n, hn, d, hd, hsub, hsup, -, hsame, h⟩ := h
  have hout : ∀ f, f ∈ outputs.map Prod.fst ↔ f ∈ d.outputFields.1 :=
    fun f => ⟨hsub f, hsup f⟩
  cases hlog : (if n.status = .succeeded then run.findLatestNodeEvent nodeId .nodeSucceeded
      else none) with
  | some e₀ =>
    rw [hlog] at h
    obtain ⟨-, rfl⟩ := pure_ok.1 h
    split_ifs at hlog with hs
    exact .succeedLogged hn hs hlog
  | none =>
    rw [hlog] at h
    simp only [bind_ok, exists_unit, onNode_ok, pure_ok] at h
    obtain ⟨e', u, ⟨n₁, n', hn₁, hsucc, rfl⟩, u, happ, u', hrefresh, -, rfl⟩ := h
    obtain rfl : n = n₁ := Option.some.inj (hn.symm.trans hn₁)
    rcases WorkflowNodeRun.succeed_ok.1 hsucc with
      ⟨hact, -, fp', hfp, rfl, he⟩ | ⟨hs, -, -, rfl, he⟩
    · obtain rfl := (appendExisting_ok he).1 happ
      obtain ⟨-, rfl⟩ := refreshStatus_ok.1 hrefresh
      exact .succeed hn hact hd hout hfp
    · obtain rfl := (appendExisting_ok he).1 happ
      obtain ⟨-, rfl⟩ := refreshStatus_ok.1 hrefresh
      rw [if_pos hs] at hlog
      have hnil : outputs = [] := by
        have := (hsame hs).2.2.2
        simp only [outputReferences, hlog] at this
        exact List.eq_nil_iff_forall_not_mem.2 fun p hp => by cases this p hp
      rw [put_self hv.nodup hn]
      exact .succeedUnlogged hn hs hlog hnil

/-- A success report on a node that is running or accepted. -/
theorem succeedNode_active {n : WorkflowNodeRun} {summary : String} {fp fp' : Option String}
    {outputs : References} {d : WorkflowNodeDefinition} (hn : run.node? nodeId = some n)
    (hact : n.status.Active) (hd : v.node nodeId = .ok d)
    (hout : ∀ f, f ∈ outputs.map Prod.fst ↔ f ∈ d.outputFields.1)
    (href : ∀ p ∈ outputs, checkReference p "节点输出字段名" "节点输出引用" = .ok ())
    (hsummary : isBlank summary = false) (hfp : fingerprint fp "输出指纹" = .ok fp')
    (he : nodeEvent (n.succeededWith (strip summary) fp' call.now) .nodeSucceeded
      (run.occasion call ":succeed") (n.succeededMetadata outputs) = .ok e)
    (hid : isBlank call.commandId = false) :
    succeedNode v nodeId summary fp outputs call run =
      .ok e (((run.put nodeId (n.succeededWith (strip summary) fp' call.now)).recordNode call
        ":succeed" (n.succeededWith (strip summary) fp' call.now) .nodeSucceeded
        (n.succeededMetadata outputs)).refreshed call) := by
  have hs : n.status ≠ .succeeded := by
    rcases hact with h | h <;> rw [h] <;> decide
  have htz : call.now.tzAware = true := WorkflowNodeRun.tzAware_of_nodeEvent he
  simp only [succeedNode, bind_ok, get_ok, check_ok, lift_ok, node_ok, exists_unit,
    exists_eq_left, exists_and_left, and_assoc, succeedReplay_ok, forEach_ok]
  refine ⟨n, hn, d, hd, fun f => (hout f).1, fun f => (hout f).2, href, fun h => absurd h hs, ?_⟩
  rw [if_neg hs]
  simp only [bind_ok, exists_unit, onNode_ok, pure_ok]
  exact ⟨e, _, ⟨n, _, hn, WorkflowNodeRun.succeed_ok.2 (Or.inl ⟨hact, hsummary, fp', hfp, rfl, he⟩),
    rfl⟩, _, (appendExisting_ok he).2 rfl, _, refreshStatus_ok.2 ⟨fun _ _ => ⟨hid, htz⟩, rfl⟩, rfl,
    rfl⟩

theorem failWith_ok {n : WorkflowNodeRun} {code : String} (hn : run.node? nodeId = some n)
    (hcode : n.failureCode = some code) (h : failWith nodeId call run = .ok () run') :
    run' = run.failedWith nodeId code call := by
  simp only [failWith, bind_ok, get_ok, lift_ok, node_ok, exists_unit, modify_ok, exists_eq_left,
    exists_and_left, and_assoc] at h
  obtain ⟨n₁, hn₁, h⟩ := h
  obtain rfl : n = n₁ := Option.some.inj (hn.symm.trans hn₁)
  simp only [hcode, appendEvent_ok] at h
  exact h.2

theorem node?_put_self {n n' : WorkflowNodeRun} (hn : run.node? nodeId = some n)
    (hn' : n'.nodeId = nodeId) : (run.put nodeId n').node? nodeId = some n' := by
  rw [node?_put hn' hn, if_pos rfl]

theorem rejectNodeInput_effect {code : String}
    (h : rejectNodeInput nodeId code call run = .ok e run') :
    Effect v call run (.rejectNodeInput nodeId code) run' := by
  simp only [rejectNodeInput, bind_ok, get_ok, check_ok, onNode_ok, exists_unit, exists_eq_left,
    exists_and_left, and_assoc, WorkflowNodeRun.rejectInput_ok, touch_ok, pure_ok] at h
  obtain ⟨hs, e', u, ⟨n, hn, hq, -, hcode, he, rfl⟩, u, happ, u', hfail, -, -, rfl⟩ := h
  obtain rfl := (appendExisting_ok he).1 happ
  obtain rfl := failWith_ok (by exact node?_put_self hn (nodeId_of_node? hn :)) rfl hfail
  exact .reject hs hn hq hcode

theorem failNode_effect {code : String} {retryable : Bool}
    (h : failNode nodeId code retryable call run = .ok e run') :
    Effect v call run (.failNode nodeId code retryable) run' := by
  simp only [failNode, bind_ok, get_ok, onNode_ok, exists_unit, exists_eq_left,
    exists_and_left, and_assoc, WorkflowNodeRun.fail_ok, lift_ok, node_ok] at h
  obtain ⟨e', u, ⟨n, hn, hact, -, hcode, he, rfl⟩, u, happ, h⟩ := h
  obtain rfl := (appendExisting_ok he).1 happ
  have hself : (run.put nodeId (n.failedWith (strip code) retryable call.now)).node? nodeId = _ :=
    node?_put_self hn (nodeId_of_node? hn :)
  obtain ⟨n₁, hn₁, h⟩ := h
  obtain rfl : _ = n₁ := Option.some.inj (hself.symm.trans hn₁)
  by_cases hr : n.Retries retryable
  · have hst : (n.failedWith (strip code) retryable call.now).status ≠ .failed := by
      simp [WorkflowNodeRun.failedWith, hr]
    simp only [hst, if_false, bind_ok, exists_unit, touch_ok, pure_ok] at h
    obtain ⟨u, ⟨-, rfl⟩, -, rfl⟩ := h
    simp only [hr, if_true]
    exact .retry hn hact hr hcode
  · have hst : (n.failedWith (strip code) retryable call.now).status = .failed := by
      simp [WorkflowNodeRun.failedWith, hr]
    simp only [hst, if_true, bind_ok, exists_unit, touch_ok, pure_ok] at h
    obtain ⟨u, hfail, u', ⟨-, rfl⟩, -, rfl⟩ := h
    obtain rfl := failWith_ok hn₁ rfl hfail
    simp only [hr, if_false]
    exact .fail hn hact hr hcode

theorem skipNode_effect {reason : String} (h : skipNode nodeId reason call run = .ok e run') :
    Effect v call run (.skipNode nodeId reason) run' := by
  simp only [skipNode, bind_ok, get_ok, onNode_ok, exists_unit, exists_eq_left,
    exists_and_left, and_assoc, pure_ok] at h
  obtain ⟨e', u, ⟨n, hn, n', hskip, rfl⟩, u, happ, u', hrefresh, -, rfl⟩ := h
  rcases WorkflowNodeRun.skip_ok.1 hskip with ⟨hs, -, rfl, he⟩ | ⟨hq, -, rfl, he⟩
  · obtain rfl := (appendExisting_ok he).1 happ
    obtain ⟨-, rfl⟩ := refreshStatus_ok.1 hrefresh
    exact .skip hn (Or.inr ⟨hs, rfl⟩)
  · obtain rfl := (appendExisting_ok he).1 happ
    obtain ⟨-, rfl⟩ := refreshStatus_ok.1 hrefresh
    exact .skip hn (Or.inl ⟨hq, rfl⟩)

theorem cancelNodes_ok {ids : List String} (h : cancelNodes call ids run = .ok () run') :
    run' = cancelEach call ids run := by
  induction ids generalizing run with
  | nil => exact (pure_ok.1 h).2
  | cons nodeId ids ih =>
    simp only [cancelNodes, bind_ok, get_ok, lift_ok, node_ok, exists_eq_left, exists_and_left,
      and_assoc] at h
    obtain ⟨n, hn, h⟩ := h
    simp only [cancelEach, hn]
    split_ifs at h ⊢ with hc
    · simp only [bind_ok, exists_unit, onNode_ok] at h
      obtain ⟨e', u, ⟨n₁, n', hn₁, hcancel, rfl⟩, u, happ, h⟩ := h
      obtain rfl : n = n₁ := Option.some.inj (hn.symm.trans hn₁)
      obtain rfl := nodeId_of_node? hn
      rw [ih h]
      congr 1
      rcases WorkflowNodeRun.requestCancel_ok.1 hcancel with ⟨hact, rfl, he⟩ | ⟨hq, rfl, he⟩
      · rw [(appendExisting_ok he).1 happ]
        simp [cancelNode, cancelMetadata, hact, recordNode, WorkflowNodeRun.cancelRequestedAt,
          occasion]
      · have hact : ¬n.status.Active := by rw [hq]; decide
        rw [(appendExisting_ok he).1 happ]
        simp [cancelNode, cancelMetadata, hact, recordNode, WorkflowNodeRun.cancelRequestedAt,
          occasion]
    · exact ih h

theorem requestCancel_effect (h : requestCancel call run = .ok () run') :
    Effect v call run .requestCancel run' := by
  simp only [requestCancel, bind_ok, get_ok, check_ok, exists_unit, exists_eq_left,
    exists_and_left, and_assoc] at h
  obtain ⟨ht, h⟩ := h
  split_ifs at h with hcr
  · obtain ⟨-, rfl⟩ := pure_ok.1 h
    exact .cancelAgain hcr
  · simp only [bind_ok, exists_unit, modify_ok, lift_ok, utc_ok, get_ok, appendEvent_ok,
      exists_eq_left, exists_and_left, and_assoc] at h
    obtain ⟨-, -, u, hnodes, h⟩ := h
    have hu : u = cancelEach call (run.nodes.map WorkflowNodeRun.nodeId) (run.cancelStarted call) :=
      cancelNodes_ok hnodes
    have hrun' : run' = (u.closed call (call.commandId ++ ":complete")).touched call := by
      split_ifs at h with hall
      · simp only [bind_ok, exists_unit, modify_ok, appendEvent_ok, touch_ok, exists_eq_left,
          exists_and_left, and_assoc] at h
        obtain ⟨-, -, rfl⟩ := h
        rw [closed_of_all hall]
        rfl
      · obtain ⟨-, rfl⟩ := touch_ok.1 h
        rw [closed_of_not hall]
    rw [hrun', hu]
    exact .cancel fun h => h.elim hcr ht

/-- The end of a confirmation: the run is cancelled with its last node. -/
theorem confirmTail_ok {u : WorkflowRun} {e' : WorkflowEvent} (htz : call.now.tzAware = true) :
    (if u.status = .cancelRequested ∧ ∀ n ∈ u.nodes, n.status.Closed then do
        modify fun r => { r with status := .cancelled }
        appendEvent call call.commandId .runCancelled {}
        touch call "Run 取消确认时间"
        pure e'
      else do
        touch call "Run 取消确认时间"
        pure e' : RunM WorkflowEvent) u = .ok e run' ↔
      (u.status = .cancelRequested ∧ (∀ n ∈ u.nodes, n.status.Closed) →
        ¬u.hasTransition call.commandId → isBlank call.commandId = false) ∧ e = e' ∧
      run' = (u.cancelSettled call).touched call := by
  unfold cancelSettled
  by_cases hall : u.status = .cancelRequested ∧ ∀ n ∈ u.nodes, n.status.Closed
  · have hcheck : ∀ r : WorkflowRun,
        checkEvent (r.nextEvent call call.commandId .runCancelled {}) = .ok () ↔
          isBlank call.commandId = false := fun r => by
      have hm : checkMetadata .runCancelled {} = .ok () := by decide
      rw [checkEvent_ok]
      exact ⟨fun h => h.2.1, fun h => ⟨Nat.succ_pos _, h, hm, htz⟩⟩
    rw [if_pos hall, if_pos hall.1, closed_of_all hall.2]
    simp only [bind_ok, exists_unit, modify_ok, exists_eq_left, appendEvent_ok, hcheck, touch_ok,
      pure_ok, htz, true_and, and_assoc]
    constructor
    · rintro ⟨_, hid, rfl, he, rfl⟩
      exact ⟨fun _ => hid, he, rfl⟩
    · rintro ⟨hid, he, rfl⟩
      exact ⟨_, hid hall, rfl, he, rfl⟩
  · have hsame : (if u.status = .cancelRequested then u.closed call call.commandId else u) = u := by
      split_ifs with hst
      · exact closed_of_not fun h => hall ⟨hst, h⟩
      · rfl
    rw [if_neg hall, hsame]
    simp only [bind_ok, exists_unit, touch_ok, pure_ok, htz, true_and, exists_eq_left]
    exact ⟨fun h => ⟨fun h' => absurd h' hall, h⟩, fun h => h.2⟩

theorem confirmNodeCancel_effect (h : confirmNodeCancel nodeId call run = .ok e run') :
    Effect v call run (.confirmNodeCancel nodeId) run' := by
  simp only [confirmNodeCancel, bind_ok, get_ok, onNode_ok, exists_unit, exists_eq_left,
    exists_and_left, and_assoc] at h
  obtain ⟨e', u, ⟨n, hn, n', hconf, rfl⟩, u, happ, h⟩ := h
  rcases WorkflowNodeRun.confirmCancel_ok.1 hconf with ⟨hc, rfl, he⟩ | ⟨hc, rfl, he⟩
  · obtain rfl := (appendExisting_ok he).1 happ
    obtain ⟨-, -, rfl⟩ := (confirmTail_ok (WorkflowNodeRun.tzAware_of_nodeEvent he)).1 h
    exact .confirm hn (Or.inr ⟨hc, rfl⟩)
  · obtain rfl := (appendExisting_ok he).1 happ
    obtain ⟨-, -, rfl⟩ := (confirmTail_ok (WorkflowNodeRun.tzAware_of_nodeEvent he)).1 h
    exact .confirm hn (Or.inl ⟨hc, rfl⟩)

/-- Confirming the cancellation of a node that has requested it. -/
theorem confirmNodeCancel_requested {n : WorkflowNodeRun} (hn : run.node? nodeId = some n)
    (hc : n.status = .cancelRequested)
    (he : nodeEvent (n.cancelledAt call.now) .nodeCancelled (run.occasion call ":confirm")
      { attemptNumber := some n.attemptCount, cancelMode := some "confirmed" } = .ok e)
    (hid : isBlank call.commandId = false) :
    ∃ run', confirmNodeCancel nodeId call run = .ok e run' := by
  simp only [confirmNodeCancel, bind_ok, get_ok, onNode_ok, exists_unit, exists_eq_left,
    exists_and_left, and_assoc]
  exact ⟨_, e, _, ⟨n, hn, _, WorkflowNodeRun.confirmCancel_ok.2 (Or.inr ⟨hc, rfl, he⟩), rfl⟩, _,
    (appendExisting_ok he).2 rfl,
    (confirmTail_ok (WorkflowNodeRun.tzAware_of_nodeEvent he)).2 ⟨fun _ _ => hid, rfl, rfl⟩⟩

/-- **An accepted command has one of the listed effects.** -/
theorem effect_of_execute {r : Request} (hv : Instantiates v run.nodes)
    (h : execute v r run = .ok () run') : Effect v r.call run r.command run' := by
  obtain ⟨c, call⟩ := r
  cases c with
  | startNode nodeId =>
    obtain ⟨e, h, -⟩ := map_ok.1 h
    obtain ⟨hs, ⟨ready, hr, hmem⟩, n, hn, hq, ha, -, rfl⟩ := startNode_ok.1 h
    exact .start hs hr hmem hn hq ha
  | succeedNode nodeId summary fp outputs =>
    obtain ⟨e, h, -⟩ := map_ok.1 h
    exact succeedNode_effect hv h
  | acceptNode nodeId reference =>
    obtain ⟨e, h, -⟩ := map_ok.1 h
    exact acceptNode_effect hv h
  | rejectNodeInput nodeId code =>
    obtain ⟨e, h, -⟩ := map_ok.1 h
    exact rejectNodeInput_effect h
  | failNode nodeId code retryable =>
    obtain ⟨e, h, -⟩ := map_ok.1 h
    exact failNode_effect h
  | skipNode nodeId reason =>
    obtain ⟨e, h, -⟩ := map_ok.1 h
    exact skipNode_effect h
  | requestCancel => exact requestCancel_effect h
  | confirmNodeCancel nodeId =>
    obtain ⟨e, h, -⟩ := map_ok.1 h
    exact confirmNodeCancel_effect h

end Inversion

end GoAgent.Workflow
