import GoAgent.Workflow.Repository

/-!
# The workflow application

The application loads a run under a row lock, runs one command of the domain on it and saves what
the command leaves, with a receipt under the type and id of the command. `execute_node` does this
twice: `executeBegin` starts the node and saves, the executor runs, and `executeResume` records its
outcome on the run `executeBegin` had in memory and saves again. Between the two the row lock is
free.

`World` is what outlives a call: the rows of the run, and the nodes executors were invoked for. A
call that raises keeps what it saved before.
-/

namespace GoAgent.Workflow

open GoAgent.Foundation WorkflowRun

/-! ## Requests and outcomes -/

structure RequestPrincipal where
  subject : Option String := none
  authenticated : Bool := false

/-- What a call brings from outside besides its arguments. -/
structure Tick where
  now : DateTime
  uuid4 : Nat → UUID

def Tick.call (tick : Tick) (commandId : String) : Call := ⟨tick.now, commandId, tick.uuid4⟩

/-- The truth value of an optional string. -/
def truthy (s : Option String) : Bool := s.any (· ≠ "")

/-- `s or default` -/
def orElse (s : Option String) (default : String) : String :=
  if truthy s then s.getD default else default

inductive WorkflowNodeExecutionStatus
  | completed | accepted | failed
  deriving DecidableEq

/-- What an executor returns; `admitted` is the check of its constructor. -/
structure WorkflowNodeExecutionOutcome where
  status : WorkflowNodeExecutionStatus
  resultSummary : Option String := none
  outputFingerprint : Option String := none
  outputReferences : References := []
  executionReference : Option String := none
  errorCode : Option String := none
  message : Option String := none
  retryable : Bool := false
  admitted : match status with
    | .completed => truthy resultSummary = true ∧ truthy executionReference = false ∧
        truthy errorCode = false ∧ truthy message = false
    | .accepted => truthy executionReference = true ∧ truthy resultSummary = false ∧
        truthy errorCode = false ∧ truthy message = false ∧ outputReferences = []
    | .failed => truthy resultSummary = false ∧ truthy executionReference = false ∧
        truthy errorCode = true ∧ truthy message = true ∧ outputReferences = []

/-- What a call may raise; `key` is the `KeyError` of a missing reference. -/
inductive AppError
  | permission (message : String)
  | lookup (message : String)
  | workflow (error : WorkflowError)
  | key (field : String)
  | load (error : LoadError)
  | database (error : DatabaseError)
  deriving DecidableEq

/-- `_require_principal`, and the subject it vouches for. -/
def requirePrincipal (principal : RequestPrincipal) : Except AppError String :=
  match principal.subject with
  | some subject =>
    if principal.authenticated ∧ isBlank subject = false then pure subject
    else .error (.permission "Workflow 需要已认证主体。")
  | none => .error (.permission "Workflow 需要已认证主体。")

/-- The registry of versions, which have pairwise different keys. -/
abbrev WorkflowDefinitionRegistry := List WorkflowVersion

def WorkflowDefinitionRegistry.get (registry : WorkflowDefinitionRegistry)
    (workflowCode version : String) : Option WorkflowVersion :=
  lookup WorkflowVersion.key (workflowCode ++ ":" ++ version) registry

/-! ## Inputs -/

/-- The values an input may have, and whether `json.dumps` writes them. -/
structure InputValues (V : Type) where
  ofString : String → V
  dumps : V → Bool
  dumps_ofString : ∀ s, dumps (ofString s) = true

abbrev Inputs (V : Type) := List (String × V)

/-- `d[key] = value` -/
def setItem {V : Type} (d : Inputs V) (key : String) (value : V) : Inputs V :=
  if key ∈ d.map Prod.fst then replace Prod.fst key (key, value) d else d ++ [(key, value)]

section

variable {V : Type} (values : InputValues V)

/-- `_validate_inputs`; `none` is an argument that is not a mapping. -/
def validateInputs (fields : List String) (inputs : Option (Inputs V)) :
    Except AppError (Inputs V) :=
  match inputs with
  | none => .error (.workflow (.validation "Workflow 输入必须是 JSON 对象。"))
  | some normalized => do
    require (∀ f ∈ fields, f ∈ normalized.map Prod.fst)
      (.workflow (.validation "Workflow 输入缺少必需字段。"))
    require (∀ f ∈ normalized.map Prod.fst, f ∈ fields)
      (.workflow (.validation "Workflow 输入包含未声明字段。"))
    require (∀ p ∈ normalized, values.dumps p.2 = true)
      (.workflow (.validation "Workflow 输入必须是有限的 JSON 对象。"))
    pure normalized

/-- `merged.update({field: references[field] for field in edge.output_fields})` -/
def bindFields (references : References) : List String → Inputs V → Except AppError (Inputs V)
  | [], merged => pure merged
  | field :: rest, merged =>
    match lookup Prod.fst field references with
    | none => .error (.key field)
    | some p => bindFields references rest (setItem merged field (values.ofString p.2))

def bindEdges (run : WorkflowRun) : List WorkflowEdgeDefinition → Inputs V →
    Except AppError (Inputs V)
  | [], merged => pure merged
  | edge :: rest, merged => do
    let merged ← bindFields values (run.outputReferences edge.sourceNodeId.1) edge.outputFields.1
      merged
    bindEdges run rest merged

/-- An exception of the domain. -/
def raised {α : Type} (x : Except WorkflowError α) : Except AppError α := x.mapError .workflow

def buildNodeInputs (run : WorkflowRun) (v : WorkflowVersion) (nodeId : String)
    (inputs : Option (Inputs V)) : Except AppError (Inputs V) := do
  let node ← raised (v.node nodeId)
  let incoming ← raised (v.incomingEdges nodeId)
  let bound := incoming.flatMap fun e => e.outputFields.1
  let supplied ← validateInputs values (node.inputFields.1.filter (· ∉ bound))
    (inputs.map fun d => d.filter fun p => p.1 ∉ bound)
  let merged ← bindEdges values run incoming supplied
  validateInputs values node.inputFields.1 (some merged)

end

/-! ## Calls -/

/-- What outlives a call. -/
structure World where
  rows : WorkflowRows
  executions : List String := []
  deriving DecidableEq

abbrev AppM := EStateM AppError World

structure WorkflowNodeView where
  nodeId : String
  capabilityCode : String
  status : WorkflowNodeStatus
  attemptCount : Nat
  executionReference : Option String
  resultSummary : Option String
  failureCode : Option String
  deriving DecidableEq

structure WorkflowRunView where
  id : UUID
  workflowCode : String
  workflowVersion : String
  ownerSubject : String
  status : WorkflowRunStatus
  nodes : List WorkflowNodeView
  resultSummary : Option String
  failureCode : Option String
  createdAt : Option DateTime
  updatedAt : Option DateTime
  deriving DecidableEq

def WorkflowNodeView.fromNode (node : WorkflowNodeRun) : WorkflowNodeView where
  nodeId := node.nodeId
  capabilityCode := node.capabilityCode
  status := node.status
  attemptCount := node.attemptCount
  executionReference := node.executionReference
  resultSummary := node.resultSummary
  failureCode := node.failureCode

def WorkflowRunView.fromRun (run : WorkflowRun) : WorkflowRunView where
  id := run.id
  workflowCode := run.workflowCode
  workflowVersion := run.workflowVersion
  ownerSubject := run.ownerSubject
  status := run.status
  nodes := run.nodes.map WorkflowNodeView.fromNode
  resultSummary := run.resultSummary
  failureCode := run.failureCode
  createdAt := run.createdAt
  updatedAt := run.updatedAt

/-- Run a command on a run in memory. -/
def perform (method : RunM Unit) (run : WorkflowRun) : Except AppError WorkflowRun :=
  match method run with
  | .ok () run => .ok run
  | .error e _ => .error (.workflow e)

/-- An `execute_node` call whose executor is running. -/
structure Suspended where
  run : WorkflowRun
  version : WorkflowVersion
  nodeId : String
  commandId : String

namespace WorkflowApplication

/-- `get_for_update`, refused to all but the owner. -/
def getForUpdate (pg : Postgres) (subject : String) : AppM WorkflowRun := do
  let w ← get
  let run ← lift ((loadRun pg w.rows).mapError .load)
  check (run.ownerSubject = strip subject) (.lookup "Workflow 不可用。")
  pure run

def registered (registry : WorkflowDefinitionRegistry) (run : WorkflowRun) :
    Except AppError WorkflowVersion :=
  match registry.get run.workflowCode run.workflowVersion with
  | some version => pure version
  | none => .error (.workflow (.validation "Workflow Version 不可用。"))

def processed (commandType commandId : String) : AppM Bool := do
  let w ← get
  pure (decide (hasProcessedCommand w.rows commandType commandId))

/-- `self._repository.save(run, command_receipt=...)` -/
def saveRun (pg : Postgres) (run : WorkflowRun) (receipt : Option WorkflowCommandReceipt) :
    AppM Unit := do
  let w ← get
  let rows ← lift ((save pg w.rows run receipt).mapError .database)
  modify fun w => { w with rows }

variable (pg : Postgres) (registry : WorkflowDefinitionRegistry)

def ownedRun (principal : RequestPrincipal) : AppM (WorkflowRun × WorkflowVersion) := do
  let subject ← lift (requirePrincipal principal)
  let run ← getForUpdate pg subject
  let version ← lift (registered registry run)
  pure (run, version)

/-- Run a command on the run and save it with the command's receipt. -/
def saved (commandType commandId : String) (run : WorkflowRun) (method : RunM Unit) :
    AppM WorkflowRunView := do
  let run ← lift (perform method run)
  saveRun pg run (some ⟨commandType, commandId⟩)
  pure (.fromRun run)

/-- A command of a node that finds its receipt does nothing. -/
def once (commandType : String) (principal : RequestPrincipal) (commandId : String)
    (method : WorkflowVersion → RunM Unit) : AppM WorkflowRunView := do
  let (run, version) ← ownedRun pg registry principal
  if ← processed commandType commandId then pure (.fromRun run)
  else saved pg commandType commandId run (method version)

def completeNode (principal : RequestPrincipal) (nodeId resultSummary : String)
    (outputFingerprint : Option String) (outputReferences : References) (commandId : String)
    (tick : Tick) : AppM WorkflowRunView :=
  once pg registry "complete-node" principal commandId fun version =>
    discard (succeedNode version nodeId resultSummary outputFingerprint outputReferences
      (tick.call commandId))

def failNode (principal : RequestPrincipal) (nodeId errorCode : String) (retryable : Bool)
    (commandId : String) (tick : Tick) : AppM WorkflowRunView :=
  once pg registry "fail-node" principal commandId fun _ =>
    discard (WorkflowRun.failNode nodeId errorCode retryable (tick.call commandId))

def skipNode (principal : RequestPrincipal) (nodeId reason commandId : String) (tick : Tick) :
    AppM WorkflowRunView :=
  once pg registry "skip-node" principal commandId fun _ =>
    discard (WorkflowRun.skipNode nodeId reason (tick.call commandId))

def confirmNodeCancel (principal : RequestPrincipal) (nodeId commandId : String) (tick : Tick) :
    AppM WorkflowRunView :=
  once pg registry "confirm-cancel" principal commandId fun _ =>
    discard (WorkflowRun.confirmNodeCancel nodeId (tick.call commandId))

/-- The executors of the nodes at work are told afterwards; what they answer is ignored. -/
def cancel (principal : RequestPrincipal) (commandId : String) (tick : Tick) :
    AppM WorkflowRunView := do
  let subject ← lift (requirePrincipal principal)
  let run ← getForUpdate pg subject
  if ← processed "cancel" commandId then pure (.fromRun run)
  else
    let _ ← lift (registered registry run)
    saved pg "cancel" commandId run (requestCancel (tick.call commandId))

/-- `execute_node` up to the call of its executor. -/
def executeBegin {V : Type} (values : InputValues V) (principal : RequestPrincipal)
    (nodeId : String) (inputs : Option (Inputs V)) (commandId : String) (tick : Tick) :
    AppM (WorkflowRunView ⊕ Suspended) := do
  let subject ← lift (requirePrincipal principal)
  let run ← getForUpdate pg subject
  if ← processed "execute-node" commandId then pure (.inl (.fromRun run))
  else
    let version ← lift (registered registry run)
    let ready ← lift (raised (run.readyNodes version))
    check (nodeId ∈ ready) (.workflow (.state "节点前置依赖尚未满足。"))
    let _ ← lift (raised (version.node nodeId))
    match buildNodeInputs values run version nodeId inputs with
    | .error (.workflow (.validation _)) =>
      let view ← saved pg "execute-node" commandId run
        (discard (rejectNodeInput nodeId "INPUT_INVALID" (tick.call commandId)))
      pure (.inl view)
    | .error e => throw e
    | .ok _ =>
      let run ← lift (perform (discard (startNode version nodeId (tick.call commandId))) run)
      saveRun pg run none
      modify fun w => { w with executions := w.executions ++ [nodeId] }
      pure (.inr { run, version, nodeId, commandId })

/-- Record what the executor returned; `none` is an exception it raised. -/
def recordOutcome (version : WorkflowVersion) (nodeId : String)
    (outcome : Option WorkflowNodeExecutionOutcome) (call : Call) : RunM Unit :=
  match outcome with
  | none => discard (WorkflowRun.failNode nodeId "EXECUTOR_UNAVAILABLE" true call)
  | some outcome =>
    match outcome.status with
    | .completed =>
      tryCatch
        (discard (succeedNode version nodeId (orElse outcome.resultSummary "节点已完成。")
          outcome.outputFingerprint outcome.outputReferences call))
        fun e =>
          match e with
          | .validation _ => discard (WorkflowRun.failNode nodeId "OUTPUT_INVALID" false call)
          | e => throw e
    | .accepted => discard (acceptNode nodeId (orElse outcome.executionReference "") call)
    | .failed => discard (WorkflowRun.failNode nodeId
        (orElse outcome.errorCode "WORKFLOW_EXECUTION_FAILED") outcome.retryable call)

/-- `execute_node` from the return of its executor. -/
def executeResume (s : Suspended) (outcome : Option WorkflowNodeExecutionOutcome) (tick : Tick) :
    AppM WorkflowRunView :=
  saved pg "execute-node" s.commandId s.run
    (recordOutcome s.version s.nodeId outcome (tick.call s.commandId))

/-- `execute_node`, whose executor answers `outcome`. -/
def executeNode {V : Type} (values : InputValues V) (principal : RequestPrincipal)
    (nodeId : String) (inputs : Option (Inputs V)) (commandId : String)
    (outcome : Option WorkflowNodeExecutionOutcome) (started finished : Tick) :
    AppM WorkflowRunView := do
  match ← executeBegin pg registry values principal nodeId inputs commandId started with
  | .inl view => pure view
  | .inr s => executeResume pg s outcome finished

end WorkflowApplication

/-- The calls that save at most once. -/
inductive AppCommand
  | completeNode (nodeId resultSummary : String) (outputFingerprint : Option String)
      (outputReferences : References)
  | failNode (nodeId errorCode : String) (retryable : Bool)
  | skipNode (nodeId reason : String)
  | confirmNodeCancel (nodeId : String)
  | cancel

/-! ## Calls one after the other -/

/-- A world, and the `execute_node` call whose executor is running, if any. -/
structure System where
  world : World
  suspended : Option Suspended := none

/-- What a caller or an executor does. -/
inductive Action (V : Type)
  | call (command : AppCommand) (principal : RequestPrincipal) (commandId : String) (tick : Tick)
  | begin (principal : RequestPrincipal) (nodeId : String) (inputs : Option (Inputs V))
      (commandId : String) (tick : Tick)
  | resume (outcome : Option WorkflowNodeExecutionOutcome) (tick : Tick)

section

variable (pg : Postgres) (registry : WorkflowDefinitionRegistry)

def AppCommand.handle (c : AppCommand) (principal : RequestPrincipal) (commandId : String)
    (tick : Tick) : AppM WorkflowRunView :=
  match c with
  | .completeNode nodeId summary fp outputs =>
    WorkflowApplication.completeNode pg registry principal nodeId summary fp outputs commandId tick
  | .failNode nodeId code retryable =>
    WorkflowApplication.failNode pg registry principal nodeId code retryable commandId tick
  | .skipNode nodeId reason =>
    WorkflowApplication.skipNode pg registry principal nodeId reason commandId tick
  | .confirmNodeCancel nodeId =>
    WorkflowApplication.confirmNodeCancel pg registry principal nodeId commandId tick
  | .cancel => WorkflowApplication.cancel pg registry principal commandId tick

/-- The world a call leaves, whether it returns or raises. -/
def leave {α : Type} (method : AppM α) (w : World) : World :=
  match method w with
  | .ok _ w => w
  | .error _ w => w

def act {V : Type} (values : InputValues V) (a : Action V) (s : System) : System :=
  match a with
  | .call c principal commandId tick =>
    { s with world := leave (c.handle pg registry principal commandId tick) s.world }
  | .begin principal nodeId inputs commandId tick =>
    match WorkflowApplication.executeBegin pg registry values principal nodeId inputs commandId tick
      s.world with
    | .ok (.inr call) w => { world := w, suspended := some call }
    | .ok (.inl _) w => { s with world := w }
    | .error _ w => { s with world := w }
  | .resume outcome tick =>
    match s.suspended with
    | some call => { world := leave (WorkflowApplication.executeResume pg call outcome tick) s.world }
    | none => s

end

end GoAgent.Workflow
