import GoAgent.Foundation.Keyed
import GoAgent.Interaction.Capabilities
import Mathlib.Data.Rat.Defs
import Mathlib.Algebra.Order.Ring.Rat

/-!
# The interaction gateway

`recognize` turns a request and what the model makes of it into a result: a question, a refusal,
a direct execution, or a proposal that is kept for its subject. `confirm` and
`confirmDialogueAgent` consume a proposal, once, and dispatch it or approve its dispatch.

The catalog may change between any two reads of it: a `Deployment` gives what each read finds.
What the retrieval, the model and the attachment resolver answer is part of a request. `acts`
records what the request in progress has done: its reads, what it has consumed, and what it has
let be executed.
-/

namespace GoAgent.Interaction

open GoAgent.Foundation

/-- `text or default` -/
def orText (text : Option String) (default : String) : String :=
  match text with
  | some t => if t = "" then default else t
  | none => default

/-! ## Results -/

inductive IntentAssessmentStatus where
  | matched | needsClarification | unrecognized
  deriving DecidableEq

structure IntentAssessment where
  status : IntentAssessmentStatus
  capabilityCode : Option String := none
  extractedInputs : Inputs := []
  missingFields : List String := []
  clarification : Option String := none
  confidence : Option Rat := none
  candidateCodes : List String := []
  errorCode : Option String := none
  model : Option String := none
  promptVersion : Option String := none

inductive GatewayStatus where
  | needsClarification | unrecognized | authorized | pending | cancelled | completed | accepted
  | rejected | failed
  deriving DecidableEq

def IntentAssessmentStatus.gateway : IntentAssessmentStatus → GatewayStatus
  | matched => .authorized
  | needsClarification => .needsClarification
  | unrecognized => .unrecognized

structure DirectCapabilityExecution where
  capabilityCode : String
  dispatchKey : String
  inputs : Inputs

structure GatewayResult where
  status : GatewayStatus
  message : String
  assessment : Option IntentAssessment := none
  proposal : Option ConfirmationProposal := none
  executionResult : Option Value := none
  errorCode : Option String := none
  directExecution : Option DirectCapabilityExecution := none
  conversationId : Option UUID := none

inductive DialogueConfirmationStatus where
  | confirmed | cancelled | rejected
  deriving DecidableEq

structure DialogueAgentConfirmationResult where
  status : DialogueConfirmationStatus
  message : String
  proposal : Option ConfirmationProposal := none
  approvedDispatch : Option ApprovedCapabilityDispatch := none
  errorCode : Option String := none

structure DispatchResult where
  status : GatewayStatus
  message : String
  executionResult : Option Value := none
  errorCode : Option String := none

inductive ConfirmationResultStatus where
  | pending | confirmed | cancelled | rejected
  deriving DecidableEq

structure ConfirmationResult where
  status : ConfirmationResultStatus
  message : String
  proposal : Option ConfirmationProposal := none
  approvedDispatch : Option ApprovedCapabilityDispatch := none
  errorCode : Option String := none

/-! ## Requests -/

structure GatewayRecognitionCommand where
  userInput : String
  principal : RequestPrincipal
  providedInputs : Inputs := []

inductive ConfirmationAction where
  | confirm | cancel
  deriving DecidableEq

def ConfirmationAction.text : ConfirmationAction → String
  | confirm => "confirm"
  | cancel => "cancel"

structure GatewayConfirmationCommand where
  proposalId : String
  action : ConfirmationAction
  principal : RequestPrincipal

/-- The output of the model, which names any capability it likes. -/
structure ModelOutput where
  status : IntentAssessmentStatus
  capabilityCode : Option String := none
  extractedInputs : Inputs := []
  missingFields : List String := []
  clarification : Option String := none
  confidence : Option Rat := none

inductive RetrievalStatus where
  | ready | empty | unavailable
  deriving DecidableEq

structure AttachmentResolutionResult where
  resolved : Bool
  inputs : Inputs
  errorCode : Option String := none

/-- What the parts around the gateway answer to a request. -/
structure Surroundings where
  /-- The error code of an index that could not be built. -/
  indexFailure : Option (Option String) := none
  retrieval : Except BaseException RetrievalStatus := .ok .ready
  retrievalError : Option String := none
  candidates : List String := []
  output : Except BaseException ModelOutput
  model : String := ""
  promptVersion : String := "intent-recognition-v1"
  resolve : Option (PlatformCapability → Inputs → Except BaseException AttachmentResolutionResult) :=
    none
  proposalId : String
  /-- What a handler returns or raises; an `Exception` by the class it is caught as. -/
  handler : Except BaseException Value := .ok .none

structure Deployment where
  ttlSeconds : Int
  /-- What the n-th read of the catalog finds. -/
  catalog : Nat → Except BaseException PlatformCapabilityCatalog
  handlers : List String
  agentHandler : Bool

/-! ## The state -/

structure ProposalEntry where
  proposal : ConfirmationProposal
  subject : Option String
  expiresAt : Int

def ProposalEntry.id (e : ProposalEntry) : String := e.proposal.proposalId

/-- The ways to an execution: without a confirmation, by a handler, by the agent handler, and by
the dialogue. -/
inductive Route where
  | direct | handler | agentHandler | dialogueAgent
  deriving DecidableEq

structure Execution where
  capabilityCode : String
  dispatchKey : String
  inputs : Inputs
  principal : RequestPrincipal

inductive Act where
  | read (index : Nat) (code : String) (permissions : List String)
  | consumed (proposal : ConfirmationProposal) (subject : Option String)
  | executed (route : Route) (execution : Execution)

structure Gateway where
  now : Int := 0
  entries : List ProposalEntry := []
  reads : Nat := 0
  acts : List Act := []
  /-- The proposals ever kept, with their subjects. -/
  issued : List (ConfirmationProposal × Option String) := []

abbrev GatewayM := EStateM BaseException Gateway

def act (a : Act) : GatewayM Unit := modify fun g => { g with acts := g.acts ++ [a] }

/-! ## The store of proposals -/

def Gateway.purgeExpired (g : Gateway) : Gateway :=
  { g with entries := g.entries.filter fun e => g.now < e.expiresAt }

def save (d : Deployment) (proposal : ConfirmationProposal) (subject : Option String) :
    GatewayM Unit :=
  modify fun g =>
    let g := g.purgeExpired
    { g with
      entries := g.entries.filter (fun e => e.id ≠ proposal.proposalId) ++
        [⟨proposal, subject, g.now + d.ttlSeconds⟩]
      issued := g.issued ++ [(proposal, subject)] }

/-- What `consume` answers, and what it leaves. -/
def Gateway.consumed (g : Gateway) (proposalId : String) (subject : Option String) :
    Option ConfirmationProposal × List ProposalEntry :=
  let entries := g.purgeExpired.entries
  match lookup ProposalEntry.id proposalId entries with
  | none => (none, entries)
  | some e =>
    if e.subject ≠ subject then (none, entries)
    else (some e.proposal, entries.filter fun e => e.id ≠ proposalId)

def consume (proposalId : String) (subject : Option String) :
    GatewayM (Option ConfirmationProposal) := do
  let g ← get
  let (proposal, entries) := g.consumed proposalId subject
  modify fun g => { g with entries }
  match proposal with
  | none => pure none
  | some proposal => do
    act (.consumed proposal subject)
    pure (some proposal)

/-! ## The catalog -/

/-- `try: … except Exception:` around a call of the catalog: what raises is handed on as `error`. -/
def getAvailable (d : Deployment) (code : String) (permissions : List String) :
    GatewayM (Except String (Option PlatformCapability)) := do
  let g ← get
  modify fun g => { g with reads := g.reads + 1 }
  act (.read g.reads code permissions)
  match (d.catalog g.reads).bind fun catalog => catalog.getAvailable code permissions with
  | .ok capability => pure (.ok capability)
  | .error (.exception type) => pure (.error type)
  | .error e => throw e

/-! ## Confirmation -/

def confirmWords : List String := ["confirm", "yes", "y", "ok", "approve", "确认", "同意"]

def cancelWords : List String := ["cancel", "no", "n", "reject", "取消", "不确认", "拒绝"]

def rejected (message errorCode : String) : ConfirmationResult :=
  { status := .rejected, message, errorCode := some errorCode }

/-- `respond`, for the inputs there are: none of them is blank. -/
def respond (proposal : ConfirmationProposal) (input : ConfirmationAction) : ConfirmationResult :=
  if proposal.state = .cancelled then rejected "该请求已经取消。" "PROPOSAL_CANCELLED"
  else if proposal.state ≠ .pending then rejected "该请求不再等待批准。" "PROPOSAL_NOT_PENDING"
  else if input.text ∈ cancelWords then
    { status := .cancelled
      proposal := some { proposal with state := .cancelled }
      message := "已取消该请求，未执行任何操作。" }
  else if input.text ∉ confirmWords then
    { status := .pending
      proposal := some proposal
      message := "请明确选择批准执行或取消。"
      errorCode := some "UNRECOGNIZED_CONFIRMATION_INPUT" }
  else
    { status := .confirmed
      proposal := some { proposal with state := .confirmed }
      approvedDispatch := some {
        proposalId := proposal.proposalId
        capabilityCode := proposal.capabilityCode
        dispatchKey := proposal.dispatchKey
        inputs := proposal.inputs }
      message := "请求已获批准。" }

def createProposal (d : Deployment) (assessment : IntentAssessment) (permissions : List String)
    (proposalId : String) : GatewayM ConfirmationResult :=
  match assessment.status, assessment.capabilityCode with
  | .matched, some code => do
    match ← getAvailable d code (normalizedPermissions permissions) with
    | .error _ => pure (rejected "当前服务暂时不可用，请稍后重试。" "CAPABILITY_CATALOG_UNAVAILABLE")
    | .ok none => pure (rejected "当前请求暂时无法处理。" "CAPABILITY_UNAVAILABLE")
    | .ok (some capability) =>
      if capability.confirmationPolicy = .never then
        pure (rejected "当前能力不需要确认，不能创建待确认提议。" "CONFIRMATION_NOT_REQUIRED")
      else do
        let validation ← lift (validateCapabilityInputs capability assessment.extractedInputs)
        if validation.valid then
          pure {
            status := .pending
            proposal := some {
              proposalId
              capabilityCode := capability.code
              capabilityType := capability.capabilityType
              dispatchKey := capability.dispatchKey
              inputs := assessment.extractedInputs
              summary := capability.description
              confirmationPrompt := "批准后将开始处理该请求。" }
            message := "需要你的明确批准后才会开始处理。" }
        else
          pure (rejected "当前请求的信息还不完整，暂时无法提交批准。" "INPUT_VALIDATION_FAILED")
  | _, _ => pure (rejected "当前没有可确认的有效请求。" "NO_MATCHED_INTENT")

/-! ## Recognition -/

def clarify (code : String) (text : String) : IntentAssessment :=
  { status := .needsClarification, clarification := some text, errorCode := some code }

/-- The candidates that are available, each once, in their order. -/
def loadAvailableCandidates (d : Deployment) (permissions : List String) :
    List String → List (String × PlatformCapability) →
      GatewayM (Except String (List (String × PlatformCapability)))
  | [], loaded => pure (.ok loaded)
  | code :: codes, loaded =>
    if code ∈ loaded.map Prod.fst then loadAvailableCandidates d permissions codes loaded
    else do
      match ← getAvailable d code permissions with
      | .error e => pure (.error e)
      | .ok none => loadAvailableCandidates d permissions codes loaded
      | .ok (some capability) =>
        loadAvailableCandidates d permissions codes (loaded ++ [(code, capability)])

/-- `output_schema.model_validate` -/
def validOutput (candidateCodes : List String) (output : ModelOutput) : Bool :=
  (match output.capabilityCode with
    | none => true
    | some code => code ∈ candidateCodes) &&
  match output.confidence with
    | none => true
    | some confidence => 0 ≤ confidence && confidence ≤ 1

/-- `{**extracted, **provided}` -/
def merged (extracted provided : Inputs) : Inputs :=
  extracted.map (fun f => (f.1, (provided.lookup f.1).getD f.2)) ++
    provided.filter fun f => (extracted.lookup f.1).isNone

def toAssessment (d : Deployment) (output : ModelOutput)
    (candidates : List (String × PlatformCapability)) (permissions : List String)
    (providedInputs : Inputs) (model promptVersion : String) : GatewayM IntentAssessment :=
  let base : IntentAssessment :=
    { status := .unrecognized
      candidateCodes := candidates.map Prod.fst
      model := some model
      promptVersion := some promptVersion }
  let extractedInputs := merged output.extractedInputs providedInputs
  if output.status = .unrecognized then
    pure { base with clarification := some (orText output.clarification "暂时无法理解这项请求，请换一种方式描述。") }
  else
    match output.capabilityCode with
    | none =>
      pure { base with
        status := if output.status = .matched then .unrecognized else .needsClarification
        clarification := some (orText output.clarification "请补充说明你希望完成的工作。")
        errorCode := some "MISSING_CAPABILITY_CODE" }
    | some code =>
      if code ∉ candidates.map Prod.fst then
        pure { base with
          clarification := some "当前请求暂时无法处理。"
          errorCode := some "CAPABILITY_OUT_OF_CANDIDATE_SCOPE" }
      else do
        match ← getAvailable d code permissions with
        | .error _ =>
          pure { base with
            status := .needsClarification
            clarification := some "当前服务暂时不可用，请稍后重试。"
            errorCode := some "CAPABILITY_CATALOG_UNAVAILABLE" }
        | .ok none =>
          pure { base with
            status := .needsClarification
            clarification := some "当前请求暂时无法处理。"
            errorCode := some "CAPABILITY_UNAVAILABLE" }
        | .ok (some capability) => do
          let validation ← lift (validateCapabilityInputs capability extractedInputs)
          let found := { base with
            capabilityCode := some code, extractedInputs, confidence := output.confidence }
          if !validation.valid then
            pure { found with
              status := .needsClarification
              missingFields := validation.missingFields
              clarification := some "请补充完成这项请求所需的信息。"
              errorCode := some "INPUT_VALIDATION_FAILED" }
          else if output.status ≠ .matched then
            pure { found with
              status := .needsClarification
              clarification := some (orText output.clarification "请补充完成这项请求所需的信息。") }
          else pure { found with status := .matched }

/-- `StructuredIntentRecognition.recognize` -/
def recognizeIntent (d : Deployment) (s : Surroundings) (userInput : String)
    (permissions : List String) (providedInputs : Inputs) : GatewayM IntentAssessment :=
  if strip userInput = "" then pure (clarify "EMPTY_INPUT" "请描述你希望完成的工作。")
  else
    match s.retrieval with
    | .error (.exception _) =>
      pure (clarify "CANDIDATE_RETRIEVAL_UNAVAILABLE" "当前服务暂时不可用，请稍后重试。")
    | .error e => throw e
    | .ok .unavailable =>
      pure (clarify (orText s.retrievalError "CANDIDATE_RETRIEVAL_UNAVAILABLE")
        "当前服务暂时不可用，请稍后重试。")
    | .ok status =>
      if status ≠ .ready ∨ s.candidates = [] then
        pure {
          status := .unrecognized
          clarification := some "暂时无法理解这项请求，请换一种方式描述。"
          errorCode := some "NO_CAPABILITY_CANDIDATES" }
      else do
        let permissions := normalizedPermissions permissions
        match ← loadAvailableCandidates d permissions s.candidates [] with
        | .error _ => pure (clarify "CAPABILITY_CATALOG_UNAVAILABLE" "当前服务暂时不可用，请稍后重试。")
        | .ok candidates =>
          if candidates.isEmpty then
            pure (clarify "NO_AVAILABLE_CAPABILITY_CANDIDATES" "当前请求暂时无法处理。")
          else
            let invalid : IntentAssessment := {
              status := .unrecognized
              candidateCodes := candidates.map Prod.fst
              clarification := some "暂时无法理解这项请求，请稍后重试。"
              errorCode := some "INVALID_INTENT_MODEL_RESULT" }
            match s.output with
            | .error (.exception _) => pure invalid
            | .error e => throw e
            | .ok output =>
              if validOutput (candidates.map Prod.fst) output then
                toAssessment d output candidates permissions providedInputs s.model s.promptVersion
              else pure invalid

/-! ## The gateway -/

def generalChatCapabilityCode : String := "chat.general"

def generalChatDispatchKey : String := "llm.chat"

def unavailable (assessment : IntentAssessment) : GatewayResult :=
  { status := .rejected
    message := "该能力当前不可用或当前主体没有调用权限。"
    assessment := some assessment
    errorCode := some "CAPABILITY_UNAVAILABLE" }

def missingCode (assessment : IntentAssessment) : GatewayResult :=
  { status := .rejected
    message := "当前请求没有可执行的能力标识。"
    assessment := some assessment
    errorCode := some "MISSING_CAPABILITY_CODE" }

/-- A result, the assessment with its attachments in place. -/
def resolveAttachments (d : Deployment) (s : Surroundings) (assessment : IntentAssessment)
    (permissions : List String) : GatewayM (Except GatewayResult IntentAssessment) :=
  match assessment.capabilityCode with
  | none => pure (.error (missingCode assessment))
  | some code => do
    match ← getAvailable d code permissions with
    | .error _ =>
      pure (.error {
        status := .needsClarification
        message := "能力目录暂时不可用，请稍后重试。"
        assessment := some assessment
        errorCode := some "CAPABILITY_CATALOG_UNAVAILABLE" })
    | .ok none => pure (.error (unavailable assessment))
    | .ok (some capability) =>
      if attachmentFields capability = [] then pure (.ok assessment)
      else
        match s.resolve with
        | none =>
          pure (.error {
            status := .needsClarification
            message := "附件解析服务暂时不可用，请稍后重试。"
            assessment := some assessment
            errorCode := some "ATTACHMENT_RESOLUTION_UNAVAILABLE" })
        | some resolve => do
          let resolution ← lift (resolve capability assessment.extractedInputs)
          if resolution.resolved then
            pure (.ok { assessment with extractedInputs := resolution.inputs })
          else
            pure (.error {
              status := .needsClarification
              message := "附件无法用于当前请求，请重新上传或检查附件约束。"
              assessment := some { assessment with
                status := .needsClarification
                clarification := some "请提供满足当前能力约束的附件。"
                errorCode := resolution.errorCode }
              errorCode := some (orText resolution.errorCode "ATTACHMENT_RESOLUTION_FAILED") })

/-- A refusal, a direct execution, or none of both: a confirmation is needed. -/
def prepareUnconfirmedExecution (d : Deployment) (assessment : IntentAssessment)
    (permissions : List String) :
    GatewayM (Except GatewayResult (Option DirectCapabilityExecution)) :=
  match assessment.capabilityCode with
  | none => pure (.error (missingCode assessment))
  | some code => do
    match ← getAvailable d code permissions with
    | .error _ =>
      pure (.error {
        status := .rejected
        message := "能力目录暂时不可用，未执行目标能力。"
        assessment := some assessment
        errorCode := some "CAPABILITY_CATALOG_UNAVAILABLE" })
    | .ok none => pure (.error (unavailable assessment))
    | .ok (some capability) =>
      if capability.confirmationPolicy ≠ .never then pure (.ok none)
      else do
        let validation ← lift (validateCapabilityInputs capability assessment.extractedInputs)
        if validation.valid then
          pure (.ok (some ⟨capability.code, capability.dispatchKey, assessment.extractedInputs⟩))
        else
          pure (.error {
            status := .rejected
            message := "请求输入不符合当前能力契约，未执行目标能力。"
            assessment := some assessment
            errorCode := some "INPUT_VALIDATION_FAILED" })

/-- The direct execution is handed to the caller. -/
def authorize (principal : RequestPrincipal) (message : String) (assessment : IntentAssessment)
    (execution : DirectCapabilityExecution) : GatewayM GatewayResult := do
  act (.executed .direct
    ⟨execution.capabilityCode, execution.dispatchKey, execution.inputs, principal⟩)
  pure {
    status := .authorized
    message
    assessment := some assessment
    directExecution := some execution }

def prepareGeneralChatFallback (d : Deployment) (command : GatewayRecognitionCommand)
    (assessment : IntentAssessment) (permissions : List String) :
    GatewayM (Option GatewayResult) := do
  let fallback : IntentAssessment :=
    { status := .matched
      capabilityCode := some generalChatCapabilityCode
      extractedInputs := [("message", .str (strip command.userInput))]
      candidateCodes := assessment.candidateCodes }
  match ← prepareUnconfirmedExecution d fallback permissions with
  | .error _ | .ok none => pure none
  | .ok (some execution) =>
    if execution.capabilityCode ≠ generalChatCapabilityCode ∨
        execution.dispatchKey ≠ generalChatDispatchKey then pure none
    else do
      let result ← authorize command.principal "未识别文本已通过受控通用对话路径复核。" fallback
        execution
      pure (some result)

/-- A matched request, with its capability read again at every gate. -/
def recognizeMatched (d : Deployment) (s : Surroundings) (command : GatewayRecognitionCommand)
    (assessment : IntentAssessment) (permissions : List String) : GatewayM GatewayResult := do
  match ← resolveAttachments d s assessment permissions with
  | .error result => pure result
  | .ok assessment => do
    match ← prepareUnconfirmedExecution d assessment permissions with
    | .error result => pure result
    | .ok (some execution) =>
      authorize command.principal "该请求已通过服务端复核，可以在受控路径中继续处理。" assessment execution
    | .ok none => do
      let confirmation ← createProposal d assessment permissions s.proposalId
      match confirmation.status, confirmation.proposal with
      | .pending, some proposal => do
        save d proposal command.principal.subject
        pure {
          status := .pending
          message := "已生成待确认提议，明确确认后才会执行。"
          assessment := some assessment
          proposal := some proposal }
      | _, _ =>
        pure {
          status := .rejected
          message := confirmation.message
          assessment := some assessment
          errorCode := confirmation.errorCode }

/-- A request that is not matched goes to the general chat, if it is not recognized at all. -/
def recognizeUnmatched (d : Deployment) (command : GatewayRecognitionCommand)
    (assessment : IntentAssessment) (permissions : List String) : GatewayM GatewayResult := do
  let refusal : GatewayResult :=
    { status := assessment.status.gateway
      message := orText assessment.clarification "暂时无法形成可确认的能力提议。"
      assessment := some assessment
      errorCode := assessment.errorCode }
  if assessment.status = .unrecognized then
    match ← prepareGeneralChatFallback d command assessment permissions with
    | some result => pure result
    | none => pure refusal
  else pure refusal

def recognize (d : Deployment) (s : Surroundings) (command : GatewayRecognitionCommand) :
    GatewayM GatewayResult :=
  match s.indexFailure with
  | some errorCode =>
    pure {
      status := .needsClarification
      message := "能力候选暂时不可用，请稍后重试。"
      errorCode := some (orText errorCode "INDEX_BUILD_FAILED") }
  | none => do
    let permissions := command.principal.permissionTuple
    let assessment ← recognizeIntent d s command.userInput permissions command.providedInputs
    if assessment.status = .matched then recognizeMatched d s command assessment permissions
    else recognizeUnmatched d command assessment permissions

/-! ## Dispatch -/

def failedDispatch (message errorCode : String) : DispatchResult :=
  { status := .failed, message, errorCode := some errorCode }

def rejectedDispatch (message errorCode : String) : DispatchResult :=
  { status := .rejected, message, errorCode := some errorCode }

/-- The handler is called, and what it raises is mapped. -/
def callHandler (s : Surroundings) (route : Route) (execution : Execution) :
    GatewayM DispatchResult := do
  act (.executed route execution)
  match s.handler with
  | .ok value =>
    pure { status := .completed, message := "目标能力已完成执行。", executionResult := some value }
  | .error (.exception type) =>
    if type = "LookupError" then
      pure (failedDispatch "能力分发目标当前不可用，未执行目标能力。" "DISPATCH_TARGET_UNAVAILABLE")
    else if type = "ValueError" then
      pure (rejectedDispatch "能力输入无法构造目标命令，未执行目标能力。" "DISPATCH_INPUT_INVALID")
    else pure (failedDispatch "目标能力执行失败。" "DISPATCH_EXECUTION_FAILED")
  | .error e => throw e

def dispatch (d : Deployment) (s : Surroundings) (approved : ApprovedCapabilityDispatch)
    (principal : RequestPrincipal) : GatewayM DispatchResult := do
  match ← getAvailable d approved.capabilityCode principal.permissionTuple with
  | .error _ =>
    pure (failedDispatch "能力目录暂时不可用，未执行目标能力。" "CAPABILITY_CATALOG_UNAVAILABLE")
  | .ok none => pure (rejectedDispatch "该能力当前不可用或当前主体没有调用权限。" "CAPABILITY_UNAVAILABLE")
  | .ok (some capability) =>
    if capability.dispatchKey ≠ approved.dispatchKey then
      pure (rejectedDispatch "确认提议与当前能力目录不一致，未执行目标能力。" "DISPATCH_KEY_MISMATCH")
    else do
      let validation ← lift (validateCapabilityInputs capability approved.inputs)
      if !validation.valid then
        pure (rejectedDispatch "确认提议输入已不符合当前能力契约，未执行目标能力。"
          "DISPATCH_INPUT_INVALID")
      else
        let execution : Execution :=
          ⟨capability.code, capability.dispatchKey, approved.inputs, principal⟩
        if capability.capabilityType = .agent then
          if d.agentHandler then callHandler s .agentHandler execution
          else pure (failedDispatch "Agent 运行时未配置，未执行目标能力。" "DISPATCH_TARGET_UNAVAILABLE")
        else if capability.dispatchKey ∈ d.handlers then callHandler s .handler execution
        else pure (failedDispatch "能力分发目标未配置，未执行目标能力。" "DISPATCH_TARGET_UNAVAILABLE")

def proposalUnavailable : String := "确认提议不存在、已过期、已处理或不属于当前主体。"

/-- `confirm`, once the proposal is consumed. -/
def confirmConsumed (d : Deployment) (s : Surroundings) (command : GatewayConfirmationCommand)
    (proposal : ConfirmationProposal) : GatewayM GatewayResult :=
  if proposal.capabilityType = .agent then
    pure {
      status := .rejected
      message := "Agent 调用必须在 Chat 对话中确认，未执行目标能力。"
      proposal := some proposal
      errorCode := some "AGENT_DIALOGUE_CONFIRMATION_REQUIRED" }
  else
    let confirmation := respond proposal command.action
    match confirmation.status, confirmation.approvedDispatch with
    | .cancelled, _ =>
      pure { status := .cancelled, message := confirmation.message, proposal := confirmation.proposal }
    | .confirmed, some approved => do
      let dispatched ← dispatch d s approved command.principal
      pure {
        status := dispatched.status
        message := dispatched.message
        proposal := confirmation.proposal
        executionResult := dispatched.executionResult
        errorCode := dispatched.errorCode }
    | _, _ =>
      pure {
        status := .rejected
        message := confirmation.message
        proposal := confirmation.proposal
        errorCode := confirmation.errorCode }

def confirm (d : Deployment) (s : Surroundings) (command : GatewayConfirmationCommand) :
    GatewayM GatewayResult := do
  match ← consume command.proposalId command.principal.subject with
  | none =>
    pure {
      status := .rejected
      message := proposalUnavailable
      errorCode := some "PROPOSAL_UNAVAILABLE" }
  | some proposal => confirmConsumed d s command proposal

def rejectedDialogue (proposal : ConfirmationProposal) (message errorCode : String) :
    DialogueAgentConfirmationResult :=
  { status := .rejected, message, proposal := some proposal, errorCode := some errorCode }

/-- How a response of the confirmation is passed on. -/
def dialogueResponse (confirmation : ConfirmationResult) : DialogueAgentConfirmationResult :=
  match confirmation.status, confirmation.approvedDispatch with
  | .cancelled, _ =>
    { status := .cancelled, message := confirmation.message, proposal := confirmation.proposal }
  | .confirmed, some approved =>
    { status := .confirmed
      message := confirmation.message
      proposal := confirmation.proposal
      approvedDispatch := some approved }
  | _, _ =>
    { status := .rejected
      message := confirmation.message
      proposal := confirmation.proposal
      errorCode := confirmation.errorCode }

/-- The approved dispatch is handed to the dialogue. -/
def approve (principal : RequestPrincipal) (result : DialogueAgentConfirmationResult) :
    GatewayM DialogueAgentConfirmationResult := do
  match result.approvedDispatch with
  | none => pure result
  | some approved => do
    act (.executed .dialogueAgent
      ⟨approved.capabilityCode, approved.dispatchKey, approved.inputs, principal⟩)
    pure result

/-- `confirm_dialogue_agent`, once the proposal is consumed. -/
def confirmDialogueAgentConsumed (d : Deployment) (command : GatewayConfirmationCommand)
    (proposal : ConfirmationProposal) : GatewayM DialogueAgentConfirmationResult :=
  if proposal.capabilityType ≠ .agent then
    pure (rejectedDialogue proposal "该提议不是对话 Agent 调用。" "NOT_AGENT_PROPOSAL")
  else if command.action = .cancel then
    let confirmation := respond proposal command.action
    -- what is cancelled is never approved
    pure (if confirmation.status = .cancelled then
        { status := .cancelled, message := confirmation.message, proposal := confirmation.proposal }
      else
        { status := .rejected
          message := confirmation.message
          proposal := confirmation.proposal
          errorCode := confirmation.errorCode })
  else do
    match ← getAvailable d proposal.capabilityCode command.principal.permissionTuple with
    | .error _ =>
      pure (rejectedDialogue proposal "能力目录暂时不可用，未执行目标能力。"
        "CAPABILITY_CATALOG_UNAVAILABLE")
    | .ok none =>
      pure (rejectedDialogue proposal "该 Agent 能力当前不可用或当前主体没有调用权限。"
        "CAPABILITY_UNAVAILABLE")
    | .ok (some capability) =>
      if capability.capabilityType ≠ .agent then
        pure (rejectedDialogue proposal "该 Agent 能力当前不可用或当前主体没有调用权限。"
          "CAPABILITY_UNAVAILABLE")
      else if capability.dispatchKey ≠ proposal.dispatchKey then
        pure (rejectedDialogue proposal "确认提议与当前能力目录不一致，未执行目标能力。"
          "DISPATCH_KEY_MISMATCH")
      else do
        let validation ← lift (validateCapabilityInputs capability proposal.inputs)
        if !validation.valid then
          pure (rejectedDialogue proposal "确认提议输入已不符合当前能力契约，未执行目标能力。"
            "DISPATCH_INPUT_INVALID")
        else approve command.principal (dialogueResponse (respond proposal command.action))

def confirmDialogueAgent (d : Deployment) (command : GatewayConfirmationCommand) :
    GatewayM DialogueAgentConfirmationResult := do
  match ← consume command.proposalId command.principal.subject with
  | none =>
    pure {
      status := .rejected
      message := proposalUnavailable
      errorCode := some "PROPOSAL_UNAVAILABLE" }
  | some proposal => confirmDialogueAgentConsumed d command proposal

end GoAgent.Interaction
