import GoAgent.Dialogue.AgentTurn
import GoAgent.Interaction.Gateway

/-!
# Confirmations and cancellations side by side

A proposal of an agent is kept twice: by the gateway, and with its call by the store of pending
invocations. A request to confirm or to cancel it is a thread of its own, and between two accesses
of a store any other thread may run. A `Phase` is the point before the next access of a thread; the
store of pending invocations is read and consumed under its lock, which `transaction` holds over
the consumption of both.

A proposal has a fresh id, which no request can name before it has been shown: until then it is
`hidden`. Both stores read one clock and have one time to live.
-/

namespace GoAgent.Interaction

open GoAgent.Foundation GoAgent.Dialogue.AgentTurn

/-! ## Pending invocations -/

structure DialogueAgentInvocationCommand where
  conversationId : Option UUID
  capabilityCode : String
  inputs : Inputs
  principal : RequestPrincipal
  call : Option StructuredAgentCall := none

structure PendingAgentInvocation where
  proposalId : String
  command : DialogueAgentInvocationCommand
  subject : Option String
  expiresAt : Int

abbrev Pending := List PendingAgentInvocation

namespace Pending

def purge (now : Int) (pending : Pending) : Pending :=
  pending.filter fun b => now < b.expiresAt

def save (d : Deployment) (now : Int) (proposalId : String)
    (command : DialogueAgentInvocationCommand) (pending : Pending) : Pending :=
  (pending.purge now).filter (fun b => b.proposalId ≠ proposalId) ++
    [⟨proposalId, command, command.principal.subject, now + d.ttlSeconds⟩]

/-- What `read` and `consume` answer. -/
def read (now : Int) (proposalId : String) (subject : Option String) (pending : Pending) :
    Option PendingAgentInvocation :=
  match lookup PendingAgentInvocation.proposalId proposalId (pending.purge now) with
  | none => none
  | some b => if b.subject ≠ subject then none else some b

/-- What `consume` leaves. -/
def consume (now : Int) (proposalId : String) (subject : Option String) (pending : Pending) :
    Pending :=
  match pending.read now proposalId subject with
  | none => pending.purge now
  | some _ => (pending.purge now).filter fun b => b.proposalId ≠ proposalId

end Pending

/-! ## What follows the consumption -/

def refusedTurn (message errorCode : String) (conversationId : Option UUID := none) :
    DialogueAgentTurnPreparation where
  result := some
    { status := .rejected, message, errorCode := some errorCode, conversationId }
  exactlyOne := by simp

/-- `_confirm_agent_in_turn`, once both stores are consumed: a refusal, or the command to execute. -/
def confirmInTurn (command : GatewayConfirmationCommand) (conversationId : Option UUID)
    (confirmation : DialogueAgentConfirmationResult) (consumed : Option PendingAgentInvocation) :
    DialogueAgentTurnPreparation :=
  if confirmation.status = .rejected then
    { result := some {
        status := .rejected
        message := confirmation.message
        errorCode := confirmation.errorCode
        conversationId }
      exactlyOne := by simp }
  else
    match consumed with
    | none => refusedTurn "对话 Agent 调用上下文不可用。" "DIALOGUE_AGENT_CONTEXT_UNAVAILABLE"
    | some b =>
      match b.command.conversationId, b.command.call with
      | some conversation, some call =>
        match confirmation.approvedDispatch with
        | none =>
          refusedTurn "确认提议未生成有效批准信息。" "APPROVED_DISPATCH_UNAVAILABLE" (some conversation)
        | some approvedDispatch =>
          { command := some {
              conversationId := conversation
              capabilityCode := b.command.capabilityCode
              inputs := b.command.inputs
              principal := command.principal
              approvedDispatch
              call }
            exactlyOne := by simp }
      | _, _ => refusedTurn "对话 Agent 调用上下文不可用。" "DIALOGUE_AGENT_CONTEXT_UNAVAILABLE"

def refused (message errorCode : String) (conversationId : Option UUID := none) : GatewayResult :=
  { status := .rejected, message, errorCode := some errorCode, conversationId }

/-- `_cancel_agent_confirmation`, once both stores are consumed: a refusal, or the call whose
cancellation is to be recorded. -/
def cancelConsumed (conversationId : Option UUID) (confirmation : DialogueAgentConfirmationResult)
    (consumed : Option PendingAgentInvocation) :
    Except GatewayResult (UUID × StructuredAgentCall) :=
  if confirmation.status = .rejected then
    .error {
      status := .rejected
      message := confirmation.message
      errorCode := confirmation.errorCode
      conversationId }
  else
    match consumed with
    | none => .error (refused "对话 Agent 调用上下文不可用。" "DIALOGUE_AGENT_CONTEXT_UNAVAILABLE")
    | some b =>
      match b.command.conversationId, b.command.call with
      | some conversation, some call =>
        if confirmation.status ≠ .cancelled then
          .error (refused "确认提议未生成有效取消信息。" "CANCELLATION_UNAVAILABLE" (some conversation))
        else .ok (conversation, call)
      | _, _ => .error (refused "对话 Agent 调用上下文不可用。" "DIALOGUE_AGENT_CONTEXT_UNAVAILABLE")

/-- What `cancel_confirmation` answers, once the event is recorded. -/
def cancelledCall (conversation : UUID) : GatewayResult :=
  { status := .cancelled
    message := "已取消 Agent 调用，未执行任何业务操作。"
    errorCode := some "AGENT_CALL_CANCELLED"
    conversationId := some conversation }

def unavailableConfirmation : DialogueAgentConfirmationResult :=
  { status := .rejected
    message := proposalUnavailable
    errorCode := some "PROPOSAL_UNAVAILABLE" }

/-! ## Threads -/

inductive Phase where
  /-- Before `read` in `confirm_agent`. -/
  | reading
  /-- Before `confirm` of the gateway consumes. -/
  | plain
  /-- `confirm` has consumed a proposal. -/
  | plainConsumed (proposal : ConfirmationProposal)
  /-- Before `with transaction()`, with the conversation found by `read`. -/
  | entering (conversationId : Option UUID)
  /-- Before `read` in `_cancel_agent_confirmation`. -/
  | cancelReading
  /-- Before `confirm_dialogue_agent` consumes. -/
  | consuming (conversationId : Option UUID)
  /-- `confirm_dialogue_agent` has consumed a proposal. -/
  | consumed (conversationId : Option UUID) (proposal : ConfirmationProposal)
  /-- `confirm_dialogue_agent` has found no proposal; before `consume` of the pending invocation. -/
  | unavailable (conversationId : Option UUID)
  /-- `confirm_dialogue_agent` has decided a proposal; before `consume` of the pending invocation. -/
  | closing (conversationId : Option UUID)
      (confirmation : Except BaseException DialogueAgentConfirmationResult)
  /-- Before `cancel_confirmation` records its event. -/
  | recording (conversation : UUID) (call : StructuredAgentCall)
  | answered (result : Except BaseException GatewayResult)
  /-- The confirmation of a turn has ended. -/
  | prepared (preparation : Except BaseException DialogueAgentTurnPreparation)

structure Thread where
  command : GatewayConfirmationCommand
  phase : Phase

def Thread.subject (t : Thread) : Option String := t.command.principal.subject

/-- The parts of the chat application that may be left out. -/
structure Application where
  deployment : Deployment
  dialogueAgents : Bool := true
  turnExecutor : Bool := true

structure World where
  gateway : Gateway := {}
  pending : Pending := []
  /-- The thread in `transaction`. -/
  lock : Option Nat := none
  threads : List Thread := []
  hidden : List String := []
  /-- The proposals the gateway's store has given out, with the subject that consumed them. -/
  taken : List (String × Option String) := []
  /-- The pending invocations consumed, with the subject that consumed them. -/
  withdrawn : List (String × Option String) := []
  /-- The proposals whose consumption has ended. -/
  decided : List String := []
  dispatches : List String := []
  /-- The proposals with a cancelled event. -/
  cancellations : List String := []

inductive Event where
  /-- A recognition keeps a proposal. -/
  | issue (proposal : ConfirmationProposal) (subject : Option String)
  /-- Its preparation binds the call of an agent. -/
  | bind (proposalId : String) (command : DialogueAgentInvocationCommand)
  /-- It is shown without a call. -/
  | announce (proposalId : String)
  | wait (ticks : Nat)
  /-- A request to confirm or to cancel. -/
  | request (command : GatewayConfirmationCommand)
  /-- `cancel_preparation`, before the proposal is shown. -/
  | withdraw (proposalId : String) (principal : RequestPrincipal)
  | advance (thread : Nat) (s : Surroundings)
  /-- The wait for the turn, or `cancel_confirmation`, raises. -/
  | raise (thread : Nat) (e : BaseException)

def executions (acts : List Act) : Nat :=
  acts.countP fun a => match a with
    | .executed .. => true
    | .read .. | .consumed .. => false

namespace World

def moveTo (w : World) (k : Nat) (t : Thread) (phase : Phase) : World :=
  { w with threads := w.threads.set k { t with phase } }

def answer (w : World) (k : Nat) (t : Thread) (result : GatewayResult) : World :=
  w.moveTo k t (.answered (.ok result))

def release (w : World) : World := { w with lock := none }

/-- A state of the gateway, out of a run of one of its functions. -/
def ran {α : Type} (w : World) :
    EStateM.Result BaseException Gateway α → World × Except BaseException α
  | .ok a g => ({ w with gateway := g }, .ok a)
  | .error e g => ({ w with gateway := g }, .error e)

/-- The gateway consumes for a thread. -/
def gatewayConsume (w : World) (t : Thread) : World × Option ConfirmationProposal :=
  let (proposal, entries) := w.gateway.consumed t.command.proposalId t.subject
  ({ w with
      gateway := { w.gateway with entries }
      taken := w.taken ++ (proposal.map fun _ => (t.command.proposalId, t.subject)).toList },
    proposal)

/-- `read` of the pending invocations, which purges. -/
def pendingRead (w : World) (t : Thread) : World × Option PendingAgentInvocation :=
  ({ w with pending := w.pending.purge w.gateway.now },
    w.pending.read w.gateway.now t.command.proposalId t.subject)

def pendingConsume (w : World) (t : Thread) : World × Option PendingAgentInvocation :=
  let b := w.pending.read w.gateway.now t.command.proposalId t.subject
  ({ w with
      pending := w.pending.consume w.gateway.now t.command.proposalId t.subject
      withdrawn := w.withdrawn ++ (b.map fun _ => (t.command.proposalId, t.subject)).toList },
    b)

/-- The end of `confirm_agent` for what `read` has found. -/
def route (a : Application) (w : World) (k : Nat) (t : Thread) :
    Option PendingAgentInvocation → World
  | none => w.moveTo k t .plain
  | some b =>
    if t.command.action = .cancel then w.moveTo k t (.entering none)
    else if !a.turnExecutor then
      w.answer k t {
        status := .failed
        message := "对话 Agent 调用暂时不可用。"
        errorCode := some "DIALOGUE_AGENT_UNAVAILABLE" }
    else
      match b.command.conversationId with
      | none =>
        w.answer k t (refused "对话 Agent 调用上下文不可用。" "DIALOGUE_AGENT_CONTEXT_UNAVAILABLE")
      | some conversation => w.moveTo k t (.entering (some conversation))

/-- The end of the transaction, with what the pending invocations have given. -/
def close (w : World) (k : Nat) (t : Thread) (conversationId : Option UUID)
    (confirmation : Except BaseException DialogueAgentConfirmationResult)
    (consumed : Option PendingAgentInvocation) : World :=
  match t.command.action, confirmation with
  | .confirm, .error e => (w.moveTo k t (.prepared (.error e))).release
  | .cancel, .error e => (w.moveTo k t (.answered (.error e))).release
  | .confirm, .ok confirmation =>
    let preparation := confirmInTurn t.command conversationId confirmation consumed
    { (w.moveTo k t (.prepared (.ok preparation))).release with
      dispatches := w.dispatches ++
        (preparation.command.map fun _ => t.command.proposalId).toList }
  | .cancel, .ok confirmation =>
    match cancelConsumed conversationId confirmation consumed with
    | .error result => (w.answer k t result).release
    | .ok (conversation, call) => w.moveTo k t (.recording conversation call)

/-- What a thread does up to its next access of a store. -/
def advance (a : Application) (w : World) (k : Nat) (t : Thread) (s : Surroundings) :
    Option World :=
  match t.phase with
  | .reading =>
    if !a.dialogueAgents then some (w.moveTo k t .plain)
    else if w.lock.isSome then none
    else
      let (w, b) := w.pendingRead t
      some (w.route a k t b)
  | .plain =>
    match w.gatewayConsume t with
    | (w, none) =>
      some (w.answer k t (refused proposalUnavailable "PROPOSAL_UNAVAILABLE"))
    | (w, some proposal) => some (w.moveTo k t (.plainConsumed proposal))
  | .plainConsumed proposal =>
    let (w, result) := w.ran
      (confirmConsumed a.deployment s t.command proposal { w.gateway with acts := [] })
    some { w.moveTo k t (.answered result) with
      dispatches := w.dispatches ++
        List.replicate (executions w.gateway.acts) t.command.proposalId
      decided := w.decided ++ [t.command.proposalId] }
  | .entering conversationId =>
    if w.lock.isSome then none
    else
      some { w.moveTo k t (if t.command.action = .cancel then .cancelReading
          else .consuming conversationId) with
        lock := some k }
  | .cancelReading =>
    match w.pendingRead t with
    | (w, none) => some (w.answer k t (refused proposalUnavailable "PROPOSAL_UNAVAILABLE")).release
    | (w, some current) => some (w.moveTo k t (.consuming current.command.conversationId))
  | .consuming conversationId =>
    match w.gatewayConsume t with
    | (w, none) => some (w.moveTo k t (.unavailable conversationId))
    | (w, some proposal) => some (w.moveTo k t (.consumed conversationId proposal))
  | .consumed conversationId proposal =>
    let (w, confirmation) := w.ran
      (confirmDialogueAgentConsumed a.deployment t.command proposal { w.gateway with acts := [] })
    some (w.moveTo k t (.closing conversationId confirmation))
  | .unavailable conversationId =>
    let (w, b) := w.pendingConsume t
    some (w.close k t conversationId (.ok unavailableConfirmation) b)
  | .closing conversationId confirmation =>
    let (w, b) := w.pendingConsume t
    some { w.close k t conversationId confirmation b with
      decided := w.decided ++ [t.command.proposalId] }
  | .recording conversation _ =>
    some { (w.answer k t (cancelledCall conversation)).release with
      cancellations := w.cancellations ++ [t.command.proposalId] }
  | .answered _ | .prepared _ => none

def raise (w : World) (k : Nat) (t : Thread) (e : BaseException) : Option World :=
  match t.phase with
  | .entering _ =>
    if t.command.action = .cancel then none else some (w.moveTo k t (.prepared (.error e)))
  | .recording _ _ =>
    some (w.moveTo k t (.answered
      (if e = .exception "ConversationAccessDeniedError" then
        .ok (refused "会话不可用。" "CONVERSATION_ACCESS_DENIED")
      else .error e))).release
  | _ => none

/-- A thread begins, on a proposal that is not hidden. -/
def start (w : World) (t : Thread) : Option World :=
  if t.command.proposalId ∈ w.hidden then none
  else some { w with threads := w.threads ++ [t] }

def issuedId (w : World) (proposalId : String) : Prop :=
  ∃ i ∈ w.gateway.issued, i.1.proposalId = proposalId

instance (w : World) (proposalId : String) : Decidable (w.issuedId proposalId) :=
  inferInstanceAs (Decidable (∃ i ∈ w.gateway.issued, i.1.proposalId = proposalId))

def step (a : Application) (w : World) : Event → Option World
  | .issue proposal subject =>
    if w.issuedId proposal.proposalId ∨
        proposal.proposalId ∈ w.threads.map (fun t => t.command.proposalId) then none
    else
      let (w, _) := w.ran (save a.deployment proposal subject w.gateway)
      some { w with hidden := w.hidden ++ [proposal.proposalId] }
  | .bind proposalId command =>
    if !a.dialogueAgents ∨ w.lock.isSome ∨ proposalId ∉ w.hidden ∨
        (proposalId, command.principal.subject) ∉
          w.gateway.issued.map (fun i => (i.1.proposalId, i.2)) then none
    else some { w with
      pending := w.pending.save a.deployment w.gateway.now proposalId command
      hidden := w.hidden.filter (· ≠ proposalId) }
  | .announce proposalId => some { w with hidden := w.hidden.filter (· ≠ proposalId) }
  | .wait ticks => some { w with gateway := { w.gateway with now := w.gateway.now + ticks } }
  | .request command => w.start ⟨command, .reading⟩
  | .withdraw proposalId principal =>
    if !a.dialogueAgents then none
    else w.start ⟨⟨proposalId, .cancel, principal⟩, .entering none⟩
  | .advance k s => w.threads[k]?.bind fun t => w.advance a k t s
  | .raise k e => w.threads[k]?.bind fun t => w.raise k t e

end World

def Moves (a : Application) (w : World) (e : Event) (w' : World) : Prop := w.step a e = some w'

end GoAgent.Interaction
