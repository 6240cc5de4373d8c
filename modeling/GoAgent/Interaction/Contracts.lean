import GoAgent.Foundation.Text
import Mathlib.Data.Finset.Sort
import Mathlib.Data.String.Basic
import Mathlib.Data.List.Sort

/-!
# The values an interaction passes on

A recognised request becomes a `ConfirmationProposal`; what a subject has confirmed is an
`ApprovedCapabilityDispatch`, and a call of an agent is a `StructuredAgentCall`. Inputs are a
`dict[str, object]`: JSON values, and the attachments a resolver has put in their place.
-/

namespace GoAgent.Interaction

open GoAgent.Foundation

inductive Value where
  | none
  | bool (b : Bool)
  | int (n : Int)
  | float (text : String)
  | str (s : String)
  | list (items : List Value)
  | tuple (items : List Value)
  | dict (fields : List (String × Value))
  /-- A `ResolvedAttachment`. -/
  | attachment (attachmentId : String)

abbrev Inputs := List (String × Value)

structure RequestPrincipal where
  subject : Option String := none
  permissions : Finset String := ∅
  authenticated : Bool := false

def RequestPrincipal.permissionTuple (principal : RequestPrincipal) : List String :=
  principal.permissions.sort

inductive CapabilityType where
  | agent | chat | knowledgeQa | policyDecision
  deriving DecidableEq

inductive ConfirmationProposalState where
  | pending | confirmed | cancelled
  deriving DecidableEq

structure ConfirmationProposal where
  proposalId : String
  state : ConfirmationProposalState := .pending
  capabilityCode : String
  capabilityType : CapabilityType := .chat
  dispatchKey : String
  inputs : Inputs := []
  summary : String
  confirmationPrompt : String

structure ApprovedCapabilityDispatch where
  proposalId : String
  capabilityCode : String
  dispatchKey : String
  inputs : Inputs := []

structure StructuredAgentCall where
  callId : String
  capabilityCode : String
  conversationId : Option String := none
  turnId : Option String := none
  runId : Option String := none
  parentRunId : Option String := none
  inputs : Inputs := []

end GoAgent.Interaction
