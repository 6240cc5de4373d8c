import GoAgent.Foundation.Transition
import GoAgent.Foundation.Raising
import GoAgent.Foundation.Keyed
import GoAgent.Foundation.Ledger
import GoAgent.Foundation.Text
import GoAgent.Foundation.Digraph
import GoAgent.Workflow.Definition
import GoAgent.Workflow.NodeRun
import GoAgent.Workflow.Run
import GoAgent.Workflow.Effect
import GoAgent.Workflow.History
import GoAgent.Workflow.Lifecycle
import GoAgent.Workflow.NodeMove
import GoAgent.Workflow.Status
import GoAgent.Workflow.EventLog
import GoAgent.Workflow.Readiness
import GoAgent.Workflow.Progress
import GoAgent.Workflow.Pending
import GoAgent.Workflow.NodeFacts
import GoAgent.Tasks.Attempt
import GoAgent.Tasks.Aggregate
import GoAgent.Tasks.Facts
import GoAgent.Tasks.Replay
import GoAgent.Tasks.Fencing
import GoAgent.Tasks.Reissue
import GoAgent.Foundation.Postgres
import GoAgent.Workflow.Writes
import GoAgent.Workflow.Repository
import GoAgent.Workflow.Application
import GoAgent.Workflow.Transactions
import GoAgent.Workflow.Attempts
import GoAgent.Workflow.OwnEvents
import GoAgent.Workflow.Outcomes
import GoAgent.Workflow.Interleaving
import GoAgent.Foundation.Json
import GoAgent.Foundation.Batching
import GoAgent.Tender.Contracts
import GoAgent.Tender.Merge
import GoAgent.Tender.Chunked
import GoAgent.Tender.Calls
import GoAgent.Foundation.Intervals
import GoAgent.Tender.Boundaries
import GoAgent.Dialogue.TurnCoordinator
import GoAgent.Interaction.Contracts
import GoAgent.Dialogue.AgentTurn
import GoAgent.Dialogue.StreamingConversation
import GoAgent.Foundation.Triple
import GoAgent.Interaction.Capabilities
import GoAgent.Interaction.Gateway
import GoAgent.Interaction.Gates
import GoAgent.Interaction.Confirmations
import GoAgent.Interaction.Decisions
import GoAgent.Attachments.Storage
import GoAgent.Attachments.Lifecycle
import GoAgent.Attachments.Filesystem
import GoAgent.Attachments.Access
import GoAgent.Attachments.Sharing
import GoAgent.Attachments.Staged
import GoAgent.Tender.ResultResources
import GoAgent.Tender.ResultBinding
import GoAgent.Tender.TaskSubmission
import GoAgent.Ingestion.Chunking
import GoAgent.Ingestion.Sections
import GoAgent.Ingestion.Cleaning
import GoAgent.Ingestion.Splitting
import GoAgent.Checklist.Submission
import GoAgent.Checklist.RulePack
import GoAgent.Foundation.Rejection
import GoAgent.Tasks.Transitions
import GoAgent.Tasks.Rejection
import GoAgent.Workflow.Rejection
import GoAgent.Workflow.Execution
import GoAgent.Workflow.Inputs
import GoAgent.Knowledge.Fusion
import GoAgent.Tasks.Reports
import GoAgent.Tasks.Worker
import GoAgent.Tasks.RetryScheduling
import GoAgent.Foundation.Base64
import GoAgent.Foundation.JsonParsing
import GoAgent.Foundation.JsonRoundTrip
import GoAgent.Foundation.IsoTime
import GoAgent.Foundation.Uuid
import GoAgent.Foundation.Utf8
import GoAgent.Http.Cursors
import GoAgent.Http.ListPages
import GoAgent.Foundation.Keyset
import GoAgent.Conversation.Context
import GoAgent.Conversation.History
import GoAgent.Tender.DocumentBlocks
import GoAgent.Tender.ChunkPlanning
import GoAgent.Tender.ChunkSizes
import GoAgent.Tender.FileNames
import GoAgent.Interaction.ChatStream
import GoAgent.Interaction.CandidateRetrieval
import GoAgent.Dialogue.ResultProjection
import GoAgent.Foundation.JsonSize
import GoAgent.Foundation.JsonWriting
import GoAgent.Llm.StructuredOutput
import GoAgent.Llm.ThinkingBlock
import GoAgent.Foundation.JsonNesting
import GoAgent.Llm.SchemaNormalization
import GoAgent.Llm.TransientRetry
import GoAgent.Llm.ChatRetryStream
import GoAgent.Llm.RequestGovernance
import GoAgent.Http.EventDelivery
import GoAgent.Workflow.RoundTrip
import GoAgent.Tasks.RoundTrip
import GoAgent.Conversation.Writing
import GoAgent.Tasks.Clients
import GoAgent.Tasks.Owned
import GoAgent.Tasks.Owned
