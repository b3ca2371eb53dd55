import Backplane.Llm.SetupRetry
import Backplane.Llm.FallbackChain
import Backplane.Concur.Attempts
import Backplane.Identity.SignIn
import Backplane.Mcp.StreamAgreement
import Backplane.Mcp.EventStream
import Backplane.Sdk.Embedding
import Backplane.Data.JsonText
import Backplane.Mcp.PatchFidelity
import Backplane.Mcp.ServerPatch
import Backplane.Suite.ChunkWindows
import Backplane.Suite.Chunking
import Backplane.Data.Strip
import Backplane.Sdk.FileReading
import Backplane.Data.Utf8
import Backplane.Suite.UrlGuards
import Backplane.Data.IpAddress
import Backplane.Acl.Replacement
import Backplane.Acl.Reorder
import Backplane.Data.Vacant
import Backplane.Acl.Patterns
import Backplane.Data.Grammar
import Backplane.Suite.KnowledgeRetrieval
import Backplane.Data.Precedence
import Backplane.Suite.ToolHistory
import Backplane.Suite.Recall
import Backplane.Sdk.LlmStream
import Backplane.Llm.Jsonc
import Backplane.Files.GlobDelete
import Backplane.Router.Replay
import Backplane.Llm.FileRefResolution
import Backplane.Llm.FileRefs
import Backplane.Files.BlobIntegrity
import Backplane.Files.BlobStore
import Backplane.Data.Posix
import Backplane.Suite.Reaping
import Backplane.Mcp.ToolConvergence
import Backplane.Mcp.ToolCapabilities
import Backplane.Mcp.ToolUpdates
import Backplane.Chatbot.MappingCoherence
import Backplane.Chatbot.Mappings
import Backplane.Mcp.Renderable
import Backplane.Chatbot.CredentialRecovery
import Backplane.Chatbot.Discovery
import Backplane.Chatbot.CredentialInvariant
import Backplane.Chatbot.Credentials
import Backplane.Data.SingleUse
import Backplane.Mcp.CustomAgents
import Backplane.Data.Template
import Backplane.Llm.PresetEdits
import Backplane.Llm.PresetPolicy
import Backplane.Llm.PresetRequests
import Backplane.Llm.BaseUrl
import Backplane.Llm.Fallbacks
import Backplane.Mcp.Supervisor
import Backplane.Mcp.BridgeRow
import Backplane.Mcp.SseClient
import Backplane.Mcp.StdioClient
import Backplane.Data.EventSystem
import Backplane.Mcp.Calls
import Backplane.Mcp.Credentials
import Backplane.Llm.Hygiene
import Backplane.Llm.Reply
import Backplane.Llm.Request
import Backplane.Llm.GeminiRequest
import Backplane.Llm.OpenAIRequest
import Backplane.Llm.AnthropicRequest
import Backplane.Llm.CompletionsRequest
import Backplane.Llm.Messages
import Backplane.Llm.CompletionsStream
import Backplane.Llm.GeminiStream
import Backplane.Llm.AnthropicStream
import Backplane.Suite.Cron
import Backplane.Suite.KnowledgeCoherence
import Backplane.Suite.KnowledgeInvariant
import Backplane.Suite.Knowledge
import Backplane.Data.Deferred
import Backplane.Suite.FactIntegrity
import Backplane.Suite.FactGraph
import Backplane.Data.CappedGraph
import Backplane.Concur.Crash
import Backplane.Concur.Fallible
import Backplane.Suite.Prompts
import Backplane.Suite.ToolLoop
import Backplane.Data.Transcript
import Backplane.Suite.Episodes
import Backplane.Suite.Routing
import Backplane.Suite.Delegation
import Backplane.Suite.Summaries
import Backplane.Suite.Statements
import Backplane.Suite.Conversation
import Backplane.Concur.Serial
import Backplane.Suite.OneTurn
import Backplane.Suite.Turns
import Backplane.Concur.Ownership
import Backplane.Suite.LockExclusion
import Backplane.Suite.LockInvariant
import Backplane.Concur.AsyncLock
import Backplane.Suite.SessionLock
import Backplane.Data.TxTable
import Backplane.Identity.Unlinking
import Backplane.Identity.Rejection
import Backplane.Data.Rollback
import Backplane.Identity.Accounts
import Backplane.Sdk.Answering
import Backplane.Sdk.Handler
import Backplane.Sdk.Arrivals
import Backplane.Sdk.Streaming
import Backplane.Sdk.Stream
import Backplane.Files.Deletion
import Backplane.Sdk.Tools
import Backplane.Sdk.Correlation
import Backplane.Identity.Family
import Backplane.Llm.Resync
import Backplane.Llm.Presets
import Backplane.Db.Audit
import Backplane.Router.ProgressCache
import Backplane.Router.Isolation
import Backplane.Router.Acks
import Backplane.Identity.Onboarding
import Backplane.Identity.Registration
import Backplane.Acl.Catalog
import Backplane.Router.Notification
import Backplane.Router.Idempotency
import Backplane.Router.Cascade
import Backplane.Router.Absorption
import Backplane.Identity.Revocation
import Backplane.Identity.Presenting
import Backplane.Identity.Containment
import Backplane.Identity.Tokens
import Backplane.Identity.Lifecycle
import Backplane.Identity.Servicing
import Backplane.Data.References
import Backplane.Identity.Effects
import Backplane.Identity.Requests
import Backplane.Identity.Changes
import Backplane.Identity.Directory
import Backplane.Retention.Progress
import Backplane.Users.Levels
import Backplane.Router.Closing
import Backplane.Router.Inflight
import Backplane.Router.Resume
import Backplane.Router.Answer
import Backplane.Router.Delegation
import Backplane.Concur.Discipline
import Backplane.Router.FanOut
import Backplane.Db.Sessions
import Backplane.Db.Admission
import Backplane.Db.Transitions
import Backplane.Data.Repr
import Backplane.Db.Schema
import Backplane.Data.Table
import Backplane.Data.Forest
import Backplane.Protocol.Frames
import Backplane.Acl.Reload
import Backplane.Suite.CronFiring
