import WorkspaceOs.Effect.RelyGuarantee
import WorkspaceOs.Agent.AgentCredentialService
import WorkspaceOs.Agent.ToolSecrets
import WorkspaceOs.Agent.Quota
import WorkspaceOs.Agent.NoEgress
import WorkspaceOs.Adapters.ClaimNext
import WorkspaceOs.Adapters.QueueCompletion
import WorkspaceOs.Adapters.VersionWriters
import WorkspaceOs.Server.Transitions
import WorkspaceOs.Server.Identity
import WorkspaceOs.Server.ConcurrentSignup
import WorkspaceOs.Server.FailedSignup
import WorkspaceOs.Server.Attribution
import WorkspaceOs.Server.InTurn
import WorkspaceOs.Adapters.StoredPolicy
import WorkspaceOs.Adapters.RoundTrip
import WorkspaceOs.Core.Lifecycle
import WorkspaceOs.Server.Password
import WorkspaceOs.Adapters.ObjectKeys
import WorkspaceOs.Posix.CommandLine
import WorkspaceOs.Js.Utf8Chunks
import WorkspaceOs.Adapters.DockerSandboxRunner
import WorkspaceOs.Agent.AnthropicModelProvider
import WorkspaceOs.Agent.AgentTurn
import WorkspaceOs.Agent.StrandedWork
import WorkspaceOs.Server.MemberRoute
import WorkspaceOs.Effect.Service
import WorkspaceOs.Effect.Refinement
import WorkspaceOs.Adapters.ObjectMap
import WorkspaceOs.Agent.BoardService
import WorkspaceOs.Server.Accounts
import WorkspaceOs.Server.SessionOrigin
import WorkspaceOs.Server.Sessions
import WorkspaceOs.Server.Postings
import WorkspaceOs.Server.BoardRefinement
import WorkspaceOs.Server.Answers
import WorkspaceOs.Effect.Ledger
import WorkspaceOs.Adapters.PinnedVersions
import WorkspaceOs.Adapters.QueueOrder
import WorkspaceOs.Effect.Handler
import WorkspaceOs.Adapters.Profile
import WorkspaceOs.Agent.McpTool
import WorkspaceOs.Effect.OwnHistory
import WorkspaceOs.Server.AuditTrail
