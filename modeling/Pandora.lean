import Pandora.Fleet.Admission
import Pandora.Fleet.GuardExpiry
import Pandora.Fleet.Supersession
import Pandora.Fleet.QuiescenceGuards
import Pandora.Jobs.Queue
import Pandora.Service.Websocket
import Pandora.Cron.References
import Pandora.Cron.RoundTrip
import Pandora.Vault.ReadBack
import Pandora.Vault.Rotation
import Pandora.Lsp.Dispatch
import Pandora.Service.SessionTokens
import Pandora.Service.DeviceProofs
import Pandora.Service.Correlation
import Pandora.Orchestration.Funding
import Pandora.Orchestration.Receipts
import Pandora.Subagents.Lockstep
import Pandora.Rollout.TamperEvidence
import Pandora.Rollout.Reduction
import Pandora.Swarm.Agreement
import Pandora.Swarm.Clocks
import Pandora.Swarm.Scheduling
import Pandora.Swarm.Causality
import Pandora.Memory.Durable
import Pandora.Memory.Synthesis
import Pandora.Memory.StepOrder
import Pandora.Mesh.Authenticity
import Pandora.Sessions.JournalChains
import Pandora.Kanban.Reclaim
import Pandora.Subagents.ReadBack
import Pandora.Context.Budget
import Pandora.Context.Secrets
import Pandora.Packages.Signing
import Pandora.Packages.Lifecycle
import Pandora.Packages.Ledger
import Pandora.Packages.Revocation
import Pandora.Packages.Reload
import Pandora.Vfs.Freshness
import Pandora.Backup.Sealing
import Pandora.Tools.Arguments
import Pandora.Tools.Mcp
import Pandora.Execution.ApprovalBinding
import Pandora.Agent.Compaction
import Pandora.Agent.Checkpoints
import Pandora.Agent.Transcripts
import Pandora.Agent.Gemini
import Pandora.Backup.AllOrNothing
import Pandora.Evolution.Repeats
import Pandora.Evolution.Processes
import Pandora.Evolution.Frontier
import Pandora.Evolution.Catalog
import Pandora.Orchestration.DependencyOrder
import Pandora.Orchestration.Loops
import Pandora.Orchestration.Diamond
import Pandora.Hnsw.Safety
import Pandora.Harness.Digests
import Pandora.Population.Lineage
import Pandora.Population.Planning
import Pandora.Sessions.Paging
import Pandora.Schedules.Claims
import Pandora.Edits.Exact
