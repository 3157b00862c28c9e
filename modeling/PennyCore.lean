import PennyCore.Lib.Dict
import PennyCore.Lib.Py
import PennyCore.Lib.Run
import PennyCore.Lib.Unwinding
import PennyCore.Lib.Text
import PennyCore.Lib.Prog
import PennyCore.Lib.Lru
import PennyCore.Contracts.Value
import PennyCore.Contracts.Actions
import PennyCore.Contracts.Customers
import PennyCore.Orchestrator.Policy
import PennyCore.Orchestrator.Queue
import PennyCore.Orchestrator.QueueInvariant
import PennyCore.Orchestrator.Audit
import PennyCore.Orchestrator.Executor
import PennyCore.Orchestrator.Pipeline
import PennyCore.Orchestrator.PipelineSpec
import PennyCore.Orchestrator.PipelineInvariant
import PennyCore.Orchestrator.Lifecycle
import PennyCore.Orchestrator.Lockstep
import PennyCore.Orchestrator.Guarantees
import PennyCore.Orchestrator.Dedup
import PennyCore.Orchestrator.Atomicity
import PennyCore.Orchestrator.Tenancy
import PennyCore.Orchestrator.Isolation
import PennyCore.Orchestrator.Noninterference
import PennyCore.ContextEngine.CustomerRepository
import PennyCore.ContextEngine.Ingestion
import PennyCore.ContextEngine.Linking
import PennyCore.ContextEngine.Api
import PennyCore.ContextEngine.CustomerInvariant
import PennyCore.ContextEngine.LinkingRules
import PennyCore.ContextEngine.LinkingAgreement
import PennyCore.ContextEngine.LinkingSettled
import PennyCore.ContextEngine.LinkingAtomicity
import PennyCore.ContextEngine.LinkingRace
import PennyCore.ContextEngine.ApiAtomicity
import PennyCore.Contracts.Briefs
import PennyCore.ContextEngine.Segments
import PennyCore.ContextEngine.SemanticCache
import PennyCore.ContextEngine.CacheRefinement
import PennyCore.ContextEngine.CacheGuarantees
import PennyCore.ContextEngine.CacheIsolation
import PennyCore.ContextEngine.CachingClient
import PennyCore.Orchestrator.PolicyEngines
import PennyCore.ContextEngine.PgCustomerRepository
import PennyCore.ContextEngine.PgAddIdentity
import PennyCore.ContextEngine.RepositoryAgreement
import PennyCore.ContextEngine.RepositoryTwins
import PennyCore.Lib.Regex
import PennyCore.Lib.RegexSpans
import PennyCore.ContextEngine.PromptInjection
import PennyCore.Orchestrator.Planner
import PennyCore.Orchestrator.Listener
import PennyCore.Orchestrator.EndToEnd
import PennyCore.ContextEngine.IngestionRace
import PennyCore.ContextEngine.DuplicateDeliveries
import PennyCore.Lib.Greedy
import PennyCore.ContextEngine.BriefAssembly
import PennyCore.Lib.Ranked
import PennyCore.ContextEngine.Summarized
import PennyCore.ContextEngine.Hybrid
import PennyCore.ContextEngine.RetrievalAccounting
import PennyCore.ContextEngine.HybridWindows
import PennyCore.ContextEngine.HybridOrder
import PennyCore.ContextEngine.Semantic
import PennyCore.ContextEngine.Rerank
import PennyCore.Orchestrator.PlannerFallback
import PennyCore.Orchestrator.JsonLoads
import PennyCore.Orchestrator.ResponseGrammar
import PennyCore.Orchestrator.ReservedKeys
import PennyCore.Lib.RegexEdges
import PennyCore.ContextEngine.InjectionFlags
import PennyCore.Lib.Fifo
import PennyCore.ContextEngine.Timeouts
import PennyCore.ContextEngine.SlowCallQueue
import PennyCore.Orchestrator.RedisListener
import PennyCore.Orchestrator.JudgePrompt
import PennyCore.ContextEngine.CreationAtomicity
import PennyCore.Lib.FirstMax
import PennyCore.ContextEngine.NearestHit
import PennyCore.ContextEngine.PhoneNumbers
import PennyCore.Lib.Lines
import PennyCore.Lib.JsonScan
import PennyCore.Orchestrator.FenceTransparency
import PennyCore.Lib.Ring
import PennyCore.Lib.Recorder
import PennyCore.ContextEngine.Quarantine
import PennyCore.ContextEngine.QuarantineFeed
import PennyCore.Lib.Transactions
import PennyCore.ContextEngine.PgEventRepository
import PennyCore.Orchestrator.Approvals
import PennyCore.Orchestrator.WireFormat
import PennyCore.Scripts.Migrate
import PennyCore.Orchestrator.EventWiring
import PennyCore.Orchestrator.Deployments
import PennyCore.ContextEngine.Recency
import PennyCore.Orchestrator.StoredRecords
