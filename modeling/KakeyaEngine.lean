import KakeyaEngine.Decode.RestoreFrames
import KakeyaEngine.Decode.WorkerFrames
import KakeyaEngine.Definitions.Dependencies
import KakeyaEngine.Definitions.Evidence
import KakeyaEngine.Gossip.FaultIsolation
import KakeyaEngine.Gossip.Replicas
import KakeyaEngine.LeanGate.FailClosed
import KakeyaEngine.Ledger.Commit
import KakeyaEngine.Ledger.Duplicates
import KakeyaEngine.Ledger.Quarantine
import KakeyaEngine.MathIr.Exact
import KakeyaEngine.MathIr.Injective
import KakeyaEngine.Network.Benchmarks
import KakeyaEngine.Orchestration.Artifacts
import KakeyaEngine.Orchestration.Retries
import KakeyaEngine.Orchestration.Supervisor
import KakeyaEngine.Pipeline.Delivery
import KakeyaEngine.Planning.ProofLedger
import KakeyaEngine.Planning.ProofPlan
import KakeyaEngine.Planning.ProofSearch
import KakeyaEngine.PrefixCache.Atomicity
import KakeyaEngine.PrefixCache.Capture
import KakeyaEngine.PrefixCache.Compression
import KakeyaEngine.PrefixCache.ImportSafety
import KakeyaEngine.PrefixCache.SnapshotContainer
import KakeyaEngine.PrefixCache.SuffixCoverage
import KakeyaEngine.PrefixCache.Transfer
import KakeyaEngine.Scheduler.Accounting
import KakeyaEngine.Scheduler.Order
import KakeyaEngine.Sdk.EventStream
import KakeyaEngine.Server.Detokenizer
import KakeyaEngine.Server.Isolation
import KakeyaEngine.Server.Permits
import KakeyaEngine.Session.Accounting
import KakeyaEngine.Session.Cohort
import KakeyaEngine.Session.Leaks
import KakeyaEngine.Session.LockOrder
import KakeyaEngine.Session.RejectedAppend
import KakeyaEngine.Session.Slab
import KakeyaEngine.Session.StreamCompany
import KakeyaEngine.Speculative.CarriedContext
import KakeyaEngine.Speculative.Emission
import KakeyaEngine.Speculative.NGram
import KakeyaEngine.Speculative.RingCaches
import KakeyaEngine.Speculative.Streaming
import KakeyaEngine.Strategy.Tournament
import KakeyaEngine.Transport.Backslashes
import KakeyaEngine.Transport.Scanner
import KakeyaEngine.Transport.TypedFields
import KakeyaEngine.Verifier.Bookkeeping
import KakeyaEngine.Verifier.KvMerge
import KakeyaEngine.Worker.Idempotency
