import PooledSessions.Main
import PooledSessions.Proofs.Classifier.Codes
import PooledSessions.Proofs.Classifier.Layers
import PooledSessions.Proofs.Classifier.Registration
import PooledSessions.Proofs.Classifier.Wrapping
import PooledSessions.Proofs.Cluster.Accounting
import PooledSessions.Proofs.Config.Loading
import PooledSessions.Proofs.Pool.Admission
import PooledSessions.Proofs.Pool.Ambiguity
import PooledSessions.Proofs.Pool.Cancellation
import PooledSessions.Proofs.Pool.Condemned
import PooledSessions.Proofs.Pool.Creation.Verdict
import PooledSessions.Proofs.Pool.Deadlines
import PooledSessions.Proofs.Pool.Declarations
import PooledSessions.Proofs.Pool.Deletions
import PooledSessions.Proofs.Pool.Execution.Agreement
import PooledSessions.Proofs.Pool.Exhaustion
import PooledSessions.Proofs.Pool.Refusals
import PooledSessions.Proofs.Pool.Tidings
import PooledSessions.Proofs.Pool.Vigils
import PooledSessions.Proofs.Retry.Ceiling
import PooledSessions.Proofs.Retry.Jitter
import PooledSessions.Proofs.Simulation.Closing
import PooledSessions.Proofs.Simulation.Declarations
import PooledSessions.Proofs.Simulation.Liveness
import PooledSessions.Proofs.Simulation.Load
import PooledSessions.Proofs.Workload.Completion
import PooledSessions.Proofs.Workload.Idempotency
import PooledSessions.Retry.Run
import PooledSessions.Simulation.ClusterScenario
import PooledSessions.Simulation.MonitorScenario
import PooledSessions.Time.Calendar
