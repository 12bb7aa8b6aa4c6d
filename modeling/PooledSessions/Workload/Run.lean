import PooledSessions.Simulation.PoolScenario
import PooledSessions.Workload.Options
/-!
# Running a workload

A workload is a number of workers who share a pool over a simulated server.  Each of them executes one
operation after the other, without a break unless the pool has no session for it; then it rests for a
few milliseconds.  When all have finished, the pool is closed and the counts are reported.
-/

namespace PooledSessions

/-- What a worker does. -/
inductive Activity
  /-- It is about to execute its next operation, if there is one left. -/
  | ready
  /-- It executes an operation. -/
  | executing (call : TaskNo)
  /-- It rests until the clock shows a time. -/
  | resting (wake : Nat)
  /-- It has finished. -/
  | finished
  deriving DecidableEq

/-- A worker. -/
structure Worker where
  /-- How many operations it has not begun. -/
  left : Nat
  /-- What it does. -/
  activity : Activity
  deriving DecidableEq

/-- How the operations ended. -/
structure Tally where
  /-- How many succeeded. -/
  ok : Nat := 0
  /-- For how many there was no session. -/
  rejected : Nat := 0
  /-- How many failed otherwise. -/
  failed : Nat := 0
  deriving DecidableEq

/-- A workload that is being run. -/
structure Workload where
  /-- The pool and its server. -/
  world : World
  /-- The workers. -/
  workers : List Worker
  /-- How the operations ended so far. -/
  tally : Tally
  /-- Whether the operations are safe to repeat. -/
  idempotent : Bool

/-- Somebody who can be given a turn while a workload is run. -/
inductive Actor
  /-- A worker, by its place among the workers. -/
  | worker (n : Nat)
  /-- A monitor or a deletion of the pool. -/
  | task (no : TaskNo)
  deriving DecidableEq

/-- Why a workload is not run. -/
inductive WorkloadError
  /-- The part of the operations that fail is no part. -/
  | failureRate (rate : Binary64)
  /-- There are no workers. -/
  | noWorkers
  /-- The workers would never finish. -/
  | endless
  deriving DecidableEq

/-- What is said of a workload that is not run. -/
def WorkloadError.message : WorkloadError → String
  | failureRate rate => "--failure-rate must be between 0.0 and 1.0, got " ++ rate.text
  | noWorkers => "--workers must be at least 1"
  | endless => "stress run does not end"

namespace Workload

/-! ## Workers -/

/-- Changes what one worker does. -/
def setWorker (w : Workload) (n : Nat) (worker : Worker) : Workload :=
  { w with workers := w.workers.set n worker }

/-- The event that tells of a failed operation. -/
def failedEvent (e : DriverError) : Event :=
  ⟨.workload, .warn, "operation failed", [("error", e.message)]⟩

/-- A worker takes note of an operation that failed. -/
def fail (w : Workload) (n left : Nat) (e : DriverError) : Workload :=
  { w with
    tally.failed := w.tally.failed + 1
    world.events := w.world.events ++ [failedEvent e] }.setWorker n ⟨left, .ready⟩

/-- The longest rest in milliseconds. -/
def longestRest : Nat := 10

/-- A worker takes note of the result of its operation. -/
def conclude (w : Workload) (n left : Nat) (result : Option (Except DriverError Int)) : Workload :=
  match result with
  | some (.ok _) => { w with tally.ok := w.tally.ok + 1 }.setWorker n ⟨left, .ready⟩
  | some (.error e) =>
    match e with
    | .cancelled => w.setWorker n ⟨left, .finished⟩
    | .pool p =>
      if p.isResourceExhausted then
        let (draw, g) := w.world.engine.generator.below 64 longestRest
        { w with
          tally.rejected := w.tally.rejected + 1
          world.engine.generator := g }.setWorker n ⟨left, .resting (w.world.now + 1 + draw)⟩
      else w.fail n left e
    | .rpc _ => w.fail n left e
  | none => w.setWorker n ⟨left, .finished⟩

/-- One move of a worker, if it has one to make. -/
def moveWorker (w : Workload) (n : Nat) : Option Workload := do
  let worker ← w.workers[n]?
  match worker.activity with
  | .finished => none
  | .resting wake => if wake ≤ w.world.now then some (w.setWorker n ⟨worker.left, .ready⟩) else none
  | .ready =>
    match worker.left with
    | 0 => some (w.setWorker n ⟨0, .finished⟩)
    | left + 1 =>
      let token := Token.unnamed w.world.engine.nextNo
      let (no, world) := w.world.setUp (.operation w.idempotent) token PoolScene.noDeeds
      some ({ w with world := world }.setWorker n ⟨left, .executing no⟩)
  | .executing no =>
    if w.world.isRunning no then (w.world.turn no).map ({ w with world := · })
    else
      let world := { w.world with
        executed := w.world.executed.filter (·.1 ≠ no)
        visits := w.world.visits.filter (·.1 ≠ no) }
      some ({ w with world := world }.conclude n worker.left (w.world.executed.lookup no))

/-! ## The run -/

/-- The times at which a resting worker goes on. -/
def wakes (w : Workload) : List Nat :=
  w.workers.filterMap fun worker =>
    match worker.activity with
    | .resting wake => some wake
    | _ => none

/-- Everybody who takes part in a workload.  The calls are made by the workers. -/
def tasks : Tasks Workload Actor where
  now w := w.world.now
  setClock due w := { w with world := w.world.tryMove (.advance (due - w.world.now)) }
  background w :=
    (List.range w.workers.length).map .worker ++
      (w.world.backgroundTasks.filter fun no => !w.world.isRunning no).map .task
  move w
    | .worker n => w.moveWorker n
    | .task no => (w.world.turn no).map ({ w with world := · })
  dues w := w.world.dues ++ w.wakes

/-- Waits until all workers have finished. -/
def allFinished : Goal Workload where
  move _ := none
  reached w := w.workers.all (·.activity = .finished)
  dues _ := []

/-- The event with which a workload begins. -/
def startEvent (o : WorkloadOptions) (limit : Nat) : Event :=
  ⟨.workload, .info, "starting stress run", [("workers", toString o.workers),
    ("operations", toString o.operations), ("pool_size", toString limit)]⟩

/-- A workload before its workers have begun. -/
def start (c : Config) (o : WorkloadOptions) (g : Generator) : Workload :=
  let sized := { c with pool.sizeLimit := o.poolSize.getD c.pool.sizeLimit }
  let (own, g) := g.spawn
  let own := (o.seed.map .ofSeed).getD own
  let cluster := (Cluster.fresh own).setFailureRate o.failureRate
  let setup := Setup.ofConfig sized .standard none
  let world := World.fresh setup (.ofCluster cluster .zero) g
  { world := { world with events := [startEvent o setup.limit] }
    workers := List.replicate o.workers ⟨o.operations, .ready⟩
    tally := {}
    idempotent := o.idempotent }

/-- The counts after a workload. -/
structure Report where
  /-- How the operations ended. -/
  tally : Tally
  /-- The pool after the last operation. -/
  stats : Pool.Stats
  /-- The server after the pool was closed. -/
  server : Cluster
  /-- What was reported on the way. -/
  events : List Event

/-- Runs a workload to its end. -/
def run (c : Config) (o : WorkloadOptions) (g : Generator) : Except WorkloadError Report := do
  if !o.failureRate.isFraction then throw (.failureRate o.failureRate)
  if o.workers = 0 then throw .noWorkers
  match tasks.drive allFinished (start c o g) with
  | none => throw .endless
  | some w =>
    let stats := w.world.engine.stats w.world.setup
    let token := Token.unnamed w.world.engine.nextNo
    let (no, world) := w.world.makeCall .closing token PoolScene.noDeeds longestWait
    if !world.closings.contains no then throw .endless
    return ⟨w.tally, stats, world.server.cluster, world.events⟩

/-- The report in words. -/
def Report.lines (r : Report) : List String :=
  ["operations: " ++ toString r.tally.ok ++ " ok, " ++ toString r.tally.rejected
      ++ " rejected (pool exhausted), " ++ toString r.tally.failed ++ " failed",
    "pool: limit " ++ toString r.stats.limit ++ ", " ++ toString r.stats.active ++ " active, "
      ++ toString r.stats.idle ++ " idle at end",
    "server: " ++ toString r.server.created ++ " sessions created (" ++ toString r.server.createCalls
      ++ " create calls), " ++ toString r.server.deleted ++ " deleted, " ++ toString r.server.live
      ++ " left, peak load " ++ toString r.server.peakLoad]

end Workload

end PooledSessions
