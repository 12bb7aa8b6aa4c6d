import PooledSessions.Simulation.ServerStep
/-!
# Scenarios of a cluster

A scenario plays steps at a cluster that nobody else uses: sessions are created, attached to, run on and
deleted one step after the other.
-/

namespace PooledSessions

/-- A step of a scenario of a cluster. -/
inductive ClusterStep
  /-- A step from outside. -/
  | server (step : ServerStep)
  /-- A session is created, perhaps within a time limit. -/
  | create (within : Option Nat)
  /-- Somebody attaches to a session, and keeps the stream. -/
  | attach (id : SessionId)
  /-- The stream of a session is read, without waiting. -/
  | next (id : SessionId)
  /-- The stream of a session is dropped. -/
  | dropStream (id : SessionId)
  /-- A session is deleted. -/
  | delete (id : SessionId)
  /-- Operations are run on a session. -/
  | run (id : SessionId) (times : Nat)
  /-- Somebody waits for up to ten milliseconds until a session is attached to. -/
  | waitAttached (id : SessionId)

/-- What a step of a scenario of a cluster answers. -/
inductive ClusterAnswer
  /-- Nothing. -/
  | nothing
  /-- Yes or no. -/
  | flag (b : Bool)
  /-- A session or an error. -/
  | created (r : Except RpcError SessionInfo)
  /-- The creation was given up. -/
  | dropped
  /-- Success or an error. -/
  | done (r : Except RpcError Unit)
  /-- What operations answered. -/
  | ran (rs : List (Except RpcError Nat))
  /-- There is no stream. -/
  | noStream
  /-- What was found on the stream. -/
  | reading (r : Reading)

/-- A cluster in a scenario. -/
structure ClusterScene where
  /-- The server. -/
  server : Server
  /-- The streams that are kept, by session. -/
  streams : List (SessionId × StreamNo)
  /-- What the clock shows. -/
  now : Nat

namespace ClusterScene

/-- Creates a session, if its latency passes within the time limit. -/
def create (s : ClusterScene) (within : Option Nat) : ClusterAnswer × ClusterScene :=
  let begun := s.server.onCluster (·.beginCreate)
  let latency := begun.createDue 0
  let limit := within.map boundedWait
  if limit.any (· < latency) then
    (.dropped, { s with
      server := begun.onCluster (·.abandonCreate)
      now := s.now + limit.getD 0 })
  else
    let (r, c) := begun.cluster.endCreate
    (.created r, { s with server := { begun with cluster := c }, now := s.now + latency })

/-- Runs a number of operations on a session. -/
def run (id : SessionId) : Nat → Cluster → List (Except RpcError Nat) × Cluster
  | 0, c => ([], c)
  | n + 1, c =>
    let (r, c) := c.operate id
    let (rs, c) := run id n c
    (r :: rs, c)

/-- Takes a step. -/
def step (s : ClusterScene) : ClusterStep → ClusterAnswer × ClusterScene
  | .server step =>
    let (r, server) := s.server.take step
    (match r with
      | some b => .flag b
      | none => .nothing, { s with server := server })
  | .create within => s.create within
  | .attach id =>
    let (r, c) := s.server.cluster.attach id
    let s := { s with server := { s.server with cluster := c } }
    match r with
    | .ok n => (.done (.ok ()), { s with streams := Server.put id n s.streams })
    | .error e => (.done (.error e), s)
  | .next id =>
    match s.streams.lookup id with
    | none => (.noStream, s)
    | some n =>
      let (r, server) := s.server.read n
      (.reading r, { s with server := server })
  | .dropStream id =>
    (.flag (s.streams.lookup id).isSome, { s with streams := s.streams.filter (·.1 ≠ id) })
  | .delete id =>
    let (r, c) := s.server.cluster.delete id
    (.done r, { s with server := { s.server with cluster := c } })
  | .run id times =>
    let (rs, c) := run id times s.server.cluster
    (.ran rs, { s with server := { s.server with cluster := c } })
  | .waitAttached id =>
    if s.server.cluster.isAttached id then (.flag true, s)
    else (.flag false, { s with now := s.now + 10 })

end ClusterScene

end PooledSessions
