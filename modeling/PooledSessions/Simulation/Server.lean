import PooledSessions.Cluster.Basic
import PooledSessions.Time.Span
/-!
# A faulty server

The server is the simulated cluster behind a layer of faults: attaching and deleting can be made to
fail or to take time without the cluster being asked, and an error can be put onto a status stream, where
it comes before what the cluster sends.  Without faults the server is the cluster itself.
-/

namespace PooledSessions

/-- A simulated cluster behind a layer of faults. -/
structure Server where
  /-- The cluster. -/
  cluster : Cluster
  /-- How long a creation takes. -/
  latency : Span
  /-- How attaching to a session fails the next time. -/
  attachFailures : List (SessionId × RpcError)
  /-- How every deletion of a session fails. -/
  deleteFailures : List (SessionId × RpcError)
  /-- For how many milliseconds deletions of a session are held up. -/
  deleteDelays : List (SessionId × Nat)
  /-- The errors that were put onto streams and not yet read. -/
  streamErrors : List (StreamNo × RpcError)

/-- A deletion that a server has begun. -/
structure Removal where
  /-- The session. -/
  id : SessionId
  /-- When it is answered. -/
  due : Nat
  /-- The error that it fails with, if it is to fail without the cluster being asked. -/
  failure : Option RpcError

/-- What somebody who listens to a stream finds there. -/
inductive Reading
  /-- A message. -/
  | message (m : Except RpcError SessionStatus)
  /-- Nothing yet. -/
  | nothing
  /-- The end. -/
  | ended

namespace Server

/-- A cluster without faults. -/
def ofCluster (c : Cluster) (latency : Span) : Server := ⟨c, latency, [], [], [], []⟩

/-- The list with a value for a key, instead of any it held before. -/
def put {β : Type} (key : SessionId) (value : β) (xs : List (SessionId × β)) : List (SessionId × β) :=
  (key, value) :: xs.filter (·.1 ≠ key)

/-- Changes the cluster. -/
def onCluster (s : Server) (f : Cluster → Cluster) : Server := { s with cluster := f s.cluster }

/-- When a creation that was begun at `since` is answered. -/
def createDue (s : Server) (since : Nat) : Nat := since + s.latency.waitMillis

/-- Attaches to a session. -/
def attach (s : Server) (id : SessionId) : Except RpcError StreamNo × Server :=
  match s.attachFailures.lookup id with
  | some e => (.error e, { s with attachFailures := s.attachFailures.filter (·.1 ≠ id) })
  | none =>
    let (r, c) := s.cluster.attach id
    (r, { s with cluster := c })

/-- Begins the deletion of a session.  How it is to go is settled by the faults that are set now. -/
def beginDelete (s : Server) (id : SessionId) (now : Nat) : Removal :=
  ⟨id, now + boundedWait ((s.deleteDelays.lookup id).getD 0), s.deleteFailures.lookup id⟩

/-- Answers a deletion.  The cluster is asked only if no failure was settled. -/
def endDelete (s : Server) (r : Removal) : Except RpcError Unit × Server :=
  match r.failure with
  | some e => (.error e, s)
  | none =>
    let (answer, c) := s.cluster.delete r.id
    (answer, { s with cluster := c })

/-- Deletes a session without waiting. -/
def delete (s : Server) (id : SessionId) : Except RpcError Unit × Server :=
  s.endDelete (s.beginDelete id 0)

/-- Reads from a stream. -/
def read (s : Server) (n : StreamNo) : Reading × Server :=
  match s.streamErrors.lookup n with
  | some e => (.message (.error e), { s with streamErrors := s.streamErrors.eraseP (·.1 = n) })
  | none =>
    match s.cluster.stream? n with
    | none => (.ended, s)
    | some stream =>
      match stream.waiting with
      | m :: _ => (.message (.ok m), s.onCluster (·.takeMessage n))
      | [] => (if stream.isOpen then .nothing else .ended, s)

/-- Whether there is anything to read on a stream. -/
def hasReading (s : Server) (n : StreamNo) : Bool :=
  match (s.read n).1 with
  | .nothing => false
  | _ => true

/-- Puts an error onto a stream. -/
def putError (s : Server) (n : StreamNo) (e : RpcError) : Server :=
  { s with streamErrors := s.streamErrors ++ [(n, e)] }

end Server

end PooledSessions
