import PooledSessions.Error.Rpc
import PooledSessions.Number.Binary64
import PooledSessions.Number.Generator
import PooledSessions.Session.Id
/-!
# A simulated cluster

The cluster keeps sessions and counts what is asked of it.  A creation has a beginning and an end,
between which its latency passes, and it may be abandoned in between.  Creations and operations can be
scripted to fail, and operations can be made to fail at random.  A session that is attached to has a
status stream; killing or deleting the session ends the stream, and attaching anew replaces it.
-/

namespace PooledSessions

/-- The number of a status stream. -/
abbrev StreamNo := Nat

/-- A status stream between the cluster and whoever attached to a session. -/
structure StatusStream where
  /-- The messages that were sent and not yet read, the next one first. -/
  waiting : List SessionStatus
  /-- Whether more may be sent. -/
  isOpen : Bool
  deriving DecidableEq

/-- A session as the cluster keeps it. -/
structure ServerSession where
  /-- The node on which it lives. -/
  node : Int
  /-- Whether it can be used. -/
  alive : Bool
  /-- The stream that was opened last, unless it has ended. -/
  stream : Option StreamNo
  deriving DecidableEq

/-- The simulated cluster. -/
structure Cluster where
  /-- The sessions that were created and not deleted, the latest one first. -/
  sessions : List (SessionId × ServerSession)
  /-- All status streams, by their numbers. -/
  streams : List StatusStream
  /-- How the next creations fail. -/
  createFailures : List RpcError
  /-- How the next operations fail. -/
  operationFailures : List RpcError
  /-- The fraction of operations that fail at random. -/
  failureRate : Binary64
  /-- Decides which operations fail at random. -/
  generator : Generator
  /-- How many creations are under way. -/
  creating : Nat
  /-- How many creations have begun. -/
  createCalls : Nat
  /-- How many sessions were created. -/
  created : Nat
  /-- How many sessions were deleted. -/
  deleted : Nat
  /-- The largest number of sessions and of creations under way, taken together, so far. -/
  peakLoad : Nat
  /-- How many operations succeeded. -/
  operations : Nat

namespace Cluster

/-- A cluster without sessions. -/
def fresh (g : Generator) : Cluster :=
  { sessions := [], streams := [], createFailures := [], operationFailures := []
    failureRate := .zero, generator := g, creating := 0, createCalls := 0, created := 0
    deleted := 0, peakLoad := 0, operations := 0 }

/-- How many sessions exist. -/
def live (c : Cluster) : Nat := c.sessions.length

/-- A session by its name. -/
def find? (c : Cluster) (id : SessionId) : Option ServerSession := c.sessions.lookup id

/-- Whether a session exists and can be used. -/
def isUsable (c : Cluster) (id : SessionId) : Bool := (c.find? id).any (·.alive)

/-- Whether a session has a stream that has not ended. -/
def isAttached (c : Cluster) (id : SessionId) : Bool := (c.find? id).any (·.stream.isSome)

/-- The error about a session that is not there. -/
def notFound (code : StatusCode) (id : SessionId) : RpcError :=
  .status code ("session " ++ id.text ++ " not found")

/-! ## Streams -/

/-- A stream by its number. -/
def stream? (c : Cluster) (n : StreamNo) : Option StatusStream := c.streams[n]?

/-- Ends a stream: what was sent can still be read. -/
def endStream (c : Cluster) (n : Option StreamNo) : Cluster :=
  match n with
  | none => c
  | some n => { c with streams := c.streams.modify n fun s => { s with isOpen := false } }

/-- Sends a message about a session, if its stream has not ended. -/
def send (c : Cluster) (id : SessionId) (status : SessionStatus) : Cluster :=
  match (c.find? id).bind (·.stream) with
  | none => c
  | some n =>
    { c with streams := c.streams.modify n fun s => { s with waiting := s.waiting ++ [status] } }

/-- Takes the next message off a stream. -/
def takeMessage (c : Cluster) (n : StreamNo) : Cluster :=
  { c with streams := c.streams.modify n fun s => { s with waiting := s.waiting.tail } }

/-! ## Sessions -/

/-- Applies a change to a session, if it exists. -/
def modify (c : Cluster) (id : SessionId) (change : ServerSession → ServerSession) : Cluster :=
  { c with sessions := c.sessions.map fun (k, s) => if k = id then (k, change s) else (k, s) }

/-- Kills a session: its stream ends and nothing runs on it any more, but it exists until it is
deleted. -/
def kill (c : Cluster) (id : SessionId) : Cluster :=
  (c.endStream ((c.find? id).bind (·.stream))).modify id fun s =>
    { s with alive := false, stream := none }

/-- A creation begins. -/
def beginCreate (c : Cluster) : Cluster :=
  { c with
    createCalls := c.createCalls + 1
    creating := c.creating + 1
    peakLoad := max c.peakLoad (c.live + (c.creating + 1)) }

/-- A creation is given up before it has ended. -/
def abandonCreate (c : Cluster) : Cluster := { c with creating := c.creating - 1 }

/-- The name of the `n`th session. -/
def sessionName (n : Nat) : SessionId := ⟨"sim-" ++ toString n⟩

/-- The node of the `n`th session. -/
def sessionNode (n : Nat) : Int := ((n % 3 + 1 : Nat) : Int)

/-- A creation ends: with the next scripted failure, or else with a new session. -/
def endCreate (c : Cluster) : Except RpcError SessionInfo × Cluster :=
  let c := { c with creating := c.creating - 1 }
  match c.createFailures with
  | e :: rest => (.error e, { c with createFailures := rest })
  | [] =>
    let n := c.created + 1
    let session : ServerSession := ⟨sessionNode n, true, none⟩
    (.ok ⟨sessionName n, sessionNode n⟩,
      { c with created := n, sessions := (sessionName n, session) :: c.sessions })

/-- Attaches to a session that can be used: a stream is opened, on which the session is ready, and the
stream opened before it ends. -/
def attach (c : Cluster) (id : SessionId) : Except RpcError StreamNo × Cluster :=
  match c.find? id with
  | none => (.error (notFound .badSession id), c)
  | some s =>
    if s.alive then
      let n := c.streams.length
      let opened : StatusStream := ⟨[.ready], true⟩
      let c := c.endStream s.stream
      let c := { c with streams := c.streams ++ [opened] }
      (.ok n, c.modify id fun s => { s with stream := some n })
    else
      (.error (notFound .badSession id), c)

/-- Deletes a session. -/
def delete (c : Cluster) (id : SessionId) : Except RpcError Unit × Cluster :=
  match c.find? id with
  | none => (.error (notFound .notFound id), c)
  | some s =>
    let c := c.endStream s.stream
    (.ok (), { c with
      sessions := c.sessions.filter (·.1 ≠ id)
      deleted := c.deleted + 1 })

/-! ## Operations -/

/-- A random fraction below one. -/
def drawFraction : Nat → Generator → Binary64 × Generator
  | 0, g => (.zero, g)
  | fuel + 1, g =>
    let (r, g) := g.next
    let x := Binary64.ofRatio false (r.toNat / 2) (1 <<< 63)
    if x = .one then drawFraction fuel g else (x, g)

/-- The failure that is chosen at random for an operation, and whether it costs the session. -/
def injected (n : Nat) : StatusCode :=
  match n with
  | 0 => .unavailable
  | 1 => .overloaded
  | 2 => .aborted
  | _ => .badSession

/-- Runs an operation that is not scripted to fail, on a session that can be used. -/
def operateAtRandom (c : Cluster) (id : SessionId) : Except RpcError Nat × Cluster :=
  let succeed (c : Cluster) : Except RpcError Nat × Cluster :=
    let n := c.operations + 1
    (.ok n, { c with operations := n })
  if Binary64.zero.lt c.failureRate then
    let (x, g) := drawFraction Generator.redraws c.generator
    let c := { c with generator := g }
    if x.lt c.failureRate then
      let (n, g) := Generator.below 32 4 c.generator
      let c := { c with generator := g }
      let code := injected n
      (.error (.status code "injected failure"), if code = .badSession then c.kill id else c)
    else succeed c
  else succeed c

/-- Runs an operation on a session.  A scripted failure comes first, and kills the session if it says
that the session is gone; a session that cannot be used fails the operation; else it may fail at
random. -/
def operate (c : Cluster) (id : SessionId) : Except RpcError Nat × Cluster :=
  match c.operationFailures with
  | e :: rest =>
    let c := { c with operationFailures := rest }
    (.error e, if e.isSessionStatus then c.kill id else c)
  | [] =>
    if c.isUsable id then c.operateAtRandom id else (.error (notFound .badSession id), c)

/-! ## Settings -/

/-- Scripts the failures of further creations. -/
def failCreates (c : Cluster) (es : List RpcError) : Cluster :=
  { c with createFailures := c.createFailures ++ es }

/-- Scripts the failures of further operations. -/
def failOperations (c : Cluster) (es : List RpcError) : Cluster :=
  { c with operationFailures := c.operationFailures ++ es }

/-- Makes a fraction of the operations fail at random. -/
def setFailureRate (c : Cluster) (rate : Binary64) : Cluster :=
  { c with failureRate := rate.clampFraction }

end Cluster

end PooledSessions
