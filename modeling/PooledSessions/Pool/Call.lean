import PooledSessions.Pool.Table
import PooledSessions.Retry.Loop
/-!
# Calls of the pool

A call of the pool is an acquisition of a session, an execution of an operation, or the closing of the
pool.  Between two moments at which it moves, a call waits at a point that says everything about it.
Beside the calls, the pool watches over each registered session by a monitor, and deletes sessions it
has given up.
-/

namespace PooledSessions

/-- A cancellation token. -/
inductive Token
  /-- The token that goes by a name. -/
  | named (name : String)
  /-- A token that nobody else knows. -/
  | unnamed (n : Nat)
  deriving DecidableEq

/-- The number of a call, a monitor or a deletion.  One count serves all of them, so the numbers stand
in the order in which they were started. -/
abbrev TaskNo := Nat

/-- A lease on a session. -/
structure Handle where
  /-- The session. -/
  id : SessionId
  /-- The node on which it lives. -/
  node : Int
  /-- Its liveness flag, which no two leases on different sessions share. -/
  flag : FlagNo
  deriving DecidableEq

/-- The session of a lease, as operations see it. -/
def Handle.info (h : Handle) : SessionInfo := ⟨h.id, h.node⟩

/-- The lease written with the names of its parts. -/
def Handle.describe (h : Handle) (alive : Bool) : String :=
  "SessionHandle \x7b id: " ++ h.id.describe ++ ", node_id: " ++ toString h.node ++ ", alive: "
    ++ toString alive ++ " \x7d"

/-- What a call is for. -/
inductive Purpose
  /-- A lease for the caller. -/
  | lease
  /-- An operation to be executed; it may or may not be safe to repeat. -/
  | operation (idempotent : Bool)
  /-- The closing of the pool. -/
  | closing
  deriving DecidableEq

/-- For whom a session is acquired. -/
inductive Client
  /-- For the caller, who keeps the lease. -/
  | caller
  /-- For an attempt at an operation. -/
  | attempt (attempt : Attempt)
  deriving DecidableEq

/-- Where a call waits. -/
inductive Point
  /-- It has not been started. -/
  | fresh (purpose : Purpose)
  /-- For the server, which was asked at `since` to create a session. -/
  | creating (client : Client) (attempt : Attempt) (since : Nat)
  /-- After a failed creation, until the clock shows `wake`. -/
  | createPause (client : Client) (attempt : Attempt) (wake : Nat)
  /-- For the operation, which was started at `since` on a leased session. -/
  | operating (attempt : Attempt) (lease : Handle) (since : Nat)
  /-- After a failed operation, until the clock shows `wake`. -/
  | pausing (attempt : Attempt) (wake : Nat)
  /-- For the deletions that the closing has started itself. -/
  | deleting
  /-- For the creations under way, until woken because there are none left. -/
  | draining (woken : Bool)
  /-- For the deletions that others have started. -/
  | settling
  deriving DecidableEq

/-- A call that has not ended. -/
structure Call where
  /-- Its number. -/
  no : TaskNo
  /-- The token by which it can be cancelled. -/
  token : Token
  /-- How often its operation has been started. -/
  started : Nat
  /-- Where it waits. -/
  point : Point
  deriving DecidableEq

/-- Where a monitor waits. -/
inductive Watch
  /-- It has not been told whether it may attach to its session. -/
  | attaching
  /-- For the next message on a stream. -/
  | listening (stream : Nat)
  deriving DecidableEq

/-- The monitor of a registered session. -/
structure Monitor where
  /-- Its number, which is that of the session's liveness flag. -/
  no : TaskNo
  /-- The session. -/
  id : SessionId
  /-- Where it waits. -/
  watch : Watch
  deriving DecidableEq

/-- A deletion that the server has been asked for. -/
structure Deletion where
  /-- Its number. -/
  no : TaskNo
  /-- The session. -/
  id : SessionId
  /-- When it was started. -/
  since : Nat
  /-- When it is given up. -/
  deadline : Nat
  /-- The closing that waits for it, if it was not started in the background. -/
  closer : Option TaskNo
  deriving DecidableEq

/-- Which of the pool's two executors assessed an attempt. -/
inductive Role
  /-- The one for the creation of sessions. -/
  | creation
  /-- The one for operations. -/
  | operation
  deriving DecidableEq

/-- An error type of operations that are executed through the pool. -/
class PooledError (ε : Type) extends CallError ε where
  /-- The error of an operation for which the pool leased no session. -/
  ofPool : PoolError → ε

instance : PooledError DriverError := { ofPool := .pool }

/-- What the pool tells to the outside as it moves. -/
inductive Signal (ε α : Type)
  /-- Something is reported. -/
  | event (event : Event)
  /-- A failed attempt was assessed. -/
  | record (role : Role) (record : AttemptRecord)
  /-- The server is asked to create a session. -/
  | createBegun (call : TaskNo)
  /-- The creation is given up before the server has answered. -/
  | createAbandoned (call : TaskNo)
  /-- The server is asked to delete a session. -/
  | deleteBegun (deletion : TaskNo) (session : SessionId)
  /-- An operation is started on a session. -/
  | operationStarted (call : TaskNo) (session : SessionInfo)
  /-- A call for a lease ends. -/
  | acquired (call : TaskNo) (result : Except PoolError Handle)
  /-- An execution ends. -/
  | executed (call : TaskNo) (result : Except ε α)
  /-- A closing ends. -/
  | closed (call : TaskNo)

/-- An observer of one executor, who cancels a token when he sees a certain record. -/
structure Observer where
  /-- The executor. -/
  role : Role
  /-- The number of the record, from one. -/
  nth : Nat
  /-- The token. -/
  token : Token
  deriving DecidableEq

/-- Everything about a pool that does not change. -/
structure Setup where
  /-- How many sessions there are at most. -/
  limit : Nat
  /-- How long one attempt to create a session may take. -/
  createTimeout : Span
  /-- How long the deletion of a session may take. -/
  deleteTimeout : Span
  /-- Assesses failed creations. -/
  creation : Executor
  /-- Assesses failed operations. -/
  operations : Executor
  /-- Sees the records. -/
  observer : Option Observer

/-- The pool that the settings describe.  It has room for one session at least. -/
def Setup.ofConfig (c : Config) (classifier : Classifier) (observer : Option Observer) : Setup :=
  { limit := max 1 c.pool.sizeLimit.toNat
    createTimeout := .ofMillis c.pool.createTimeoutMs.toNat
    deleteTimeout := .ofMillis c.pool.deleteTimeoutMs.toNat
    creation := ⟨.forSessionCreation c.retry c.pool.creationMaxAttempts, classifier⟩
    operations := ⟨.ofConfig c.retry, classifier⟩
    observer := observer }

end PooledSessions
