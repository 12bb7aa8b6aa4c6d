import PooledSessions.Pool.Call
/-!
# The state of a running pool

A running pool is its tables together with everything that waits: the calls, the monitors of the
registered sessions, the deletions under way and the leases that callers hold.  This module holds what a
pool does in one go while one of these moves: it retires sessions, takes leases back, leases and
registers sessions, and lets a call go on to the next point at which it waits.

What the outside has to know is appended to the pool's signals, in order.
-/

namespace PooledSessions

/-- A running pool. -/
structure Engine (ε α : Type) where
  /-- The tables. -/
  pool : Pool
  /-- The liveness flags of all sessions ever registered. -/
  flags : Flags
  /-- The monitors that have neither ended nor been stopped. -/
  monitors : List Monitor
  /-- The deletions under way. -/
  deletions : List Deletion
  /-- The calls that have not ended. -/
  calls : List Call
  /-- The leases that callers hold. -/
  held : List Handle
  /-- The tokens that have been cancelled. -/
  cancelled : List Token
  /-- How many records the executors have made, of creations and of operations. -/
  records : Nat × Nat
  /-- Seeds the draws of delays. -/
  generator : Generator
  /-- What the clock shows. -/
  now : Nat
  /-- The number of the next call, monitor or deletion. -/
  nextNo : TaskNo
  /-- Whether new work can be started in the background. -/
  background : Bool
  /-- What the outside has not been told yet. -/
  signals : List (Signal ε α)

namespace Engine

variable {ε α : Type}

/-- A pool that has just been set up. -/
def fresh (g : Generator) : Engine ε α :=
  { pool := .fresh, flags := .fresh, monitors := [], deletions := [], calls := [], held := []
    cancelled := [], records := (0, 0), generator := g, now := 0, nextNo := 0, background := true
    signals := [] }

/-! ## Telling -/

/-- Tells the outside something. -/
def tell (e : Engine ε α) (s : Signal ε α) : Engine ε α := { e with signals := e.signals ++ [s] }

/-- Reports an event. -/
def report (e : Engine ε α) (topic : Topic) (level : Level) (message : String)
    (fields : List (String × Detail)) : Engine ε α :=
  e.tell (.event ⟨topic, level, message, fields⟩)

/-! ## Tokens and flags -/

/-- Whether a token has been cancelled. -/
def isCancelled (e : Engine ε α) (t : Token) : Bool := e.cancelled.contains t

/-- Cancels a token. -/
def cancel (e : Engine ε α) (t : Token) : Engine ε α :=
  if e.isCancelled t then e else { e with cancelled := t :: e.cancelled }

/-- Whether a session is alive, by its flag. -/
def isAlive (e : Engine ε α) (n : FlagNo) : Bool := e.flags.isAlive n

/-- The occupancy of the pool. -/
def stats (e : Engine ε α) (c : Setup) : Pool.Stats := e.pool.stats c.limit e.isAlive e.now

/-! ## Calls -/

/-- A call by its number. -/
def call? (e : Engine ε α) (no : TaskNo) : Option Call := e.calls.find? (·.no = no)

/-- Lets a call wait at a point. -/
def moveTo (e : Engine ε α) (no : TaskNo) (p : Point) : Engine ε α :=
  { e with calls := e.calls.map fun c => if c.no = no then { c with point := p } else c }

/-- Counts one more start of a call's operation. -/
def countStart (e : Engine ε α) (no : TaskNo) : Engine ε α :=
  { e with calls := e.calls.map fun c => if c.no = no then { c with started := c.started + 1 } else c }

/-- Ends a call. -/
def endCall (e : Engine ε α) (no : TaskNo) : Engine ε α :=
  { e with calls := e.calls.filter (·.no ≠ no) }

/-- Adds a call that has not been started. -/
def addCall (e : Engine ε α) (purpose : Purpose) (token : Token) : Engine ε α :=
  { e with
    calls := e.calls ++ [⟨e.nextNo, token, 0, .fresh purpose⟩]
    nextNo := e.nextNo + 1 }

/-! ## Sessions that leave -/

/-- Stops the monitor of a session. -/
def stopMonitor (e : Engine ε α) (flag : FlagNo) : Engine ε α :=
  { e with monitors := e.monitors.filter (·.no ≠ flag) }

/-- Starts a deletion, which a closing waits for or which runs in the background. -/
def startDeletion (e : Engine ε α) (c : Setup) (id : SessionId) (closer : Option TaskNo) :
    Engine ε α :=
  let begun := e.tell (.deleteBegun e.nextNo id)
  { begun with
    deletions := e.deletions ++
      [⟨e.nextNo, id, e.now, e.now + c.deleteTimeout.waitMillis, closer⟩]
    nextNo := e.nextNo + 1 }

/-- Starts a deletion in the background, if anything can run there. -/
def deleteInBackground (e : Engine ε α) (c : Setup) (id : SessionId) : Engine ε α :=
  if e.background then e.startDeletion c id none
  else e.report .pool .warn "no async runtime; skipping session delete" [("session_id", id.text)]

/-- Retires a session that has left the tables: its monitor is stopped and it is deleted. -/
def retire (e : Engine ε α) (c : Setup) (id : SessionId) (t : Tracked) (reason : String) :
    Engine ε α :=
  ((e.stopMonitor t.flag).report .pool .debug "retiring session"
    [("session_id", id.text), ("node_id", toString t.node), ("reason", .quoted reason)]).deleteInBackground
      c id

/-- Retires all of the given sessions. -/
def retireAll (e : Engine ε α) (c : Setup) (reason : String) (gone : List (SessionId × Tracked)) :
    Engine ε α :=
  gone.foldl (fun e (id, t) => e.retire c id t reason) e

/-- Removes a session from the tables and retires it.  Nothing happens if it is not tracked. -/
def invalidate (e : Engine ε α) (c : Setup) (id : SessionId) : Engine ε α :=
  match e.pool.remove id with
  | (some t, pool) => { e with pool := pool }.retire c id t "invalidated"
  | (none, _) => e

/-- Takes a lease back.  The session becomes idle, or is retired if it died meanwhile. -/
def giveBack (e : Engine ε α) (c : Setup) (id : SessionId) : Engine ε α :=
  match e.pool.release id e.isAlive e.now with
  | (some t, pool) =>
    { e with pool := pool }.retire c id t "released after keep-alive failure"
  | (none, pool) => { e with pool := pool }

/-- What happens when a lease is lost instead of being given back: its session is invalidated. -/
def loseLease (e : Engine ε α) (c : Setup) (id : SessionId) : Engine ε α :=
  (e.report .lease .debug "session lease dropped without release; invalidating"
    [("session_id", id.text)]).invalidate c id

/-! ## Creations under way -/

/-- A creation is no longer under way.  If it was the last one, all closings that wait for that are
woken. -/
def releasePending (e : Engine ε α) : Engine ε α :=
  let pool := e.pool.releasePending
  let wake (c : Call) : Call :=
    match c.point with
    | .draining _ => { c with point := .draining true }
    | _ => c
  { e with pool := pool, calls := if pool.pending = 0 then e.calls.map wake else e.calls }

/-! ## Assessment -/

/-- Shows a record to the observer. -/
def observe (e : Engine ε α) (c : Setup) (role : Role) : Engine ε α :=
  let counts :=
    match role with
    | .creation => (e.records.1 + 1, e.records.2)
    | .operation => (e.records.1, e.records.2 + 1)
  let count :=
    match role with
    | .creation => counts.1
    | .operation => counts.2
  let e := { e with records := counts }
  match c.observer with
  | some o => if o.role = role ∧ o.nth = count then e.cancel o.token else e
  | none => e

/-- Lets an executor assess a failed attempt. -/
def assess (e : Engine ε α) (c : Setup) (role : Role) (f : Fault) (a : Attempt) :
    AttemptRecord × Engine ε α :=
  let x :=
    match role with
    | .creation => c.creation
    | .operation => c.operations
  let assessed := x.assess f a e.generator
  let e := { e with
    generator := assessed.generator
    signals := e.signals ++ assessed.events.map Signal.event ++ [Signal.record role assessed.record] }
  (assessed.record, e.observe c role)

/-! ## Calls that go on -/

variable [PooledError ε]

/-- The error of an execution that was leased no session. -/
def rejection (p : PoolError) : ε :=
  match p with
  | .cancelled => CallError.cancelled
  | p => PooledError.ofPool p

/-- An execution ends. -/
def finish (e : Engine ε α) (no : TaskNo) (result : Except ε α) : Engine ε α :=
  (e.endCall no).tell (.executed no result)

/-- An acquisition ends without a lease. -/
def reject (e : Engine ε α) (no : TaskNo) (client : Client) (p : PoolError) : Engine ε α :=
  match client with
  | .caller => (e.endCall no).tell (.acquired no (.error p))
  | .attempt _ => e.finish no (.error (rejection p))

/-- An acquisition ends with a lease, which goes to the caller or carries an attempt. -/
def lease (e : Engine ε α) (no : TaskNo) (client : Client) (h : Handle) : Engine ε α :=
  match client with
  | .caller => { e.endCall no with held := e.held ++ [h] }.tell (.acquired no (.ok h))
  | .attempt a =>
    ((e.countStart no).moveTo no (.operating a h e.now)).tell (.operationStarted no h.info)

/-- Follows the retry loop of a session creation.  A creation that fails gives its place back. -/
def followCreation (e : Engine ε α) (c : Setup) (no : TaskNo) (client : Client)
    (next : Loop.Next RpcError) : Engine ε α :=
  match next with
  | .attempt a => (e.moveTo no (.creating client a e.now)).tell (.createBegun no)
  | .pause a wake => e.moveTo no (.createPause client a wake)
  | .fail .cancelled => e.releasePending.reject no client .cancelled
  | .fail error =>
    let failed := c.creation.classifier.classify (.rpc error)
    let told := (c.creation.classifier.classifyEvents (.rpc error)).map Signal.event
    let e := { e with signals := e.signals ++ told }.report .pool .warn "session creation failed"
      [("error", error.message), ("class", failed.failureClass.name)]
    e.releasePending.reject no client
      (.creationFailed error (failed.failureClass ≠ .nonRetryable))

/-- Asks the tables for a session. -/
def acquireFor (e : Engine ε α) (c : Setup) (no : TaskNo) (token : Token) (client : Client) :
    Engine ε α :=
  let (admission, dead, pool) := e.pool.admission c.limit e.isAlive e.now
  let e := { e with pool := pool }.retireAll c "died while idle" dead
  match admission with
  | .reuse id t => e.lease no client ⟨id, t.node, t.flag⟩
  | .create => e.followCreation c no client (Loop.start (.first true) (e.isCancelled token))
  | .exhausted active pending => e.reject no client (.exhausted active pending c.limit)
  | .closed => e.reject no client .closed

/-- Registers a session that was created.  If the pool was closed meanwhile, the session is deleted, and
the deletion is started before the place is given back. -/
def register (e : Engine ε α) (c : Setup) (no : TaskNo) (client : Client) (s : SessionInfo) :
    Engine ε α :=
  let flag := e.nextNo
  let e := { e with nextNo := flag + 1 }
  if e.pool.closed then
    ((e.deleteInBackground c s.id).releasePending).reject no client .closed
  else
    let e := e.releasePending
    let monitor : Monitor := ⟨flag, s.id, .attaching⟩
    let e := { e with
      pool := e.pool.register s flag e.now
      monitors := e.monitors ++ [monitor] }
    (e.report .pool .debug "session created"
      [("session_id", s.id.text), ("node_id", toString s.node)]).lease no client ⟨s.id, s.node, flag⟩

/-- Follows the retry loop of an operation. -/
def follow (e : Engine ε α) (c : Setup) (no : TaskNo) (token : Token) (next : Loop.Next ε) :
    Engine ε α :=
  match next with
  | .attempt a => e.acquireFor c no token (.attempt a)
  | .pause a wake => e.moveTo no (.pausing a wake)
  | .fail error => e.finish no (.error error)

/-- Goes on with a closing that has no deletions of its own left. -/
def settle (e : Engine ε α) (no : TaskNo) : Engine ε α :=
  if e.pool.pending ≠ 0 then e.moveTo no (.draining false)
  else if e.deletions.any (·.closer.isNone) then e.moveTo no .settling
  else (e.endCall no).tell (.closed no)

/-- Closes the pool: all sessions leave the tables, and the closing deletes them. -/
def beginClose (e : Engine ε α) (c : Setup) (no : TaskNo) : Engine ε α :=
  let (gone, pool) := e.pool.close
  let e := { e with pool := pool }
  let e :=
    if gone.isEmpty then e
    else e.report .pool .info "closing session pool" [("sessions", toString gone.length)]
  let e := gone.foldl (fun e (id, t) => (e.stopMonitor t.flag).startDeletion c id (some no)) e
  e.moveTo no .deleting

end Engine

end PooledSessions
