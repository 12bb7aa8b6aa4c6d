import PooledSessions.Pool.Engine
/-!
# The moves of a running pool

Everything that can happen to a running pool is a move: callers start, abandon and cancel calls and
return leases; the server answers; delays and time limits pass.  A move is possible only in some states.
The calls wait for whatever comes first, with one preference: a call that has been cancelled sees
that before anything else, and an answer that has arrived before the passing of its time limit was seen
wins over it.

A run of the pool is any sequence of possible moves, so whatever holds for all runs holds for every
order in which the calls, the monitors, the deletions and the server take turns.
-/

namespace PooledSessions

/-- Something that can happen to a running pool. -/
inductive Move (ε α : Type)
  /-- A call is set up. -/
  | call (purpose : Purpose) (token : Token)
  /-- A call is started. -/
  | start (no : TaskNo)
  /-- A call is dropped before it has ended. -/
  | abandon (no : TaskNo)
  /-- The server answers a creation. -/
  | created (no : TaskNo) (result : Except RpcError SessionInfo)
  /-- The time limit of a creation has passed. -/
  | createExpired (no : TaskNo)
  /-- An operation ends; it may have cancelled its call when it was started. -/
  | operated (no : TaskNo) (cancels : Bool) (result : Except ε α)
  /-- A delay has passed. -/
  | woken (no : TaskNo)
  /-- A call sees that it has been cancelled. -/
  | noticed (no : TaskNo)
  /-- A closing goes on. -/
  | proceed (no : TaskNo)
  /-- The server answers a monitor that attaches to its session. -/
  | attached (no : TaskNo) (result : Except RpcError Nat)
  /-- A monitor hears a message. -/
  | heard (no : TaskNo) (message : Except RpcError SessionStatus)
  /-- The stream of a monitor ends. -/
  | streamEnded (no : TaskNo)
  /-- The server answers a deletion. -/
  | deleted (no : TaskNo) (result : Except RpcError Unit)
  /-- The time limit of a deletion has passed. -/
  | deletionExpired (no : TaskNo)
  /-- A caller returns a lease. -/
  | release (flag : FlagNo)
  /-- A caller gives up the session of a lease. -/
  | invalidate (flag : FlagNo)
  /-- A caller loses a lease. -/
  | drop (flag : FlagNo)
  /-- A caller gives up a session by its name. -/
  | invalidateId (id : SessionId)
  /-- A token is cancelled. -/
  | cancel (token : Token)
  /-- The clock goes on. -/
  | advance (millis : Nat)

namespace Engine

variable {ε α : Type}

/-! ## Monitors and deletions -/

/-- A monitor by its number. -/
def monitor? (e : Engine ε α) (no : TaskNo) : Option Monitor := e.monitors.find? (·.no = no)

/-- A deletion by its number. -/
def deletion? (e : Engine ε α) (no : TaskNo) : Option Deletion := e.deletions.find? (·.no = no)

/-- A monitor finds its session dead and ends. -/
def condemn (e : Engine ε α) (m : Monitor) (reason : String) : Engine ε α :=
  let (seen, flags) := e.flags.markDead m.no
  let e := { e with flags := flags }.stopMonitor m.no
  if seen then
    e.report .monitor .info "session marked dead"
      [("session_id", m.id.text), ("reason", .quoted reason)]
  else e

/-- A monitor goes on after the answer to its attaching. -/
def attached (e : Engine ε α) (m : Monitor) (result : Except RpcError Nat) : Engine ε α :=
  match result with
  | .ok stream =>
    { e with monitors := e.monitors.map fun k =>
        if k.no = m.no then { k with watch := .listening stream } else k }
  | .error error => e.condemn m ("attach failed: " ++ error.message)

/-- A monitor hears a message. -/
def heard (e : Engine ε α) (m : Monitor) (message : Except RpcError SessionStatus) : Engine ε α :=
  match message with
  | .ok .ready => e
  | .ok (.unusable code) => e.condemn m ("server reported " ++ code.name)
  | .error error => e.condemn m ("stream error: " ++ error.message)

/-- A deletion ends. -/
def endDeletion (e : Engine ε α) (no : TaskNo) : Engine ε α :=
  { e with deletions := e.deletions.filter (·.no ≠ no) }

/-- A deletion ends with the server's answer. -/
def deleted (e : Engine ε α) (d : Deletion) (result : Except RpcError Unit) : Engine ε α :=
  match result with
  | .ok () => (e.endDeletion d.no).report .pool .debug "session deleted" [("session_id", d.id.text)]
  | .error error =>
    (e.endDeletion d.no).report .pool .warn "session delete failed"
      [("session_id", d.id.text), ("error", error.message)]

/-! ## Leases -/

/-- A lease that a caller holds, by its flag. -/
def held? (e : Engine ε α) (flag : FlagNo) : Option Handle := e.held.find? (·.flag = flag)

/-- A caller parts with a lease. -/
def part (e : Engine ε α) (flag : FlagNo) : Engine ε α :=
  { e with held := e.held.filter (·.flag ≠ flag) }

/-! ## Calls -/

variable [PooledError ε]

/-- A call is started. -/
def start (e : Engine ε α) (c : Setup) (call : Call) (purpose : Purpose) : Engine ε α :=
  match purpose with
  | .lease => e.acquireFor c call.no call.token .caller
  | .operation idempotent =>
    e.follow c call.no call.token (Loop.start (.first idempotent) (e.isCancelled call.token))
  | .closing => e.beginClose c call.no

/-- A call is dropped where it waits: what it holds is given up. -/
def abandon (e : Engine ε α) (c : Setup) (call : Call) : Engine ε α :=
  let e := e.endCall call.no
  match call.point with
  | .creating .. => (e.tell (.createAbandoned call.no)).releasePending
  | .createPause .. => e.releasePending
  | .operating _ h _ => e.loseLease c h.id
  | .deleting => { e with deletions := e.deletions.filter (·.closer ≠ some call.no) }
  | _ => e

/-- A creation ends with an answer or with the passing of its time limit. -/
def created (e : Engine ε α) (c : Setup) (call : Call) (client : Client) (a : Attempt)
    (result : Except RpcError SessionInfo) : Engine ε α :=
  match result with
  | .ok s => e.register c call.no client s
  | .error error =>
    let (record, e) := e.assess c .creation (.rpc error) a
    e.followCreation c call.no client
      (Loop.afterFailure a error record.delay (e.isCancelled call.token) e.now)

/-- The error of a creation that took too long. -/
def creationTimeout : RpcError := .transport .deadlineExceeded "session creation timed out"

/-- An operation ends with a result.  Its session is given back, or given up if the failure says so. -/
def operated (e : Engine ε α) (c : Setup) (call : Call) (a : Attempt) (h : Handle)
    (result : Except ε α) : Engine ε α :=
  match result with
  | .ok v => (e.giveBack c h.id).finish call.no (.ok v)
  | .error error =>
    let (record, e) := e.assess c .operation (CallError.toFault error) a
    let e := if record.invalidatesSession then e.invalidate c h.id else e.giveBack c h.id
    e.follow c call.no call.token
      (Loop.afterFailure a error record.delay (e.isCancelled call.token) e.now)

/-- A call that has been cancelled ends where it waits. -/
def noticed (e : Engine ε α) (c : Setup) (call : Call) : Option (Engine ε α) :=
  match call.point with
  | .creating client _ _ =>
    some (e.tell (.createAbandoned call.no) |>.followCreation c call.no client (.fail .cancelled))
  | .createPause client _ _ => some (e.followCreation c call.no client (.fail .cancelled))
  | .operating _ h _ => some ((e.invalidate c h.id).finish call.no (.error CallError.cancelled))
  | .pausing .. => some (e.finish call.no (.error CallError.cancelled))
  | _ => none

/-- A delay has passed: the next attempt is started. -/
def woken (e : Engine ε α) (c : Setup) (call : Call) : Option (Engine ε α) :=
  match call.point with
  | .createPause client a wake =>
    if wake ≤ e.now then
      some (e.followCreation c call.no client (Loop.start a.next (e.isCancelled call.token)))
    else none
  | .pausing a wake =>
    if wake ≤ e.now then
      some (e.follow c call.no call.token (Loop.start a.next (e.isCancelled call.token)))
    else none
  | _ => none

/-- A closing goes on, if what it waits for has come. -/
def proceed (e : Engine ε α) (call : Call) : Option (Engine ε α) :=
  match call.point with
  | .deleting => if e.deletions.any (·.closer = some call.no) then none else some (e.settle call.no)
  | .draining true => some (e.settle call.no)
  | .settling => if e.deletions.any (·.closer.isNone) then none else some (e.settle call.no)
  | _ => none

/-- Makes a move, if it is possible. -/
def step (e : Engine ε α) (c : Setup) (m : Move ε α) : Option (Engine ε α) :=
  match m with
  | .call purpose token => some (e.addCall purpose token)
  | .start no => do
    let call ← e.call? no
    match call.point with
    | .fresh purpose => some (e.start c call purpose)
    | _ => none
  | .abandon no => (e.call? no).map (e.abandon c)
  | .created no result => do
    let call ← e.call? no
    match call.point with
    | .creating client a _ =>
      if e.isCancelled call.token then none else some (e.created c call client a result)
    | _ => none
  | .createExpired no => do
    let call ← e.call? no
    match call.point with
    | .creating client a since =>
      if e.isCancelled call.token ∨ e.now < since + c.createTimeout.waitMillis then none
      else
        some ((e.tell (.createAbandoned no)).created c call client a (.error creationTimeout))
    | _ => none
  | .operated no cancels result => do
    let call ← e.call? no
    match call.point with
    | .operating a h _ =>
      if e.isCancelled call.token then none
      else
        let e := if cancels then e.cancel call.token else e
        some (e.operated c call a h result)
    | _ => none
  | .woken no => do
    let call ← e.call? no
    if e.isCancelled call.token then none else e.woken c call
  | .noticed no => do
    let call ← e.call? no
    if e.isCancelled call.token then e.noticed c call else none
  | .proceed no => do
    let call ← e.call? no
    e.proceed call
  | .attached no result => do
    let m ← e.monitor? no
    if m.watch = .attaching then some (e.attached m result) else none
  | .heard no message => do
    let m ← e.monitor? no
    if m.watch = .attaching then none else some (e.heard m message)
  | .streamEnded no => do
    let m ← e.monitor? no
    if m.watch = .attaching then none else some (e.condemn m "stream closed")
  | .deleted no result => (e.deletion? no).map (e.deleted · result)
  | .deletionExpired no => do
    let d ← e.deletion? no
    if e.now < d.deadline then none
    else
      some ((e.endDeletion no).report .pool .warn "session delete timed out" [("session_id", d.id.text)])
  | .release flag => (e.held? flag).map fun h => (e.part flag).giveBack c h.id
  | .invalidate flag => (e.held? flag).map fun h => (e.part flag).invalidate c h.id
  | .drop flag => (e.held? flag).map fun h => (e.part flag).loseLease c h.id
  | .invalidateId id => some (e.invalidate c id)
  | .cancel token => some (e.cancel token)
  | .advance millis => some { e with now := e.now + millis }

end Engine

end PooledSessions
