import PooledSessions.Pool.Step
import PooledSessions.Simulation.Server
/-!
# A pool over a simulated server

A world is a running pool together with the server it uses and the operations it executes.  The server
and the operations decide which move the pool makes when one of its calls, monitors or deletions is
given a turn; what the pool tells is passed on to the server or kept for the record.
-/

namespace PooledSessions

/-- What an operation does on one attempt. -/
structure Deed where
  /-- Whether it cancels its call as it starts. -/
  cancels : Bool
  /-- For how many milliseconds it works. -/
  work : Nat
  /-- What it answers then; nothing if it runs on the server's session instead. -/
  result : Option (Except DriverError Int)

/-- A running pool, its server and its operations. -/
structure World where
  /-- What does not change about the pool. -/
  setup : Setup
  /-- The pool. -/
  engine : Engine DriverError Int
  /-- The server. -/
  server : Server
  /-- What the operations of a call do, one deed for each attempt. -/
  deeds : TaskNo → Nat → Deed
  /-- What was reported. -/
  events : List Event
  /-- The records that were made. -/
  records : List (Role × AttemptRecord)
  /-- The sessions on which operations were started, with the calls. -/
  visits : List (TaskNo × SessionInfo)
  /-- The leases that calls ended with, or the errors. -/
  acquired : List (TaskNo × Except PoolError Handle)
  /-- The results of executions. -/
  executed : List (TaskNo × Except DriverError Int)
  /-- The closings that have ended. -/
  closings : List TaskNo
  /-- The calls whose end nobody waits for: a lease they end with is lost at once. -/
  detached : List TaskNo
  /-- The deletions under way, as the server has begun them. -/
  removals : List (TaskNo × Removal)

namespace World

/-- A world in which nothing has happened. -/
def fresh (setup : Setup) (server : Server) (g : Generator) : World :=
  { setup := setup, engine := .fresh g, server := server
    deeds := fun _ _ => ⟨false, 0, none⟩
    events := [], records := [], visits := [], acquired := [], executed := [], closings := []
    detached := [], removals := [] }

/-- What the clock shows. -/
def now (w : World) : Nat := w.engine.now

/-! ## Moves -/

/-- Passes one signal of the pool on. -/
def hear (w : World) (s : Signal DriverError Int) : World :=
  match s with
  | .event e => { w with events := w.events ++ [e] }
  | .record role r => { w with records := w.records ++ [(role, r)] }
  | .createBegun _ => { w with server := w.server.onCluster (·.beginCreate) }
  | .createAbandoned _ => { w with server := w.server.onCluster (·.abandonCreate) }
  | .deleteBegun no id =>
    let others := w.removals.filter fun (k, _) => (w.engine.deletion? k).isSome
    { w with removals := (no, w.server.beginDelete id w.now) :: others }
  | .operationStarted no s =>
    let w := { w with visits := w.visits ++ [(no, s)] }
    match w.engine.call? no with
    | some call =>
      let deed := w.deeds no (call.started - 1)
      if deed.cancels && deed.work != 0 then { w with engine := w.engine.cancel call.token } else w
    | none => w
  | .acquired no r => { w with acquired := w.acquired ++ [(no, r)] }
  | .executed no r => { w with executed := w.executed ++ [(no, r)] }
  | .closed no => { w with closings := w.closings ++ [no] }

/-- A world with the state of its pool after a move, when what the pool tells has been passed on. -/
def hearAll (w : World) (e : Engine DriverError Int) : World :=
  e.signals.foldl hear { w with engine := { e with signals := [] } }

/-- The lease with which a call ends, if nobody waits for it. -/
def unwanted? (w : World) : Signal DriverError Int → Option FlagNo
  | .acquired no (.ok h) => if w.detached.contains no then some h.flag else none
  | _ => none

/-- A world in which a lease is lost. -/
def loseLease (w : World) (flag : FlagNo) : World :=
  ((w.engine.step w.setup (.drop flag)).map w.hearAll).getD w

/-- Lets the pool make a move, passes on what it tells, and loses the leases that nobody waits for. -/
def move (w : World) (m : Move DriverError Int) : Option World :=
  (w.engine.step w.setup m).map fun e => (e.signals.filterMap w.unwanted?).foldl loseLease (w.hearAll e)

/-- Lets the pool make a move if it is possible. -/
def tryMove (w : World) (m : Move DriverError Int) : World := (w.move m).getD w

/-- Nobody waits for the end of a call any longer, if it is still to come.  If it has come, the lease it
ended with is lost. -/
def detach (w : World) (no : TaskNo) : World :=
  if (w.engine.call? no).isSome then { w with detached := no :: w.detached }
  else
    match w.acquired.lookup no with
    | some (.ok h) => w.loseLease h.flag
    | _ => w

/-! ## Turns -/

/-- A deletion under way, as the server has begun it. -/
def removal (w : World) (d : Deletion) : Removal :=
  (w.removals.lookup d.no).getD (w.server.beginDelete d.id d.since)

/-- Answers a deletion if its time has come, or gives it up if its time limit has passed. -/
def turnDeletion (w : World) (d : Deletion) : Option World :=
  let removal := w.removal d
  if removal.due ≤ w.now then
    let (r, server) := w.server.endDelete removal
    { w with server := server }.move (.deleted d.no r)
  else w.move (.deletionExpired d.no)

/-- Lets a monitor attach to its session or hear what is on its stream. -/
def turnMonitor (w : World) (m : Monitor) : Option World :=
  match m.watch with
  | .attaching =>
    let (r, server) := w.server.attach m.id
    { w with server := server }.move (.attached m.no r)
  | .listening stream =>
    match w.server.read stream with
    | (.nothing, _) => none
    | (.message r, server) => { w with server := server }.move (.heard m.no r)
    | (.ended, _) => w.move (.streamEnded m.no)

/-- The answer of an operation that has done its work. -/
def perform (w : World) (d : Deed) (s : SessionInfo) : Except DriverError Int × World :=
  match d.result with
  | some r => (r, w)
  | none =>
    let (r, c) := w.server.cluster.operate s.id
    ((match r with
      | .ok n => .ok (n : Int)
      | .error e => .error (.rpc e)),
      { w with server := { w.server with cluster := c } })

/-- Lets a call make the move for which it waits, if that is possible now. -/
def turnCall (w : World) (call : Call) : Option World :=
  (w.move (.noticed call.no)).orElse fun _ =>
    match call.point with
    | .fresh _ => w.move (.start call.no)
    | .creating _ _ since =>
      if w.server.createDue since ≤ w.now then
        let (r, c) := w.server.cluster.endCreate
        { w with server := { w.server with cluster := c } }.move (.created call.no r)
      else w.move (.createExpired call.no)
    | .createPause .. => w.move (.woken call.no)
    | .operating _ h since =>
      let deed := w.deeds call.no (call.started - 1)
      if since + boundedWait deed.work ≤ w.now then
        let (r, w) := w.perform deed h.info
        w.move (.operated call.no deed.cancels r)
      else none
    | .pausing .. => w.move (.woken call.no)
    | .deleting =>
      ((w.engine.deletions.filter (·.closer = some call.no)).findSome? w.turnDeletion).orElse
        fun _ => w.move (.proceed call.no)
    | .draining _ | .settling => w.move (.proceed call.no)

/-- Lets a call, a monitor or a deletion make one move, if it has one to make. -/
def turn (w : World) (no : TaskNo) : Option World :=
  match w.engine.call? no with
  | some call => w.turnCall call
  | none =>
    match w.engine.monitor? no with
    | some m => w.turnMonitor m
    | none =>
      match w.engine.deletion? no with
      | some d => w.turnDeletion d
      | none => none

/-- Lets a task move on until it waits. -/
def turns : Nat → World → TaskNo → World
  | 0, w, _ => w
  | fuel + 1, w, no =>
    match w.turn no with
    | some w => turns fuel w no
    | none => w

/-! ## Time -/

/-- The times at which a call may have a move to make. -/
def callDues (w : World) (call : Call) : List Nat :=
  match call.point with
  | .creating _ _ since => [w.server.createDue since, since + w.setup.createTimeout.waitMillis]
  | .createPause _ _ wake | .pausing _ wake => [wake]
  | .operating _ _ since => [since + boundedWait (w.deeds call.no (call.started - 1)).work]
  | _ => []

/-- The times at which something may happen by itself. -/
def dues (w : World) : List Nat :=
  w.engine.calls.flatMap w.callDues ++
    w.engine.deletions.flatMap fun d => [(w.removal d).due, d.deadline]

/-- The calls, monitors and deletions that run in the background, in the order of their numbers. -/
def backgroundTasks (w : World) : List TaskNo :=
  (w.engine.calls.map (·.no) ++ w.engine.monitors.map (·.no) ++
    (w.engine.deletions.filter (·.closer.isNone)).map (·.no)).mergeSort (· ≤ ·)

end World

end PooledSessions
