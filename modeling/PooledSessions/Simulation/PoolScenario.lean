import PooledSessions.Simulation.Schedule
import PooledSessions.Simulation.ServerStep
import PooledSessions.Simulation.World
/-!
# Scenarios of a pool

A scenario plays steps at a pool over a simulated server.  A step may wait, and while it waits the tasks in
the background take turns; after every step they take turns until all of them wait.  Leases and
background calls go by the names that the scenario gives them.
-/

namespace PooledSessions

/-- A step of a scenario of a pool. -/
inductive PoolStep
  /-- A session is acquired, perhaps within a time limit, and the lease kept under a name. -/
  | acquire (name : String) (token : Option String) (within : Option Nat)
  /-- A call is made in the background, under a name. -/
  | spawn (name : String) (purpose : Purpose) (token : Option String) (deeds : Nat → Deed)
  /-- The end of a background call is waited for. -/
  | join (name : String)
  /-- Somebody looks whether a background call has ended. -/
  | poll (name : String)
  /-- A background call is dropped. -/
  | abort (name : String)
  /-- An operation is executed. -/
  | execute (token : Option String) (idempotent : Bool) (deeds : Nat → Deed)
  /-- A lease is returned. -/
  | release (name : String)
  /-- The session of a lease is given up. -/
  | invalidate (name : String)
  /-- A lease is lost. -/
  | drop (name : String)
  /-- A session is given up by its name. -/
  | invalidateId (id : SessionId)
  /-- The pool is closed. -/
  | close
  /-- Time passes. -/
  | advance (millis : Nat)
  /-- A token is cancelled. -/
  | cancel (token : String)
  /-- A lease is described, or the pool. -/
  | describe (name : Option String)
  /-- Nobody holds the pool any longer. -/
  | dropPool
  /-- A step from outside at the server. -/
  | server (step : ServerStep)
  /-- An error is put onto the stream of a session's monitor. -/
  | streamError (id : SessionId) (error : RpcError)

/-- What a step of a scenario of a pool answers. -/
inductive PoolAnswer
  /-- Nothing. -/
  | nothing
  /-- Yes or no. -/
  | flag (b : Bool)
  /-- A text. -/
  | text (s : String)
  /-- A lease or an error. -/
  | lease (r : Except PoolError Handle)
  /-- The result of an execution, and the sessions on which its attempts ran. -/
  | execution (r : Except DriverError Int) (sessions : List SessionInfo)
  /-- The call was given up when its time limit passed. -/
  | dropped
  /-- No lease goes by the name. -/
  | noHandle
  /-- No background call goes by the name. -/
  | noTask
  /-- The background call had been dropped. -/
  | aborted
  /-- The background closing has ended. -/
  | closed
  /-- The pool is gone. -/
  | noPool
  /-- The step would never end. -/
  | hung

/-- A call that was made in the background. -/
structure Job where
  /-- Its name. -/
  name : String
  /-- Its number. -/
  no : TaskNo
  /-- What it is for. -/
  purpose : Purpose

/-- A pool in a scenario. -/
structure PoolScene where
  /-- The pool and its server. -/
  world : World
  /-- The leases that are kept, by name. -/
  handles : List (String × Handle)
  /-- The background calls that nobody has waited for. -/
  jobs : List Job
  /-- Whether nobody holds the pool any longer. -/
  gone : Bool

namespace World

/-- The tasks of a world, all of them in the background except one. -/
def tasks (foreground : Option TaskNo) : Tasks World TaskNo where
  now := now
  setClock due w := w.tryMove (.advance (due - w.now))
  background w := w.backgroundTasks.filter (some · ≠ foreground)
  move := turn
  dues := dues

/-- Lets the tasks in the background take turns until all of them wait. -/
def settle (w : World) : World := (tasks none).settle w

/-- Whether a call has not ended. -/
def isRunning (w : World) (no : TaskNo) : Bool := (w.engine.call? no).isSome

/-- Waits for the end of a call in the foreground, or for a time limit. -/
def callGoal (no : TaskNo) (limit : Nat) : Goal World where
  move w := w.turn no
  reached w := !w.isRunning no || limit ≤ w.now
  dues _ := [limit]

/-- Waits for the end of a call in the background, or for a time limit. -/
def joinGoal (no : TaskNo) (limit : Nat) : Goal World where
  move _ := none
  reached w := !w.isRunning no || limit ≤ w.now
  dues _ := [limit]

/-- Waits until the clock shows a time. -/
def clockGoal (due : Nat) : Goal World where
  move _ := none
  reached w := due ≤ w.now
  dues _ := [due]

/-- Sets up a call, and answers its number. -/
def setUp (w : World) (purpose : Purpose) (token : Token) (deeds : Nat → Deed) : TaskNo × World :=
  let no := w.engine.nextNo
  let old := w.deeds
  let w := { w with deeds := fun k => if k = no then deeds else old k }
  (no, w.tryMove (.call purpose token))

/-- Makes a call in the foreground until it ends or its time limit passes, which drops it. -/
def makeCall (w : World) (purpose : Purpose) (token : Token) (deeds : Nat → Deed) (within : Nat) :
    TaskNo × World :=
  let (no, w) := w.setUp purpose token deeds
  let w := ((tasks (some no)).drive (callGoal no (w.now + within)) w).getD w
  (no, if w.isRunning no then w.tryMove (.abandon no) else w)

end World

namespace PoolScene

/-- A scene in which nothing has happened. -/
def ofWorld (w : World) : PoolScene := ⟨w, [], [], false⟩

/-- The token of a name, or one that nobody else knows. -/
def token (s : PoolScene) (name : Option String) : Token :=
  match name with
  | some n => .named n
  | none => .unnamed s.world.engine.nextNo

/-- The deeds of a call that executes nothing. -/
def noDeeds : Nat → Deed := fun _ => ⟨false, 0, none⟩

/-- A lease by its name. -/
def handle? (s : PoolScene) (name : String) : Option Handle := s.handles.lookup name

/-- A background call by its name. -/
def job? (s : PoolScene) (name : String) : Option Job := s.jobs.find? (·.name = name)

/-- Makes a move of the pool. -/
def move (s : PoolScene) (m : Move DriverError Int) : PoolScene :=
  { s with world := s.world.tryMove m }

/-- Keeps a lease under a name.  An older one of that name is lost. -/
def keep (s : PoolScene) (name : String) (r : Except PoolError Handle) : PoolScene :=
  match r with
  | .error _ => s
  | .ok h =>
    let kept := { s with handles := (name, h) :: s.handles.filter (·.1 ≠ name) }
    match s.handle? name with
    | some old => kept.move (.drop old.flag)
    | none => kept

/-- Parts with the lease of a name by a move. -/
def part (s : PoolScene) (name : String) (m : FlagNo → Move DriverError Int) :
    PoolAnswer × PoolScene :=
  match s.handle? name with
  | none => (.noHandle, s)
  | some h => (.nothing, { s with handles := s.handles.filter (·.1 ≠ name) }.move (m h.flag))

/-- For how many milliseconds a step of a scenario may wait. -/
def endurance : Nat := 1000000000

/-- The answer about an execution, with what it is if the execution has not ended. -/
def executionAnswer (w : World) (no : TaskNo) (unfinished : PoolAnswer) : PoolAnswer :=
  match w.executed.lookup no with
  | some r => .execution r ((w.visits.filter (·.1 = no)).map (·.2))
  | none => unfinished

/-- The answer about a background call that has ended, and what becomes of its lease. -/
def finishJob (s : PoolScene) (j : Job) : PoolAnswer × PoolScene :=
  match j.purpose with
  | .lease =>
    match s.world.acquired.lookup j.no with
    | some r => (.lease r, s.keep j.name r)
    | none => (.aborted, s)
  | .operation _ => (executionAnswer s.world j.no .aborted, s)
  | .closing => (if s.world.closings.contains j.no then .closed else .aborted, s)

/-- Waits for the end of a background call, which loses its name. -/
def join (s : PoolScene) (j : Job) : PoolAnswer × PoolScene :=
  let limit := s.world.now + endurance
  let w := ((World.tasks none).drive (World.joinGoal j.no limit) s.world).getD s.world
  let s := { s with world := w, jobs := s.jobs.filter (·.name ≠ j.name) }
  if w.isRunning j.no then (.hung, { s with world := w.detach j.no }) else s.finishJob j

/-- Lets time pass. -/
def advance (s : PoolScene) (millis : Nat) : PoolAnswer × PoolScene :=
  let goal := World.clockGoal (s.world.now + min millis endurance)
  let w := ((World.tasks none).drive goal s.world).getD s.world
  (if endurance < millis then .hung else .nothing, { s with world := w })

/-- Puts an error onto the stream of a session's monitor; answers whether there is one. -/
def putStreamError (s : PoolScene) (id : SessionId) (e : RpcError) : PoolAnswer × PoolScene :=
  let stream := s.world.engine.monitors.findSome? fun m =>
    match m.watch with
    | .listening n => if m.id = id then some n else none
    | .attaching => none
  match stream with
  | some n =>
    (.flag true, { s with world := { s.world with server := s.world.server.putError n e } })
  | none => (.flag false, s)

/-- The step itself, before the background takes its turns. -/
def act (s : PoolScene) : PoolStep → PoolAnswer × PoolScene
  | .acquire name token within =>
    let limit := min (within.getD endurance) endurance
    let (no, w) := s.world.makeCall .lease (s.token token) noDeeds limit
    let s := { s with world := w }
    match w.acquired.lookup no with
    | some r => (.lease r, s.keep name r)
    | none => (if within.any (· ≤ endurance) then .dropped else .hung, s)
  | .spawn name purpose token deeds =>
    let (no, w) := s.world.setUp purpose (s.token token) deeds
    let w :=
      match s.job? name with
      | some old => w.detach old.no
      | none => w
    (.nothing, { s with world := w, jobs := ⟨name, no, purpose⟩ :: s.jobs.filter (·.name ≠ name) })
  | .join name =>
    match s.job? name with
    | none => (.noTask, s)
    | some j => s.join j
  | .poll name =>
    match s.job? name with
    | none => (.noTask, s)
    | some j => (.flag (!s.world.isRunning j.no), s)
  | .abort name =>
    match s.job? name with
    | none => (.nothing, s)
    | some j => (.nothing, s.move (.abandon j.no))
  | .execute token idempotent deeds =>
    let (no, w) := s.world.makeCall (.operation idempotent) (s.token token) deeds endurance
    (executionAnswer w no .hung, { s with world := w })
  | .release name => s.part name .release
  | .invalidate name => s.part name .invalidate
  | .drop name => s.part name .drop
  | .invalidateId id => (.nothing, s.move (.invalidateId id))
  | .close =>
    let (no, w) := s.world.makeCall .closing (s.token none) noDeeds endurance
    (if w.closings.contains no then .nothing else .hung, { s with world := w })
  | .advance millis => s.advance millis
  | .cancel token => (.nothing, s.move (.cancel (.named token)))
  | .describe name =>
    match name.bind s.handle? with
    | some h => (.text (h.describe (s.world.engine.isAlive h.flag)), s)
    | none =>
      if s.world.engine.pool.idle.isEmpty then
        (.text (s.world.engine.stats s.world.setup).describe, s)
      else (.nothing, s)
  | .dropPool => (.nothing, { s with gone := true })
  | .server step =>
    let (r, server) := s.world.server.take step
    (match r with
      | some b => .flag b
      | none => .nothing, { s with world := { s.world with server := server } })
  | .streamError id e => s.putStreamError id e

/-- Plays a step, then lets the background take its turns. -/
def step (s : PoolScene) (p : PoolStep) : PoolAnswer × PoolScene :=
  if s.gone then (.noPool, s)
  else
    let (answer, s) := s.act p
    (answer, { s with world := s.world.settle })

/-- Forgets what has been reported so far. -/
def quiet (s : PoolScene) : PoolScene :=
  { s with world := { s.world with events := [], records := [] } }

/-- Drops all background calls: leases with which some have ended are lost, and those that have not ended
are given up.  They work on the pool as long as anybody holds it, be it only one of themselves. -/
def dropJobs (s : PoolScene) : PoolScene :=
  let running := s.world.engine.calls.map (·.no)
  let finished := s.jobs.filter fun j => !s.world.isRunning j.no
  let w := if s.gone && running.isEmpty then s.world else finished.foldl (·.detach ·.no) s.world
  { s with world := running.foldl (·.tryMove <| .abandon ·) w, jobs := [] }

/-- The scene at its end: the background calls are dropped, and when nothing can run in the background
any more all leases are lost, in the order of their names. -/
def loseAll (s : PoolScene) : PoolScene :=
  let s := s.dropJobs
  if s.gone then s
  else
    let stopped := { s with world := { s.world with
      engine := { s.world.engine with background := false } } }
    (s.handles.mergeSort fun a b => decide (a.1 ≤ b.1)).foldl (fun s (_, h) => s.move (.drop h.flag))
      stopped

end PoolScene

end PooledSessions
