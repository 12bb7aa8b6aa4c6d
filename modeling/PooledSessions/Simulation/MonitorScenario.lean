import PooledSessions.Simulation.PoolScenario
/-!
# Scenarios of a monitor

A scenario of a monitor watches over one session of a server, without a pool: steps are taken at the
server, and after each one the monitor takes its turns.
-/

namespace PooledSessions

/-- A step of a scenario of a monitor. -/
inductive MonitorStep
  /-- A step from outside at the server. -/
  | server (step : ServerStep)
  /-- An error is put onto the stream of the monitor. -/
  | streamError (id : SessionId) (error : RpcError)
  /-- A session is deleted. -/
  | delete (id : SessionId)
  /-- The monitor is stopped. -/
  | abort

/-- A monitor in a scenario; its number and flag are the first ones. -/
structure MonitorScene where
  /-- The server and the monitor. -/
  scene : PoolScene

namespace MonitorScene

/-- The flag that the monitor watches over. -/
def flag : FlagNo := 0

/-- A server with a number of sessions and without a monitor. -/
def ofServer (setup : Setup) (server : Server) (sessions : Nat) : MonitorScene :=
  let create (s : Server) : Server :=
    { s with cluster := s.cluster.beginCreate.endCreate.2 }
  ⟨.ofWorld (.fresh setup (Nat.repeat create sessions server) ⟨0⟩)⟩

/-- Changes the running pool, which is nothing but the monitor here. -/
def onEngine (s : MonitorScene) (f : Engine DriverError Int → Engine DriverError Int) :
    MonitorScene :=
  ⟨{ s.scene with world := { s.scene.world with engine := f s.scene.world.engine } }⟩

/-- Starts the monitor of a session, whose flag may have been dead before. -/
def watch (s : MonitorScene) (id : SessionId) (deadAlready : Bool) : MonitorScene :=
  s.onEngine fun e =>
    let flags := if deadAlready then (e.flags.markDead flag).2 else e.flags
    { e with flags := flags, monitors := [⟨flag, id, .attaching⟩] }

/-- Takes a step, without the monitor. -/
def act (s : MonitorScene) : MonitorStep → PoolAnswer × MonitorScene
  | .server step =>
    let (answer, scene) := s.scene.act (.server step)
    (answer, ⟨scene⟩)
  | .streamError id e =>
    let (answer, scene) := s.scene.putStreamError id e
    (answer, ⟨scene⟩)
  | .delete id =>
    let w := s.scene.world
    (.nothing, ⟨{ s.scene with world := { w with server := (w.server.delete id).2 } }⟩)
  | .abort => (.nothing, s.onEngine (·.stopMonitor flag))

/-- Lets the monitor take its turns. -/
def settle (s : MonitorScene) : MonitorScene :=
  ⟨{ s.scene with world := s.scene.world.settle }⟩

/-- Whether the flag is alive. -/
def alive (s : MonitorScene) : Bool := s.scene.world.engine.isAlive flag

/-- Whether the monitor has ended. -/
def finished (s : MonitorScene) : Bool := s.scene.world.engine.monitors.isEmpty

/-- Forgets what has been reported so far. -/
def quiet (s : MonitorScene) : MonitorScene := ⟨s.scene.quiet⟩

end MonitorScene

end PooledSessions
