import PooledSessions.Simulation.Server
/-!
# Steps of a simulated server

What somebody with access to the server can do to it from outside: kill sessions, send messages about
them, script failures, and look whether a session is attached to.
-/

namespace PooledSessions

/-- A step taken at the server. -/
inductive ServerStep
  /-- A session is killed. -/
  | kill (id : SessionId)
  /-- A message about a session is sent. -/
  | send (id : SessionId) (status : SessionStatus)
  /-- The next creations fail. -/
  | failCreates (errors : List RpcError)
  /-- The next operations fail. -/
  | failOperations (errors : List RpcError)
  /-- A fraction of the operations fails at random. -/
  | setFailureRate (rate : Binary64)
  /-- Somebody looks whether a session is attached to. -/
  | isAttached (id : SessionId)
  /-- Attaching to a session fails the next time. -/
  | failAttach (id : SessionId) (error : RpcError)
  /-- Every deletion of a session fails. -/
  | failDelete (id : SessionId) (error : RpcError)
  /-- Deletions of a session are held up. -/
  | slowDelete (id : SessionId) (millis : Nat)
  /-- Nothing is done. -/
  | nothing

/-- Takes a step at the server.  Answers whether the session is attached to, if that was asked. -/
def Server.take (s : Server) : ServerStep → Option Bool × Server
  | .kill id => (none, s.onCluster (·.kill id))
  | .send id status => (none, s.onCluster (·.send id status))
  | .failCreates es => (none, s.onCluster (·.failCreates es))
  | .failOperations es => (none, s.onCluster (·.failOperations es))
  | .setFailureRate rate => (none, s.onCluster (·.setFailureRate rate))
  | .isAttached id => (some (s.cluster.isAttached id), s)
  | .failAttach id e => (none, { s with attachFailures := Server.put id e s.attachFailures })
  | .failDelete id e => (none, { s with deleteFailures := Server.put id e s.deleteFailures })
  | .slowDelete id ms => (none, { s with deleteDelays := Server.put id ms s.deleteDelays })
  | .nothing => (none, s)

end PooledSessions
