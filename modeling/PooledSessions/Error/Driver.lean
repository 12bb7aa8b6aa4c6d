import PooledSessions.Error.Pool
/-!
# Errors of operations run through the pool

A pooled operation fails by itself, or for want of a session, or because its caller cancelled it.
-/

namespace PooledSessions

/-- Why an operation run through the pool has no result. -/
inductive DriverError
  /-- The operation's own call failed. -/
  | rpc (source : RpcError)
  /-- The pool leased no session. -/
  | pool (source : PoolError)
  /-- The caller cancelled. -/
  | cancelled
  deriving DecidableEq

namespace DriverError

/-- The text of the error. -/
def message : DriverError → String
  | rpc source => "rpc failed: " ++ source.message
  | pool source => "session pool: " ++ source.message
  | cancelled => "operation cancelled"

/-- The error written with the names of its parts. -/
def describe : DriverError → String
  | rpc source => "Rpc(" ++ source.describe ++ ")"
  | pool source => "Pool(" ++ source.describe ++ ")"
  | cancelled => "Cancelled"

end DriverError

end PooledSessions
