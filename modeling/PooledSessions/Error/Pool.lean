import PooledSessions.Error.Rpc
/-!
# Errors of the session pool

The pool rejects a caller when it is full or closed, when no session could be created, or when the
caller cancelled while one was being created.
-/

namespace PooledSessions

/-- Why the pool does not lease a session. -/
inductive PoolError
  /-- No session is idle and the limit leaves no room for another one. -/
  | exhausted (active pending limit : Nat)
  /-- The creation of a session failed.  `retriesExhausted` tells that only the budget of attempts
  ended it, and not an error that is final by itself. -/
  | creationFailed (source : RpcError) (retriesExhausted : Bool)
  /-- The pool has been closed. -/
  | closed
  /-- The caller cancelled. -/
  | cancelled
  deriving DecidableEq

namespace PoolError

/-- The text of the error. -/
def message : PoolError → String
  | exhausted active pending limit =>
    "session pool exhausted: " ++ toString active ++ " active, " ++ toString pending
      ++ " pending, limit " ++ toString limit
  | creationFailed source _ => "session creation failed: " ++ source.message
  | closed => "session pool is closed"
  | cancelled => "session acquire cancelled"

/-- Whether the caller may hope for a session later: the pool is full, or creations fail for now. -/
def isResourceExhausted : PoolError → Bool
  | exhausted .. => true
  | creationFailed _ retriesExhausted => retriesExhausted
  | _ => false

/-- The error written with the names of its parts. -/
def describe : PoolError → String
  | exhausted active pending limit =>
    "Exhausted \x7b active: " ++ toString active ++ ", pending: " ++ toString pending
      ++ ", limit: " ++ toString limit ++ " \x7d"
  | creationFailed source retriesExhausted =>
    "CreationFailed \x7b source: " ++ source.describe ++ ", retries_exhausted: "
      ++ toString retriesExhausted ++ " \x7d"
  | closed => "Closed"
  | cancelled => "Cancelled"

end PoolError

end PooledSessions
