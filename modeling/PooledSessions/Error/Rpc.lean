import PooledSessions.Failure.Code
import PooledSessions.Text.Quoted
/-!
# Errors of calls to the server

A call fails in the transport, or is answered with a failing status, or is given up because the
caller cancelled it.
-/

namespace PooledSessions

/-- Why a call to the server has no result. -/
inductive RpcError
  /-- The channel failed before an answer was read. -/
  | transport (code : TransportCode) (message : String)
  /-- The server answered with a failing status. -/
  | status (code : StatusCode) (message : String)
  /-- The caller cancelled. -/
  | cancelled
  deriving DecidableEq, Inhabited

namespace RpcError

/-- The text of the error. -/
def message : RpcError → String
  | transport code text => "transport error (" ++ code.name ++ "): " ++ text
  | status code text => "server status " ++ code.name ++ ": " ++ text
  | cancelled => "operation cancelled"

/-- The code the error itself carries: a cancelled call counts as cancelled in the transport. -/
def code : RpcError → Code
  | transport code _ => .transport code
  | status code _ => .status code
  | cancelled => .transport .cancelled

/-- The error written with the names of its parts. -/
def describe : RpcError → String
  | transport code text =>
    "Transport \x7b code: " ++ code.title ++ ", message: " ++ Text.quote text ++ " \x7d"
  | status code text =>
    "Status \x7b status: " ++ code.title ++ ", message: " ++ Text.quote text ++ " \x7d"
  | cancelled => "Cancelled"

/-- Whether the server says that the session of the call is gone or taken. -/
def isSessionStatus : RpcError → Bool
  | status .badSession _ | status .sessionExpired _ | status .sessionBusy _ => true
  | _ => false

end RpcError

end PooledSessions
