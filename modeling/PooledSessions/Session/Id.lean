import PooledSessions.Failure.Code
import PooledSessions.Text.Quoted
/-!
# Sessions

The server names a session by an opaque text and says on which node it lives.
-/

namespace PooledSessions

/-- The server's name of a session. -/
structure SessionId where
  /-- The name. -/
  text : String
  deriving DecidableEq, Inhabited

/-- The name written with the name of its type. -/
def SessionId.describe (id : SessionId) : String := "SessionId(" ++ Text.quote id.text ++ ")"

namespace SessionId

/-- Names stand in the order of the bytes of their texts. -/
def isBefore (a b : SessionId) : Bool := decide (a.text ≤ b.text)

/-- The names in their order. -/
def sorted (ids : List SessionId) : List SessionId := ids.mergeSort isBefore

/-- The names without those that stand beside an equal one. -/
def distinct : List SessionId → List SessionId
  | a :: b :: rest => if a = b then distinct (b :: rest) else a :: distinct (b :: rest)
  | ids => ids

end SessionId

/-- A session as it is handed to operations that run on it. -/
structure SessionInfo where
  /-- Its name. -/
  id : SessionId
  /-- The node on which it lives. -/
  node : Int
  deriving DecidableEq

/-- What the server says about a session on its status stream. -/
inductive SessionStatus
  /-- The session can be used. -/
  | ready
  /-- The session can no longer be used. -/
  | unusable (code : StatusCode)
  deriving DecidableEq

end PooledSessions
