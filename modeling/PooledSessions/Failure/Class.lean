import PooledSessions.Failure.Code
/-!
# Failures and their classes

The codes found for an error make it a failure.  Its class, which decides whether and how the call is
repeated, comes from the transport code if there is one and from the status code otherwise.
-/

namespace PooledSessions

/-- The kinds of failure that are treated alike. -/
inductive FailureClass
  /-- The server or the way to it is down for now. -/
  | unavailable
  /-- The server asks for less traffic. -/
  | overloaded
  /-- The session of the call can no longer be used. -/
  | sessionConflict
  /-- Nobody knows whether the call took effect. -/
  | undetermined
  /-- Repeating the call would not help. -/
  | nonRetryable
  deriving DecidableEq, Repr

namespace FailureClass

/-- The name of the class in snake case. -/
def name : FailureClass → String
  | unavailable => "unavailable"
  | overloaded => "overloaded"
  | sessionConflict => "session_conflict"
  | undetermined => "undetermined"
  | nonRetryable => "non_retryable"

/-- The class to which a transport code alone belongs. -/
def ofTransport : TransportCode → FailureClass
  | .unavailable => unavailable
  | .resourceExhausted => overloaded
  | .deadlineExceeded | .unknown | .internal => undetermined
  | _ => nonRetryable

/-- The class to which a status code alone belongs. -/
def ofStatus : StatusCode → FailureClass
  | .badSession | .sessionBusy | .sessionExpired => sessionConflict
  | .undetermined => undetermined
  | .unavailable | .aborted => unavailable
  | .overloaded => overloaded
  | _ => nonRetryable

/-- The class to which a code alone belongs. -/
def ofCode : Code → FailureClass
  | .transport c => ofTransport c
  | .status c => ofStatus c

end FailureClass

/-- The codes that were found for an error. -/
structure Failure where
  /-- The transport code, if one was found. -/
  transport : Option TransportCode
  /-- The status code, if one was found. -/
  status : Option StatusCode
  deriving DecidableEq, Repr

namespace Failure

/-- The failure of which nothing is known. -/
def unclassified : Failure := ⟨none, none⟩

/-- The class of a failure: that of its transport code, or else that of its status code. -/
def failureClass (f : Failure) : FailureClass :=
  match f.transport, f.status with
  | some c, _ => .ofTransport c
  | none, some c => .ofStatus c
  | none, none => .nonRetryable

/-- Whether any code was found. -/
def isClassified (f : Failure) : Bool := f.transport.isSome || f.status.isSome

/-- Whether a transport code leaves the session of the call in doubt. -/
def breaksSession : TransportCode → Bool
  | .unavailable | .deadlineExceeded | .unknown | .internal => true
  | _ => false

/-- Whether the session of the call has to be given up. -/
def invalidatesSession (f : Failure) : Bool :=
  f.failureClass = .sessionConflict || f.transport.any breaksSession

@[simp] theorem failureClass_transport (c : TransportCode) (s : Option StatusCode) :
    (Failure.mk (some c) s).failureClass = .ofTransport c := rfl

@[simp] theorem failureClass_status (c : StatusCode) :
    (Failure.mk none (some c)).failureClass = .ofStatus c := rfl

@[simp] theorem failureClass_unclassified : unclassified.failureClass = .nonRetryable := rfl

end Failure

end PooledSessions
