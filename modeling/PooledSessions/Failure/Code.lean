/-!
# Codes of failures

A failed call is described by up to two codes: one from the transport that carried it, one from the
server that answered it.  Each code has a name in snake case, under which it is written and read, and
a name in camel case, which descriptions of values use.
-/

namespace PooledSessions

/-- What the transport reports about a call. -/
inductive TransportCode
  | cancelled | unknown | invalidArgument | deadlineExceeded | notFound | permissionDenied
  | resourceExhausted | internal | unavailable | unauthenticated | unimplemented
  deriving DecidableEq, Repr

/-- What the server reports about a call it has received. -/
inductive StatusCode
  | badRequest | unauthorized | internalError | aborted | unavailable | overloaded | schemeError
  | genericError | timeout | badSession | preconditionFailed | alreadyExists | notFound
  | sessionExpired | cancelled | undetermined | unsupported | sessionBusy
  deriving DecidableEq, Repr

namespace TransportCode

/-- All transport codes. -/
def all : List TransportCode :=
  [cancelled, unknown, invalidArgument, deadlineExceeded, notFound, permissionDenied,
    resourceExhausted, internal, unavailable, unauthenticated, unimplemented]

/-- The code's name in snake case. -/
def name : TransportCode → String
  | cancelled => "cancelled"
  | unknown => "unknown"
  | invalidArgument => "invalid_argument"
  | deadlineExceeded => "deadline_exceeded"
  | notFound => "not_found"
  | permissionDenied => "permission_denied"
  | resourceExhausted => "resource_exhausted"
  | internal => "internal"
  | unavailable => "unavailable"
  | unauthenticated => "unauthenticated"
  | unimplemented => "unimplemented"

/-- The code's name in camel case. -/
def title : TransportCode → String
  | cancelled => "Cancelled"
  | unknown => "Unknown"
  | invalidArgument => "InvalidArgument"
  | deadlineExceeded => "DeadlineExceeded"
  | notFound => "NotFound"
  | permissionDenied => "PermissionDenied"
  | resourceExhausted => "ResourceExhausted"
  | internal => "Internal"
  | unavailable => "Unavailable"
  | unauthenticated => "Unauthenticated"
  | unimplemented => "Unimplemented"

/-- The code of a given name. -/
def ofName? (s : String) : Option TransportCode := all.find? (·.name = s)

end TransportCode

namespace StatusCode

/-- All status codes. -/
def all : List StatusCode :=
  [badRequest, unauthorized, internalError, aborted, unavailable, overloaded, schemeError,
    genericError, timeout, badSession, preconditionFailed, alreadyExists, notFound, sessionExpired,
    cancelled, undetermined, unsupported, sessionBusy]

/-- The code's name in snake case. -/
def name : StatusCode → String
  | badRequest => "bad_request"
  | unauthorized => "unauthorized"
  | internalError => "internal_error"
  | aborted => "aborted"
  | unavailable => "unavailable"
  | overloaded => "overloaded"
  | schemeError => "scheme_error"
  | genericError => "generic_error"
  | timeout => "timeout"
  | badSession => "bad_session"
  | preconditionFailed => "precondition_failed"
  | alreadyExists => "already_exists"
  | notFound => "not_found"
  | sessionExpired => "session_expired"
  | cancelled => "cancelled"
  | undetermined => "undetermined"
  | unsupported => "unsupported"
  | sessionBusy => "session_busy"

/-- The code's name in camel case. -/
def title : StatusCode → String
  | badRequest => "BadRequest"
  | unauthorized => "Unauthorized"
  | internalError => "InternalError"
  | aborted => "Aborted"
  | unavailable => "Unavailable"
  | overloaded => "Overloaded"
  | schemeError => "SchemeError"
  | genericError => "GenericError"
  | timeout => "Timeout"
  | badSession => "BadSession"
  | preconditionFailed => "PreconditionFailed"
  | alreadyExists => "AlreadyExists"
  | notFound => "NotFound"
  | sessionExpired => "SessionExpired"
  | cancelled => "Cancelled"
  | undetermined => "Undetermined"
  | unsupported => "Unsupported"
  | sessionBusy => "SessionBusy"

/-- The code of a given name. -/
def ofName? (s : String) : Option StatusCode := all.find? (·.name = s)

end StatusCode

/-- A code of either kind. -/
inductive Code
  | transport (code : TransportCode)
  | status (code : StatusCode)
  deriving DecidableEq, Repr

end PooledSessions
