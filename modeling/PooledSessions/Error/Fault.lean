import PooledSessions.Error.Driver
/-!
# Faults

A fault is any error a program may hand over for classification: one of this library's own errors,
an input or output error, or an error of the application around it.  A fault has a text and perhaps
a cause, the fault it was raised for.  Some faults carry further faults that are not their cause: the
payload of an input or output error, and the members of a batch.
-/

namespace PooledSessions

/-- The kinds of input and output errors. -/
inductive IoKind
  | notFound | permissionDenied | connectionRefused | connectionReset | connectionAborted
  | notConnected | addrInUse | addrNotAvailable | brokenPipe | alreadyExists | wouldBlock
  | invalidInput | invalidData | timedOut | writeZero | interrupted | unexpectedEof | other
  deriving DecidableEq, Repr

namespace IoKind

/-- All kinds of input and output errors. -/
def all : List IoKind :=
  [notFound, permissionDenied, connectionRefused, connectionReset, connectionAborted, notConnected,
    addrInUse, addrNotAvailable, brokenPipe, alreadyExists, wouldBlock, invalidInput, invalidData,
    timedOut, writeZero, interrupted, unexpectedEof, other]

/-- The kind's name in snake case. -/
def name : IoKind → String
  | notFound => "not_found"
  | permissionDenied => "permission_denied"
  | connectionRefused => "connection_refused"
  | connectionReset => "connection_reset"
  | connectionAborted => "connection_aborted"
  | notConnected => "not_connected"
  | addrInUse => "addr_in_use"
  | addrNotAvailable => "addr_not_available"
  | brokenPipe => "broken_pipe"
  | alreadyExists => "already_exists"
  | wouldBlock => "would_block"
  | invalidInput => "invalid_input"
  | invalidData => "invalid_data"
  | timedOut => "timed_out"
  | writeZero => "write_zero"
  | interrupted => "interrupted"
  | unexpectedEof => "unexpected_eof"
  | other => "other"

/-- The text of an error of this kind that carries nothing else. -/
def message : IoKind → String
  | notFound => "entity not found"
  | permissionDenied => "permission denied"
  | connectionRefused => "connection refused"
  | connectionReset => "connection reset"
  | connectionAborted => "connection aborted"
  | notConnected => "not connected"
  | addrInUse => "address in use"
  | addrNotAvailable => "address not available"
  | brokenPipe => "broken pipe"
  | alreadyExists => "entity already exists"
  | wouldBlock => "operation would block"
  | invalidInput => "invalid input parameter"
  | invalidData => "invalid data"
  | timedOut => "timed out"
  | writeZero => "write zero"
  | interrupted => "operation interrupted"
  | unexpectedEof => "unexpected end of file"
  | other => "other error"

/-- The kind of a given name. -/
def ofName? (s : String) : Option IoKind := all.find? (·.name = s)

end IoKind

/-- An error of any origin. -/
inductive Fault
  /-- A failed call to the server. -/
  | rpc (error : RpcError)
  /-- A session that was not leased. -/
  | pool (error : PoolError)
  /-- A pooled operation that failed. -/
  | driver (error : DriverError)
  /-- A cancelled operation. -/
  | cancelled
  /-- An input or output error, perhaps around another fault. -/
  | io (kind : IoKind) (payload : Option Fault)
  /-- A mere text. -/
  | text (message : String)
  /-- A text put around the fault that caused it. -/
  | wrapped (message : String) (cause : Option Fault)
  /-- Several faults reported as one, with a code of its own perhaps. -/
  | batch (members : List Fault) (code : Option Code) (cause : Option Fault)
  /-- An error of an older protocol, known by its number. -/
  | legacy (status : Int)

namespace Fault

/-- The text of the fault. -/
def message : Fault → String
  | rpc e => e.message
  | pool e => e.message
  | driver e => e.message
  | cancelled => "operation cancelled"
  | io kind none => kind.message
  | io _ (some payload) => payload.message
  | text s => s
  | wrapped s _ => s
  | batch members _ _ => toString members.length ++ " errors"
  | legacy n => "legacy status " ++ toString n

/-- The fault for which this one was raised.  An input or output error stands aside: its cause is
that of its payload. -/
def cause : Fault → Option Fault
  | pool (.creationFailed source _) => some (rpc source)
  | driver (.rpc source) => some (rpc source)
  | driver (.pool source) => some (pool source)
  | io _ (some payload) => payload.cause
  | wrapped _ c => c
  | batch _ _ c => c
  | _ => none

/-- The number of steps after which a chain of causes has certainly ended. -/
def reach : Fault → Nat
  | pool _ => 2
  | driver _ => 3
  | io _ (some payload) => payload.reach
  | wrapped _ (some c) => c.reach + 1
  | batch _ _ (some c) => c.reach + 1
  | _ => 1

/-- The first `n` causes that follow one another from a fault. -/
def causesWithin : Nat → Fault → List Fault
  | 0, _ => []
  | n + 1, f =>
    match f.cause with
    | none => []
    | some c => c :: causesWithin n c

/-- All causes of a fault, the nearest first. -/
def causes (f : Fault) : List Fault := causesWithin f.reach f

end Fault

end PooledSessions
