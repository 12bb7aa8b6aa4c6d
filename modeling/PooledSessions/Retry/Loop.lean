import PooledSessions.Retry.Executor
/-!
# The retry loop

An operation under the retry loop waits for the answer of an attempt or for the end of the delay before
the next one.  In between the loop moves at once.  Its moves are functions of the attempt and of
whether the caller has cancelled, so that the plain loop, the creation of sessions and the pooled loop
share them.

Cancellation is looked for before an attempt is started and before a delay is waited for.
-/

namespace PooledSessions

/-- An error type that an operation under the retry loop may fail with. -/
class CallError (ε : Type) where
  /-- The error as a fault to be classified. -/
  toFault : ε → Fault
  /-- The error of a cancelled call. -/
  cancelled : ε

instance : CallError RpcError := ⟨.rpc, .cancelled⟩

instance : CallError DriverError := ⟨.driver, .cancelled⟩

namespace Loop

/-- How the retry loop goes on. -/
inductive Next (ε : Type)
  /-- An attempt is started. -/
  | attempt (attempt : Attempt)
  /-- A delay is waited for. -/
  | pause (attempt : Attempt) (wake : Nat)
  /-- The loop ends with an error. -/
  | fail (error : ε)

variable {ε : Type} [CallError ε]

/-- Starts an attempt, unless the caller has cancelled. -/
def start (a : Attempt) (cancelled : Bool) : Next ε :=
  if cancelled then .fail (CallError.cancelled) else .attempt a

/-- Goes on after an attempt that failed with `e` and was given the delay `delay`. -/
def afterFailure (a : Attempt) (e : ε) (delay : Option Span) (cancelled : Bool) (now : Nat) :
    Next ε :=
  match delay with
  | none => .fail e
  | some d =>
    if cancelled then .fail (CallError.cancelled)
    else if d.isZero then .attempt a.next
    else .pause a (now + d.waitMillis)

end Loop

end PooledSessions
