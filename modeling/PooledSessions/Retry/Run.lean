import PooledSessions.Retry.Loop
/-!
# Running an operation under the retry loop

A run plays the retry loop against an operation whose behaviour on every attempt is known.  The clock
counts milliseconds and moves only while the run waits.  Another task may cancel the call when the clock
shows a given time; a run that waits at that time or later sees it.  If a timer of the run is due at the
same time, either of the two may come first.
-/

namespace PooledSessions

/-- How an operation behaves on one attempt. -/
structure Reply (ε α : Type) where
  /-- Whether it cancels the call as it starts. -/
  cancels : Bool
  /-- For how many milliseconds it works. -/
  work : Nat
  /-- What it answers. -/
  result : Except ε α

/-- What a run of the retry loop leaves behind. -/
structure Run (ε α : Type) where
  /-- The result of the call. -/
  result : Except ε α
  /-- How many attempts were started. -/
  calls : Nat
  /-- The records of the failed attempts, the first one first. -/
  records : List AttemptRecord
  /-- What the clock shows at the end. -/
  elapsed : Nat
  /-- What was reported. -/
  events : List Event
  /-- The generator at the end. -/
  generator : Generator

/-- What a run can see besides its operation. -/
structure Surroundings where
  /-- What the clock shows. -/
  now : Nat
  /-- Whether the call has been cancelled. -/
  cancelled : Bool
  /-- When another task will cancel the call. -/
  cancelAt : Option Nat
  /-- Whether it does so before a timer of the run that is due at the same time. -/
  cancelsFirst : Bool
  /-- After how many further records their observer cancels the call. -/
  cancelOnRecord : Option Nat
  deriving DecidableEq

namespace Surroundings

/-- A run that begins, which may be cancelled already, by another task after some time, or by an observer
of the records.  A timer of the run that is due when it is cancelled by the other task comes first. -/
def atStart (cancelled : Bool) (cancelAfter cancelOnRecord : Option Nat) : Surroundings :=
  ⟨0, cancelled, cancelAfter.map boundedWait, false, cancelOnRecord⟩

/-- Waits until the clock shows `due`, unless the call is cancelled before. -/
def wait (s : Surroundings) (due : Nat) : Surroundings :=
  if s.cancelled || due ≤ s.now then s
  else
    match s.cancelAt with
    | some t =>
      if t < due || (t == due && s.cancelsFirst) then { s with now := max s.now t, cancelled := true }
      else { s with now := due }
    | none => { s with now := due }

/-- Shows a record to the observer. -/
def observe (s : Surroundings) : Surroundings :=
  match s.cancelOnRecord with
  | some 1 => { s with cancelled := true, cancelOnRecord := none }
  | some n => { s with cancelOnRecord := some (n - 1) }
  | none => s

end Surroundings

namespace Executor

variable {ε α : Type} [CallError ε]

/-- One attempt, seen by the loop that waits for its answer: the answer, or nothing if the call was
cancelled while the attempt worked. -/
def attemptOnce (r : Reply ε α) (s : Surroundings) : Option (Except ε α) × Surroundings :=
  let s := { s with cancelled := s.cancelled || r.cancels }
  if r.work = 0 then (some r.result, s)
  else
    let s := s.wait (s.now + boundedWait r.work)
    if s.cancelled then (none, s) else (some r.result, s)

/-- Runs an operation from a given attempt on, with at most `fuel` further attempts. -/
def runFrom (x : Executor) (op : Nat → Reply ε α) :
    Nat → Attempt → Nat → Surroundings → Generator → Run ε α
  | 0, _, calls, s, g => ⟨.error CallError.cancelled, calls, [], s.now, [], g⟩
  | fuel + 1, a, calls, s, g =>
    if s.cancelled then ⟨.error CallError.cancelled, calls, [], s.now, [], g⟩
    else
      match attemptOnce (op calls) s with
      | (none, s) => ⟨.error CallError.cancelled, calls + 1, [], s.now, [], g⟩
      | (some (.ok v), s) => ⟨.ok v, calls + 1, [], s.now, [], g⟩
      | (some (.error e), s) =>
        let assessed := x.assess (CallError.toFault e) a g
        let s := s.observe
        match Loop.afterFailure a e assessed.record.delay s.cancelled s.now with
        | .fail e =>
          ⟨.error e, calls + 1, [assessed.record], s.now, assessed.events, assessed.generator⟩
        | .attempt a =>
          let rest := runFrom x op fuel a (calls + 1) s assessed.generator
          { rest with
            records := assessed.record :: rest.records
            events := assessed.events ++ rest.events }
        | .pause a wake =>
          let s := s.wait wake
          let rest := runFrom x op fuel a.next (calls + 1) s assessed.generator
          { rest with
            records := assessed.record :: rest.records
            events := assessed.events ++ rest.events }

/-- Runs an operation under the retry loop.  No run has more attempts than the policy allows. -/
def run (x : Executor) (idempotent : Bool) (op : Nat → Reply ε α) (s : Surroundings)
    (g : Generator) : Run ε α :=
  x.runFrom op x.policy.maxAttempts (.first idempotent) 0 s g

/-- Waits for the delay before another attempt: whether the call was not cancelled meanwhile, and what
the clock shows then. -/
def pause (delay : Span) (s : Surroundings) : Bool × Nat :=
  if s.cancelled then (false, s.now)
  else if delay.isZero then (true, s.now)
  else
    let s := s.wait (s.now + delay.waitMillis)
    (!s.cancelled, s.now)

end Executor

end PooledSessions
