import PooledSessions.Config.Basic
import PooledSessions.Failure.Class
import PooledSessions.Retry.Backoff
/-!
# When to try again

A policy decides whether a failed attempt is followed by another one and after which delay.  The class
of the failure chooses between two backoffs: the fast one serves unavailable servers and unknown
outcomes, the slow one serves overload.  A conflict about a session is tried again at once, on another
session.  An unknown outcome is tried again only if the operation may be repeated safely.
-/

namespace PooledSessions

/-- The largest number of an attempt. -/
def attemptLimit : Nat := 4294967295

/-- An attempt at an operation. -/
structure Attempt where
  /-- The number of the attempt, from one. -/
  number : Nat
  /-- Whether the operation may be repeated safely. -/
  idempotent : Bool
  deriving DecidableEq

namespace Attempt

/-- The first attempt. -/
def first (idempotent : Bool) : Attempt := ⟨1, idempotent⟩

/-- The attempt after this one; the numbers end at the largest one. -/
def next (a : Attempt) : Attempt := { a with number := min (a.number + 1) attemptLimit }

@[simp] theorem next_idempotent (a : Attempt) : a.next.idempotent = a.idempotent := rfl

@[simp] theorem next_number (a : Attempt) : a.next.number = min (a.number + 1) attemptLimit := rfl

end Attempt

/-- The rules of repetition. -/
structure Policy where
  /-- Delays while the server is unavailable or an outcome unknown. -/
  fast : Backoff
  /-- Delays while the server is overloaded. -/
  slow : Backoff
  /-- How many attempts there are at most, the first one counted. -/
  maxAttempts : Nat
  /-- There is always a first attempt. -/
  one_le_maxAttempts : 1 ≤ maxAttempts
  /-- Attempts are counted up to the limit of their numbers. -/
  maxAttempts_le : maxAttempts ≤ attemptLimit
  deriving DecidableEq

namespace Policy

/-- A number of attempts brought between one and the limit. -/
def clampAttempts (n : Nat) : Nat := max 1 (min n attemptLimit)

theorem one_le_clampAttempts (n : Nat) : 1 ≤ clampAttempts n := Nat.le_max_left _ _

theorem clampAttempts_le (n : Nat) : clampAttempts n ≤ attemptLimit := by
  unfold clampAttempts attemptLimit
  omega

/-- A policy with the given backoffs and number of attempts. -/
def ofBackoffs (fast slow : Backoff) (attempts : Nat) : Policy :=
  ⟨fast, slow, clampAttempts attempts, one_le_clampAttempts _, clampAttempts_le _⟩

/-- The policy that the settings describe. -/
def ofConfig (c : RetryConfig) : Policy :=
  ofBackoffs ⟨.ofMillis c.fastBaseMs.toNat, .ofMillis c.fastCapMs.toNat⟩
    ⟨.ofMillis c.slowBaseMs.toNat, .ofMillis c.slowCapMs.toNat⟩ c.maxAttempts.toNat

/-- The policy with another number of attempts. -/
def withMaxAttempts (p : Policy) (attempts : Nat) : Policy := ofBackoffs p.fast p.slow attempts

/-- The policy for the creation of sessions: the backoffs of the settings and a number of attempts of
its own. -/
def forSessionCreation (c : RetryConfig) (attempts : UInt32) : Policy :=
  (ofConfig c).withMaxAttempts attempts.toNat

/-- The delay after a failure of the given class, drawn with a generator. -/
def delayFor (p : Policy) (a : Attempt) (g : Generator) : FailureClass → Option Span × Generator
  | .sessionConflict => (some .zero, g)
  | .undetermined =>
    if a.idempotent then
      let (d, g) := p.fast.fullJitter a.number g
      (some d, g)
    else
      (none, g)
  | .unavailable =>
    let (d, g) := p.fast.equalJitter a.number g
    (some d, g)
  | .overloaded =>
    let (d, g) := p.slow.equalJitter a.number g
    (some d, g)
  | .nonRetryable => (none, g)

/-- The delay after which a failed attempt is followed by another one, or nothing if it is the last
one.  Also answers the generator after the draw. -/
def decideWith (p : Policy) (f : Failure) (a : Attempt) (g : Generator) : Option Span × Generator :=
  if p.maxAttempts ≤ a.number then (none, g) else p.delayFor a g f.failureClass

/-- Decides with a fresh generator that is seeded from the given one. -/
def decideFresh (p : Policy) (f : Failure) (a : Attempt) (g : Generator) : Option Span × Generator :=
  let (fresh, g) := g.spawn
  ((p.decideWith f a fresh).1, g)

/-- The policy written with the names of its parts. -/
def describe (p : Policy) : String :=
  "RetryPolicy \x7b fast: " ++ p.fast.describe ++ ", slow: " ++ p.slow.describe
    ++ ", max_attempts: " ++ toString p.maxAttempts ++ " \x7d"

end Policy

end PooledSessions
