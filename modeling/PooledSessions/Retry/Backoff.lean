import PooledSessions.Time.Span
import PooledSessions.Number.Generator
/-!
# Exponential backoff

The delays of a backoff grow with the attempts: the bound for attempt `n` is `base * 2 ^ n`, never
more than the cap.  The exponent stops growing at the ceiling, the first exponent at which the cap is
reached.  The delay itself is drawn at random below the bound, or in the upper half below it.
-/

namespace PooledSessions

/-- An exponentially growing bound on delays. -/
structure Backoff where
  /-- The bound before it is doubled. -/
  base : Span
  /-- The largest bound. -/
  cap : Span
  deriving DecidableEq

namespace Backoff

/-- The largest exponent that is ever used. -/
def maxExponent : Nat := 31

/-- Whether doubling the base `e` times reaches the cap. -/
def reaches (b : Backoff) (e : Nat) : Bool := b.cap ≤ b.base.scale (1 <<< e)

/-- The first exponent at which the cap is reached, and the largest one if there is none.  An empty
base does not grow, so no exponent is needed for it. -/
def ceiling (b : Backoff) : Nat :=
  if b.base.isZero then 0 else ((List.range maxExponent).find? b.reaches).getD maxExponent

/-- The longest delay after a given attempt. -/
def upperBound (b : Backoff) (attempt : Nat) : Span :=
  (b.base.scale (1 <<< min attempt b.ceiling)).shorter b.cap

/-- A random span up to the given one, drawn in nanoseconds from 64-bit numbers. -/
def randomUpTo (s : Span) (g : Generator) : Span × Generator :=
  let (n, g) := g.upTo s.wordNanos
  (.ofNanos n, g)

/-- A delay anywhere up to the bound. -/
def fullJitter (b : Backoff) (attempt : Nat) (g : Generator) : Span × Generator :=
  randomUpTo (b.upperBound attempt) g

/-- Half of the bound and a random part of the other half. -/
def equalJitter (b : Backoff) (attempt : Nat) (g : Generator) : Span × Generator :=
  let half := (b.upperBound attempt).half
  let (part, g) := randomUpTo half g
  (half.append part, g)

/-- The backoff written with the names of its parts. -/
def describe (b : Backoff) : String :=
  "Backoff \x7b base: " ++ b.base.text ++ ", cap: " ++ b.cap.text ++ ", ceiling: "
    ++ toString b.ceiling ++ " \x7d"

end Backoff

end PooledSessions
