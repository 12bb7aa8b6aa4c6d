/-!
# Spans of time

A span is a whole number of nanoseconds below a fixed limit, 2^64 seconds.  Products that would
pass the limit stop at it.  The clock of a run counts whole milliseconds, so a span is rounded up
when something waits for it and rounded down when it is written into an event.  Nothing waits for more
than thirty years.
-/

namespace PooledSessions

/-- The longest wait in milliseconds: thirty years of 365 days. -/
def longestWait : Nat := 30 * 365 * 86400 * 1000

/-- For how many milliseconds something waits that means to wait for `millis`. -/
def boundedWait (millis : Nat) : Nat := min millis longestWait

/-- The longest span: 2^64 - 1 seconds and 999 999 999 nanoseconds. -/
def Span.limit : Nat := 18446744073709551615 * 1000000000 + 999999999

/-- A length of time in nanoseconds, never above `Span.limit`. -/
@[ext] structure Span where
  /-- The length in nanoseconds. -/
  nanos : Nat
  /-- No span is longer than the limit. -/
  nanos_le : nanos ≤ Span.limit
  deriving DecidableEq

namespace Span

/-- The span of `n` nanoseconds, or the longest span if `n` is beyond it. -/
def ofNanos (n : Nat) : Span := ⟨min n limit, Nat.min_le_right _ _⟩

/-- The span of `n` milliseconds. -/
def ofMillis (n : Nat) : Span := ofNanos (n * 1000000)

/-- The empty span. -/
def zero : Span := ⟨0, Nat.zero_le _⟩

instance : Inhabited Span := ⟨zero⟩

instance : LE Span := ⟨fun a b => a.nanos ≤ b.nanos⟩

instance (a b : Span) : Decidable (a ≤ b) := inferInstanceAs (Decidable (a.nanos ≤ b.nanos))

@[simp] theorem ofNanos_nanos (n : Nat) : (ofNanos n).nanos = min n limit := rfl

@[simp] theorem zero_nanos : zero.nanos = 0 := rfl

theorem ofNanos_of_le {n : Nat} (h : n ≤ limit) : (ofNanos n).nanos = n := Nat.min_eq_left h

theorem le_iff {a b : Span} : a ≤ b ↔ a.nanos ≤ b.nanos := Iff.rfl

/-- `k` times the span, stopping at the longest one. -/
def scale (s : Span) (k : Nat) : Span := ofNanos (s.nanos * k)

/-- The shorter of two spans. -/
def shorter (a b : Span) : Span := if a ≤ b then a else b

/-- Half of the span, an odd nanosecond dropped. -/
def half (s : Span) : Span := ⟨s.nanos / 2, Nat.le_trans (Nat.div_le_self _ _) s.nanos_le⟩

/-- One span after the other, stopping at the longest one. -/
def append (a b : Span) : Span := ofNanos (a.nanos + b.nanos)

/-- Whether nothing has to be waited for. -/
def isZero (s : Span) : Bool := s.nanos == 0

@[simp] theorem shorter_nanos (a b : Span) : (shorter a b).nanos = min a.nanos b.nanos := by
  unfold shorter
  split
  · rename_i h
    exact (Nat.min_eq_left h).symm
  · rename_i h
    exact (Nat.min_eq_right (Nat.le_of_lt (Nat.lt_of_not_le h))).symm

/-- The milliseconds for which the clock has to run until the span has passed. -/
def ceilMillis (s : Span) : Nat := (s.nanos + 999999) / 1000000

/-- For how many milliseconds something waits for the span to pass. -/
def waitMillis (s : Span) : Nat := boundedWait s.ceilMillis

/-- The whole milliseconds of the span, at most 2^64 - 1. -/
def floorMillis (s : Span) : Nat := min (s.nanos / 1000000) 18446744073709551615

/-- The span in nanoseconds as a 64-bit number, the largest one if it does not fit. -/
def wordNanos (s : Span) : Nat := min s.nanos 18446744073709551615

/-- A whole part and `places` further decimal places of which trailing zeros are left out. -/
def decimalText (whole rest places : Nat) : String :=
  let digits := (Nat.toDigits 10 rest)
  let padded := List.replicate (places - digits.length) '0' ++ digits
  let kept := (padded.reverse.dropWhile (· == '0')).reverse
  if kept.isEmpty then toString whole else toString whole ++ "." ++ String.ofList kept

/-- The span in the largest of the units s, ms, µs and ns in which it is not below one, with the
decimal places it needs. -/
def text (s : Span) : String :=
  if 1000000000 ≤ s.nanos then
    decimalText (s.nanos / 1000000000) (s.nanos % 1000000000) 9 ++ "s"
  else if 1000000 ≤ s.nanos then
    decimalText (s.nanos / 1000000) (s.nanos % 1000000) 6 ++ "ms"
  else if 1000 ≤ s.nanos then
    decimalText (s.nanos / 1000) (s.nanos % 1000) 3 ++ "µs"
  else
    toString s.nanos ++ "ns"

end Span

end PooledSessions
