import PooledSessions.Proofs.Retry.Attempts
/-!
# The longest delay

However a delay is drawn, it stays below the cap of its backoff.  So no delay that a policy decides on is
waited for longer than the larger one of its two caps, in whole milliseconds (`Policy.longestDelay`).
-/

namespace PooledSessions

theorem Span.ceilMillis_le_ceilMillis {a b : Span} (h : a ≤ b) : a.ceilMillis ≤ b.ceilMillis :=
  Nat.div_le_div_right (Nat.add_le_add_right h 999999)

/-- Nothing waits for a span longer than the span is. -/
theorem Span.waitMillis_le_ceilMillis (s : Span) : s.waitMillis ≤ s.ceilMillis :=
  Nat.min_le_left _ _

namespace Backoff

variable (b : Backoff) (n : Nat) (g : Generator)

theorem upperBound_le_cap : b.upperBound n ≤ b.cap := by
  rw [Span.le_iff, upperBound, Span.shorter_nanos]
  exact Nat.min_le_right _ _

/-- A random span up to a given one is drawn in words, none of which is larger than the span. -/
theorem randomUpTo_le (s : Span) (g : Generator) : (randomUpTo s g).1 ≤ s := by
  have hdrawn : (g.upTo s.wordNanos).1 ≤ s.nanos :=
    (Generator.upTo_le s.wordNanos g).trans (Nat.min_le_left _ _)
  exact (Nat.min_le_left _ _).trans hdrawn

theorem fullJitter_le_cap : (b.fullJitter n g).1 ≤ b.cap :=
  Nat.le_trans (randomUpTo_le (b.upperBound n) g) (b.upperBound_le_cap n)

/-- Half of the bound and at most its other half are together no more than the bound. -/
theorem equalJitter_le_cap : (b.equalJitter n g).1 ≤ b.cap := by
  have hpart : (randomUpTo (b.upperBound n).half g).1.nanos ≤ (b.upperBound n).nanos / 2 :=
    randomUpTo_le (b.upperBound n).half g
  have hsum : (b.upperBound n).nanos / 2 + (randomUpTo (b.upperBound n).half g).1.nanos ≤
      (b.upperBound n).nanos := by
    omega
  exact ((Nat.min_le_left _ _).trans hsum).trans (b.upperBound_le_cap n)

end Backoff

namespace Policy

variable {p : Policy} {f : Failure} {a : Attempt} {g : Generator} {d : Span}

/-- For how many milliseconds a delay is waited for at most: the larger one of the two caps, rounded
up. -/
def longestDelay (p : Policy) : Nat := max p.fast.cap.ceilMillis p.slow.cap.ceilMillis

theorem waitMillis_le_of_fast (h : d ≤ p.fast.cap) : d.waitMillis ≤ p.longestDelay :=
  (d.waitMillis_le_ceilMillis.trans (Span.ceilMillis_le_ceilMillis h)).trans (Nat.le_max_left _ _)

theorem waitMillis_le_of_slow (h : d ≤ p.slow.cap) : d.waitMillis ≤ p.longestDelay :=
  (d.waitMillis_le_ceilMillis.trans (Span.ceilMillis_le_ceilMillis h)).trans (Nat.le_max_right _ _)

theorem waitMillis_le_of_delayFor {k : FailureClass} (h : (p.delayFor a g k).1 = some d) :
    d.waitMillis ≤ p.longestDelay := by
  cases k with
  | sessionConflict =>
    rw [← Option.some.inj h, Span.waitMillis_of_isZero rfl]
    exact Nat.zero_le _
  | undetermined =>
    unfold delayFor at h
    dsimp only at h
    split at h
    · rw [← Option.some.inj h]
      exact waitMillis_le_of_fast (p.fast.fullJitter_le_cap a.number g)
    · cases h
  | unavailable =>
    rw [← Option.some.inj h]
    exact waitMillis_le_of_fast (p.fast.equalJitter_le_cap a.number g)
  | overloaded =>
    rw [← Option.some.inj h]
    exact waitMillis_le_of_slow (p.slow.equalJitter_le_cap a.number g)
  | nonRetryable => cases h

/-- A delay is decided on only while attempts are left, and is not waited for longer than the longest
one. -/
theorem bounds_of_decideFresh (h : (p.decideFresh f a g).1 = some d) :
    a.number < p.maxAttempts ∧ d.waitMillis ≤ p.longestDelay := by
  rw [decideFresh_eq] at h
  -- the fresh generator is only named here: what is drawn with it must not be computed
  generalize g.spawn.1 = fresh at h
  unfold decideWith at h
  dsimp only at h
  split at h
  · cases h
  · rename_i hmore
    exact ⟨Nat.lt_of_not_le hmore, waitMillis_le_of_delayFor h⟩

end Policy

end PooledSessions
