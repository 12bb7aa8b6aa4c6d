import PooledSessions.Proofs.Retry.Delays
/-!
# Delays drawn at random

A delay is drawn below the bound of a backoff, or half of the bound is kept and the other half is drawn.  The
numbers that are drawn are words of 64 bits, while a bound may be longer than any word of nanoseconds; and
sums of spans stop at the longest span.  Neither matters: what is drawn is a span, and half of a bound and a
part of its other half are together no more than the bound.  So each delay is what one computes without any
limit (`Policy.exactDelay`), whichever numbers up to their bounds are drawn (`Policy.decideWith_exact`).
-/

namespace PooledSessions

/-- Any word is a span of so many nanoseconds. -/
theorem Span.ofNanos_of_word {n : Nat} (h : n ≤ 2 ^ 64 - 1) : (ofNanos n).nanos = n :=
  ofNanos_of_le (h.trans (by decide))

namespace Backoff

variable (b : Backoff) (n : Nat) (g : Generator)

/-- A random span is as long as the number drawn for it. -/
theorem randomUpTo_nanos (s : Span) : (randomUpTo s g).1.nanos = (g.upTo (min s.nanos (2 ^ 64 - 1))).1 := by
  have hword : (g.upTo s.wordNanos).1 ≤ 2 ^ 64 - 1 :=
    (Generator.upTo_le s.wordNanos g).trans (Nat.min_le_right _ _)
  exact Span.ofNanos_of_word hword

theorem fullJitter_nanos :
    (b.fullJitter n g).1.nanos = (g.upTo (min (b.upperBound n).nanos (2 ^ 64 - 1))).1 :=
  randomUpTo_nanos g (b.upperBound n)

/-- The sum of the kept half and what is drawn of the other one does not stop at the longest span. -/
theorem equalJitter_nanos :
    (b.equalJitter n g).1.nanos =
      (b.upperBound n).nanos / 2 + (g.upTo (min ((b.upperBound n).nanos / 2) (2 ^ 64 - 1))).1 := by
  have hpart := randomUpTo_nanos g (b.upperBound n).half
  have hhalf : (b.upperBound n).half.nanos = (b.upperBound n).nanos / 2 := rfl
  have hdrawn := Generator.upTo_le (min ((b.upperBound n).nanos / 2) (2 ^ 64 - 1)) g
  have hlimit := (b.upperBound n).nanos_le
  rw [hhalf] at hpart
  rw [← hpart] at hdrawn ⊢
  refine Span.ofNanos_of_le ?_
  show (b.upperBound n).nanos / 2 + (randomUpTo (b.upperBound n).half g).1.nanos ≤ Span.limit
  omega

end Backoff

namespace Policy

variable {p : Policy} {k : FailureClass} {n : Nat} {draw draw' : Nat → Nat}

/-- The backoff that serves the failures of a class. -/
def backoffFor (p : Policy) : FailureClass → Backoff
  | .overloaded => p.slow
  | _ => p.fast

/-- The delay in nanoseconds after a failure of the class at attempt `n`, computed without any limit, if
`draw m` is the number that is drawn up to `m`. -/
def exactDelay (p : Policy) (k : FailureClass) (n : Nat) (draw : Nat → Nat) : Nat :=
  let u := ((p.backoffFor k).upperBound n).nanos
  match k with
  | .undetermined => draw (min u (2 ^ 64 - 1))
  | .unavailable | .overloaded => u / 2 + draw (min (u / 2) (2 ^ 64 - 1))
  | .sessionConflict | .nonRetryable => 0

/-- The delay that is given is the exact one. -/
theorem delayFor_nanos {a : Attempt} {g : Generator} {d : Span} (h : (p.delayFor a g k).1 = some d) :
    d.nanos = p.exactDelay k a.number fun m => (g.upTo m).1 := by
  cases k with
  | sessionConflict =>
    cases h
    rfl
  | undetermined =>
    unfold delayFor at h
    dsimp only at h
    split at h
    · rw [← Option.some.inj h]
      exact p.fast.fullJitter_nanos a.number g
    · cases h
  | unavailable =>
    rw [← Option.some.inj h]
    exact p.fast.equalJitter_nanos a.number g
  | overloaded =>
    rw [← Option.some.inj h]
    exact p.slow.equalJitter_nanos a.number g
  | nonRetryable => cases h

/-- A delay that is drawn as a whole is not above the bound. -/
theorem exactDelay_undetermined_le (hdraw : ∀ m, draw m ≤ m) :
    p.exactDelay .undetermined n draw ≤ (p.fast.upperBound n).nanos :=
  (hdraw _).trans (Nat.min_le_left _ _)

/-- A delay of which half is drawn lies between half of the bound and twice that half. -/
theorem exactDelay_mem_Icc (hk : k = .unavailable ∨ k = .overloaded) (hdraw : ∀ m, draw m ≤ m) :
    p.exactDelay k n draw ∈ Set.Icc (((p.backoffFor k).upperBound n).nanos / 2)
      (2 * (((p.backoffFor k).upperBound n).nanos / 2)) := by
  have hpart : ∀ half, draw (min half (2 ^ 64 - 1)) ≤ half := fun half =>
    (hdraw _).trans (Nat.min_le_left _ _)
  have hsum : ∀ half, half + draw (min half (2 ^ 64 - 1)) ∈ Set.Icc half (2 * half) := fun half =>
    ⟨Nat.le_add_right _ _, by have := hpart half; omega⟩
  rcases hk with rfl | rfl
  · exact hsum _
  · exact hsum _

/-- While the bound doubles, no delay of which half is drawn is longer than one after the next attempt. -/
theorem exactDelay_le_next (hk : k = .unavailable ∨ k = .overloaded)
    (hdouble : ((p.backoffFor k).upperBound (n + 1)).nanos = 2 * ((p.backoffFor k).upperBound n).nanos)
    (hdraw : ∀ m, draw m ≤ m) (hdraw' : ∀ m, draw' m ≤ m) :
    p.exactDelay k n draw ≤ p.exactDelay k (n + 1) draw' := by
  obtain ⟨-, hmost⟩ := exactDelay_mem_Icc (p := p) (n := n) hk hdraw
  obtain ⟨hleast, -⟩ := exactDelay_mem_Icc (p := p) (n := n + 1) hk hdraw'
  rw [hdouble, Nat.mul_div_cancel_left _ Nat.two_pos] at hleast
  calc p.exactDelay k n draw
      ≤ 2 * (((p.backoffFor k).upperBound n).nanos / 2) := hmost
    _ ≤ ((p.backoffFor k).upperBound n).nanos := Nat.mul_div_le _ 2
    _ ≤ p.exactDelay k (n + 1) draw' := hleast

/-- A failure is followed by another attempt exactly if attempts are left and its class is that of a session
conflict, of an unavailable or an overloaded server, or of an unknown outcome of an operation that may be
repeated.  The delay is the exact one, and so no span that is computed for it stops at the longest one.  It is
nothing for a session conflict; it is not above the bound for an unknown outcome; it lies between half of the
bound and twice that half for an unavailable or overloaded server; and it is never above the cap.  For these
servers, as long as the bound doubles, no delay is longer than one after the next attempt, whatever is drawn
for the two of them. -/
theorem decideWith_exact (p : Policy) (f : Failure) (a : Attempt) (g : Generator) :
    let k := f.failureClass
    let u := ((p.backoffFor k).upperBound a.number).nanos
    ((p.decideWith f a g).1.isSome = true ↔ a.number < p.maxAttempts ∧
      (k = .sessionConflict ∨ k = .unavailable ∨ k = .overloaded ∨
        (k = .undetermined ∧ a.idempotent = true))) ∧
      (∀ d, (p.decideWith f a g).1 = some d →
        d.nanos = p.exactDelay k a.number (fun m => (g.upTo m).1) ∧
        (k = .sessionConflict → d = .zero) ∧
        (k = .undetermined → d.nanos ≤ u) ∧
        (k = .unavailable ∨ k = .overloaded → u / 2 ≤ d.nanos ∧ d.nanos ≤ 2 * (u / 2)) ∧
        d ≤ (p.backoffFor k).cap) ∧
      ∀ draw draw' : Nat → Nat, (∀ m, draw m ≤ m) → (∀ m, draw' m ≤ m) →
        k = .unavailable ∨ k = .overloaded →
        ((p.backoffFor k).upperBound (a.number + 1)).nanos = 2 * u →
        p.exactDelay k a.number draw ≤ p.exactDelay k (a.number + 1) draw' := by
  intro k u
  have hdraw : ∀ m, (g.upTo m).1 ≤ m := fun m => Generator.upTo_le m g
  refine ⟨?_, fun d hd => ?_, fun draw draw' hm hm' hk hdouble => exactDelay_le_next hk hdouble hm hm'⟩
  · unfold decideWith
    split
    · rename_i hlast
      simp [Nat.not_lt.mpr hlast]
    · rename_i hmore
      rw [delayFor_isSome_iff, and_iff_right (Nat.lt_of_not_le hmore)]
      show k ≠ .nonRetryable ∧ (k = .undetermined → a.idempotent = true) ↔ _
      cases k <;> simp
  · have hnanos : d.nanos = p.exactDelay k a.number fun m => (g.upTo m).1 := by
      unfold decideWith at hd
      split at hd
      · cases hd
      · exact delayFor_nanos hd
    have hcap : u ≤ (p.backoffFor k).cap.nanos := (p.backoffFor k).upperBound_le_cap a.number
    have hconflict : k = .sessionConflict → d = .zero := fun hk => Span.ext (by rw [hnanos, hk]; rfl)
    have hwhole : k = .undetermined → d.nanos ≤ u := by
      intro hk
      have hle := exactDelay_undetermined_le (p := p) (n := a.number) hdraw
      rw [hnanos]
      simp only [u, hk]
      exact hle
    have hhalf : k = .unavailable ∨ k = .overloaded → u / 2 ≤ d.nanos ∧ d.nanos ≤ 2 * (u / 2) := by
      intro hk
      rw [hnanos]
      exact exactDelay_mem_Icc hk hdraw
    -- each class draws from a part of its own of the range below the bound, which is below the cap
    refine ⟨hnanos, hconflict, hwhole, hhalf, Span.le_iff.mpr ?_⟩
    cases hk : k with
    | sessionConflict => rw [hconflict hk]; exact Nat.zero_le _
    | undetermined => exact hk ▸ (hwhole hk).trans hcap
    | unavailable => exact hk ▸ (hhalf (Or.inl hk)).2.trans ((Nat.mul_div_le _ 2).trans hcap)
    | overloaded => exact hk ▸ (hhalf (Or.inr hk)).2.trans ((Nat.mul_div_le _ 2).trans hcap)
    | nonRetryable =>
      rw [hnanos, hk]
      exact Nat.zero_le _

/-- A policy with the longest delays there are. -/
def longest : Policy :=
  .ofBackoffs ⟨.ofNanos Span.limit, .ofNanos Span.limit⟩ ⟨.ofNanos Span.limit, .ofNanos Span.limit⟩ 3

/-- Half of the longest bound is kept, which is more than can be drawn.  The default policy doubles its bound
from attempt 1 to attempt 2, so the most that is drawn for the one is no more than the least for the other. -/
theorem decideWith_exact_of_longest :
    (∃ d, (longest.decideWith ⟨none, some .unavailable⟩ ⟨1, false⟩ ⟨7⟩).1 = some d ∧
      Span.limit / 2 ≤ d.nanos ∧ d.nanos ≤ 2 * (Span.limit / 2) ∧ d ≤ longest.fast.cap) ∧
      2 ^ 64 - 1 < Span.limit / 2 ∧
      (ofConfig {}).exactDelay .unavailable 1 id ≤ (ofConfig {}).exactDelay .unavailable 2 (fun _ => 0) := by
  refine ⟨?_, by decide, ?_⟩
  · obtain ⟨hretry, hdelay, -⟩ := decideWith_exact longest ⟨none, some .unavailable⟩ ⟨1, false⟩ ⟨7⟩
    obtain ⟨d, hd⟩ := Option.isSome_iff_exists.mp (hretry.mpr ⟨by decide, Or.inr (Or.inl rfl)⟩)
    obtain ⟨-, -, -, hhalf, hcap⟩ := hdelay d hd
    have hbound : (longest.fast.upperBound 1).nanos = Span.limit := by decide
    obtain ⟨hleast, hmost⟩ := hhalf (Or.inl rfl)
    exact ⟨d, hd, hbound ▸ hleast, hbound ▸ hmost, hcap⟩
  · exact (decideWith_exact (ofConfig {}) ⟨none, some .unavailable⟩ ⟨1, false⟩ ⟨7⟩).2.2 id (fun _ => 0)
      (fun _ => le_rfl) Nat.zero_le (Or.inl rfl) (by decide)

end Policy

end PooledSessions
