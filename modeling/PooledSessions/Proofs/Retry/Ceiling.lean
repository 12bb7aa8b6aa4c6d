import Mathlib
import PooledSessions.Retry.Backoff
/-!
# The ceiling of a backoff

The bound on a delay is the base, doubled once for each attempt until it reaches the cap.  Spans are limited,
so the doubling is done with products that stop at the longest span, and the exponent stops at the ceiling,
for which the exponents are searched once from zero on (`Backoff.turn?`).

Neither shows in the bound.  In nanoseconds without a limit, the bound is the least of the cap and the base
doubled as often as there were attempts, 31 times at most (`Backoff.upperBound_exact`).  The cap is itself a
span, so a product that stops at the longest span has reached it (`Backoff.reaches_iff`); and behind the
ceiling the cap is reached, or the base is empty, or the exponents have ended.
-/

namespace PooledSessions

/-! ## Products that stop at the limit -/

theorem Span.isZero_iff (s : Span) : s.isZero = true ↔ s.nanos = 0 := beq_iff_eq

theorem Span.scale_shiftLeft_nanos (s : Span) (e : Nat) :
    (s.scale (1 <<< e)).nanos = min (s.nanos * 2 ^ e) limit := by
  rw [scale, ofNanos_nanos, Nat.one_shiftLeft]

namespace Backoff

variable {b : Backoff}

/-- A product is compared with the cap as if it did not stop at the limit. -/
theorem reaches_iff (b : Backoff) (e : Nat) : b.reaches e = true ↔ b.cap.nanos ≤ b.base.nanos * 2 ^ e := by
  rw [reaches, decide_eq_true_iff, Span.le_iff, Span.scale_shiftLeft_nanos, Nat.le_min]
  exact and_iff_left b.cap.nanos_le

theorem reaches_eq_false_iff (b : Backoff) (e : Nat) :
    b.reaches e = false ↔ b.base.nanos * 2 ^ e < b.cap.nanos := by
  rw [← Bool.not_eq_true, reaches_iff, Nat.not_le]

/-- The bound in nanoseconds, with the exponent that is used for the attempt. -/
theorem upperBound_nanos (b : Backoff) (n : Nat) :
    (b.upperBound n).nanos = min b.cap.nanos (b.base.nanos * 2 ^ min n b.ceiling) := by
  rw [upperBound, Span.shorter_nanos, Span.scale_shiftLeft_nanos, Nat.min_assoc,
    Nat.min_eq_right b.cap.nanos_le, Nat.min_comm]

/-- A base that is doubled more often is not shorter. -/
theorem doubled_mono (b : Backoff) {m n : Nat} (h : m ≤ n) : b.base.nanos * 2 ^ m ≤ b.base.nanos * 2 ^ n :=
  Nat.mul_le_mul_left _ (Nat.pow_le_pow_right Nat.two_pos h)

/-! ## The search for the ceiling -/

theorem ceiling_of_zero (h : b.base.nanos = 0) : b.ceiling = 0 := by
  rw [ceiling, if_pos (b.base.isZero_iff.mpr h)]

/-- The search ends at the first exponent at which the cap is reached, or behind all of those that are
tried. -/
theorem ceiling_cases (h : b.base.nanos ≠ 0) :
    (b.ceiling < maxExponent ∧ b.reaches b.ceiling = true ∧ ∀ e < b.ceiling, b.reaches e = false) ∨
      (b.ceiling = maxExponent ∧ ∀ e < maxExponent, b.reaches e = false) := by
  have hsearch : b.ceiling = ((List.range maxExponent).find? b.reaches).getD maxExponent := by
    rw [ceiling, if_neg fun hzero => h (b.base.isZero_iff.mp hzero)]
  cases hfound : (List.range maxExponent).find? b.reaches with
  | none =>
    rw [hfound] at hsearch
    refine Or.inr ⟨hsearch, fun e he => ?_⟩
    simpa using List.find?_eq_none.mp hfound e (List.mem_range.mpr he)
  | some k =>
    rw [hfound] at hsearch
    obtain rfl : b.ceiling = k := hsearch
    obtain ⟨hreaches, hin, hbefore⟩ := List.find?_range_eq_some.mp hfound
    exact Or.inl ⟨List.mem_range.mp hin, hreaches, fun e he => by simpa using hbefore e he⟩

theorem ceiling_le (b : Backoff) : b.ceiling ≤ maxExponent := by
  by_cases h : b.base.nanos = 0
  · rw [ceiling_of_zero h]
    exact Nat.zero_le _
  · rcases ceiling_cases h with ⟨hlt, -, -⟩ | ⟨heq, -⟩
    · exact hlt.le
    · exact heq.le

/-- One turn of the search: it goes on from an exponent to the next one, unless the exponents end or the
cap is reached. -/
def turn? (b : Backoff) (e : Nat) : Option Nat :=
  if e < maxExponent ∧ b.reaches e = false then some (e + 1) else none

/-- The search goes from zero on through all exponents below the ceiling, and ends there. -/
theorem turn?_of_le_ceiling (h : b.base.nanos ≠ 0) :
    (∀ e < b.ceiling, b.turn? e = some (e + 1)) ∧ b.turn? b.ceiling = none := by
  have hle := b.ceiling_le
  rcases ceiling_cases h with ⟨-, hreaches, hbefore⟩ | ⟨heq, hbefore⟩
  · exact ⟨fun e he => if_pos ⟨he.trans_le hle, hbefore e he⟩, if_neg fun hgoes => by
      rw [hreaches] at hgoes
      cases hgoes.2⟩
  · exact ⟨fun e he => if_pos ⟨he.trans_le hle, hbefore e (he.trans_le hle)⟩, if_neg fun hgoes =>
      absurd hgoes.1 (Nat.not_lt.mpr heq.ge)⟩

/-- The ceiling is the least exponent at which the cap is reached, if there is one. -/
theorem isLeast_ceiling (h : b.base.nanos ≠ 0) :
    IsLeast {e | e ≤ 31 ∧ (b.cap.nanos ≤ b.base.nanos * 2 ^ e ∨ e = 31)} b.ceiling := by
  have hleast : ∀ e < b.ceiling, b.base.nanos * 2 ^ e < b.cap.nanos := by
    intro e he
    rw [← reaches_eq_false_iff]
    rcases ceiling_cases h with ⟨-, -, hbefore⟩ | ⟨heq, hbefore⟩
    · exact hbefore e he
    · exact hbefore e (heq ▸ he)
  refine ⟨⟨b.ceiling_le, ?_⟩, fun e ⟨_, hreached⟩ => ?_⟩
  · rcases ceiling_cases h with ⟨-, hreaches, -⟩ | ⟨heq, -⟩
    · exact Or.inl ((b.reaches_iff _).mp hreaches)
    · exact Or.inr heq
  · by_contra hlt
    rw [Nat.not_le] at hlt
    rcases hreached with hreached | rfl
    · exact absurd hreached (Nat.not_le.mpr (hleast e hlt))
    · exact absurd b.ceiling_le (Nat.not_le.mpr hlt)

/-! ## The bound -/

/-- Behind the ceiling the base is doubled no further, which does not show. -/
theorem min_doubled_ceiling (b : Backoff) (n : Nat) :
    min b.cap.nanos (b.base.nanos * 2 ^ min n b.ceiling) =
      min b.cap.nanos (b.base.nanos * 2 ^ min n 31) := by
  by_cases hbase : b.base.nanos = 0
  · rw [hbase, Nat.zero_mul, Nat.zero_mul]
  · obtain ⟨⟨hle, hreached⟩, -⟩ := isLeast_ceiling hbase
    rcases Nat.le_total n b.ceiling with hn | hn
    · rw [Nat.min_eq_left hn, Nat.min_eq_left (hn.trans hle)]
    · rw [Nat.min_eq_right hn]
      rcases hreached with hreached | hlast
      · have hmore : b.ceiling ≤ min n 31 := Nat.le_min.mpr ⟨hn, hle⟩
        rw [Nat.min_eq_left hreached, Nat.min_eq_left (hreached.trans (b.doubled_mono hmore))]
      · rw [hlast] at hn ⊢
        rw [Nat.min_eq_right hn]

/-- The bound on the delay after attempt `n` is the least of the cap and the base doubled `n` times, or 31
times if that is less, in nanoseconds that stop at no limit.  The restriction to 31 makes no difference up to
attempt 31, and none at all where 31 doublings reach the cap or the base is empty.  The ceiling is the least
exponent up to 31 at which the cap is reached, 31 if there is none, and zero for an empty base, for which
nothing is searched; the search goes to it from zero in single turns and ends there.  No exponent above 31
is used.  The bound does not go down from one attempt to a later one, and from the ceiling on it stays as it
is. -/
theorem upperBound_exact (b : Backoff) :
    (∀ n, (b.upperBound n).nanos = min b.cap.nanos (b.base.nanos * 2 ^ min n 31)) ∧
      (∀ n, n ≤ 31 ∨ b.cap.nanos ≤ b.base.nanos * 2 ^ 31 ∨ b.base.nanos = 0 →
        (b.upperBound n).nanos = min b.cap.nanos (b.base.nanos * 2 ^ n)) ∧
      (b.base.nanos = 0 → b.ceiling = 0) ∧
      (b.base.nanos ≠ 0 →
        IsLeast {e | e ≤ 31 ∧ (b.cap.nanos ≤ b.base.nanos * 2 ^ e ∨ e = 31)} b.ceiling ∧
          (∀ e < b.ceiling, b.turn? e = some (e + 1)) ∧ b.turn? b.ceiling = none) ∧
      (∀ n, min n b.ceiling ≤ 31) ∧
      (∀ m n, m ≤ n → b.upperBound m ≤ b.upperBound n) ∧
      ∀ n, b.ceiling ≤ n → b.upperBound n = b.upperBound b.ceiling := by
  have hexact : ∀ n, (b.upperBound n).nanos = min b.cap.nanos (b.base.nanos * 2 ^ min n 31) :=
    fun n => (b.upperBound_nanos n).trans (b.min_doubled_ceiling n)
  refine ⟨hexact, ?_, ceiling_of_zero, fun h => ⟨isLeast_ceiling h, turn?_of_le_ceiling h⟩, ?_, ?_, ?_⟩
  · rintro n (hn | hreached | hzero)
    · rw [hexact, Nat.min_eq_left hn]
    · rw [hexact]
      rcases Nat.le_total n 31 with hn | hn
      · rw [Nat.min_eq_left hn]
      · rw [Nat.min_eq_right hn, Nat.min_eq_left hreached,
          Nat.min_eq_left (hreached.trans (b.doubled_mono hn))]
    · rw [hexact, hzero, Nat.zero_mul, Nat.zero_mul]
  · exact fun n => (Nat.min_le_right n b.ceiling).trans b.ceiling_le
  · intro m n hmn
    rw [Span.le_iff, hexact, hexact]
    have hexponent : min m 31 ≤ min n 31 := Nat.le_min.mpr
      ⟨(Nat.min_le_left m 31).trans hmn, Nat.min_le_right m 31⟩
    exact min_le_min_left _ (b.doubled_mono hexponent)
  · intro n hn
    rw [upperBound, upperBound, Nat.min_eq_right hn, Nat.min_self]

/-- A backoff from one nanosecond to one minute, for which 31 doublings are not enough. -/
def minute : Backoff := ⟨.ofNanos 1, .ofMillis 60000⟩

/-- The bound of such a backoff stops short of its cap. -/
theorem upperBound_exact_of_minute :
    minute.base.nanos ≠ 0 ∧ minute.cap.nanos = 60000000000 ∧ minute.ceiling = 31 ∧
      minute.turn? 30 = some 31 ∧ minute.turn? 31 = none ∧
      (minute.upperBound 31).nanos = 2147483648 ∧ minute.upperBound 4294967295 = minute.upperBound 31 := by
  have hbase : minute.base.nanos ≠ 0 := by decide
  have hlast : minute.ceiling = 31 := by decide
  obtain ⟨-, hexact, -, hsearch, -, -, hconstant⟩ := upperBound_exact minute
  obtain ⟨-, hturns, hends⟩ := hsearch hbase
  rw [hlast] at hturns hends hconstant
  exact ⟨hbase, by decide, hlast, hturns 30 (by decide), hends,
    (hexact 31 (Or.inl le_rfl)).trans (by decide), hconstant 4294967295 (by decide)⟩

end Backoff

end PooledSessions
