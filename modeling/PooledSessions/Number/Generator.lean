/-!
# A pseudo-random generator

The generator steps a 64-bit state by a constant and mixes it by one full product with itself.
Bounded numbers are drawn without bias: the high half of a product is kept, and a draw whose low
half falls below the bias threshold is repeated.
-/

namespace PooledSessions

/-- A pseudo-random generator, which is its 64-bit state. -/
structure Generator where
  /-- The state from which the next number is drawn. -/
  state : UInt64
  deriving DecidableEq, Inhabited

namespace Generator

/-- The generator started from a seed. -/
def ofSeed (seed : UInt64) : Generator := ⟨seed⟩

/-- The next 64-bit number and the generator after it. -/
def next (g : Generator) : UInt64 × Generator :=
  let s := g.state + 0x2d358dccaa6c78a5
  let t := s.toNat * (s ^^^ 0x8bb84b93962eacc9).toNat
  (UInt64.ofNat t ^^^ UInt64.ofNat (t >>> 64), ⟨s⟩)

/-- A fresh generator seeded from this one. -/
def spawn (g : Generator) : Generator × Generator :=
  let (seed, rest) := g.next
  (ofSeed seed, rest)

/-- How often a rejected draw is repeated at most.  Each repetition is needed with probability
below one half. -/
def redraws : Nat := 4096

/-- Draws words of `bits` bits until the low half of the product with `m` reaches the threshold,
and answers the high half. -/
def belowFrom (bits m threshold : Nat) : Nat → Generator → Nat × Generator
  | 0, g => (0, g)
  | fuel + 1, g =>
    let (r, g) := g.next
    let p := (r.toNat % (1 <<< bits)) * m
    if p % (1 <<< bits) < threshold then belowFrom bits m threshold fuel g else (p >>> bits, g)

/-- A number below `m`, each with the same chance, from words of `bits` bits. -/
def below (bits m : Nat) (g : Generator) : Nat × Generator :=
  belowFrom bits m (((1 <<< bits) - m) % m) redraws g

/-- A number from 0 to `n`, where `n` is a 64-bit number. -/
def upTo (n : Nat) (g : Generator) : Nat × Generator :=
  if n = UInt64.size - 1 then
    let (r, g) := g.next
    (r.toNat, g)
  else
    below 64 (n + 1) g

/-- No draw exceeds its bound. -/
theorem belowFrom_lt {bits m threshold : Nat} (hm : 0 < m) (fuel : Nat) (g : Generator) :
    (belowFrom bits m threshold fuel g).1 < m := by
  induction fuel generalizing g with
  | zero => exact hm
  | succ fuel ih =>
    simp only [belowFrom]
    split
    · exact ih _
    · rw [Nat.one_shiftLeft, Nat.shiftRight_eq_div_pow]
      exact Nat.div_lt_of_lt_mul
        (Nat.mul_lt_mul_of_lt_of_le (Nat.mod_lt _ (Nat.two_pow_pos bits)) (Nat.le_refl m) hm)

/-- A number drawn up to `n` is at most `n`. -/
theorem upTo_le (n : Nat) (g : Generator) : (upTo n g).1 ≤ n := by
  unfold upTo
  split
  · rename_i h
    have := g.next.1.toNat_lt_size
    simp only [h]
    omega
  · exact Nat.le_of_lt_succ (belowFrom_lt (Nat.succ_pos n) _ _)

end Generator

end PooledSessions
