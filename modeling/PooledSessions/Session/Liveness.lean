/-!
# Liveness flags

Every registered session has a flag that tells whether the server still keeps it.  A flag starts alive
and can only go dead; of all that mark it dead, one sees the transition.  Flags are numbered, and
everybody who knows a flag's number looks at the same flag.
-/

namespace PooledSessions

/-- The number of a liveness flag. -/
abbrev FlagNo := Nat

/-- All liveness flags: those not listed are alive. -/
structure Flags where
  /-- The flags that have gone dead. -/
  dead : List FlagNo
  deriving DecidableEq, Inhabited

namespace Flags

/-- All flags alive. -/
def fresh : Flags := ⟨[]⟩

/-- Whether a flag is alive. -/
def isAlive (fs : Flags) (n : FlagNo) : Bool := !fs.dead.contains n

/-- Marks a flag dead, and answers whether it was alive until now. -/
def markDead (fs : Flags) (n : FlagNo) : Bool × Flags :=
  if fs.isAlive n then (true, ⟨n :: fs.dead⟩) else (false, fs)

@[simp] theorem isAlive_fresh (n : FlagNo) : fresh.isAlive n = true := rfl

@[simp] theorem markDead_fst (fs : Flags) (n : FlagNo) : (fs.markDead n).1 = fs.isAlive n := by
  unfold markDead
  split <;> simp_all

/-- Marking a flag leaves it dead and changes no other flag. -/
theorem isAlive_markDead (fs : Flags) (n k : FlagNo) :
    (fs.markDead n).2.isAlive k = (fs.isAlive k && k != n) := by
  unfold markDead
  split
  · rename_i h
    simp only [isAlive, List.contains_cons]
    cases hk : (k == n) <;> simp_all [bne]
  · rename_i h
    cases hk : (k == n)
    · simp [bne, hk]
    · have : k = n := by simpa using hk
      subst this
      simp_all

end Flags

end PooledSessions
