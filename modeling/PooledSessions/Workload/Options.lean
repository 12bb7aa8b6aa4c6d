import PooledSessions.Number.Binary64

/-!
# What a workload is

A workload is described by how many workers there are, what each of them does, and how often the
simulated server lets an operation fail.
-/

namespace PooledSessions

/-- How a workload is run. -/
structure WorkloadOptions where
  /-- How many workers there are. -/
  workers : Nat := 16
  /-- How many operations each of them executes. -/
  operations : Nat := 100
  /-- The part of the operations that fail. -/
  failureRate : Binary64 := .ofDecimal false 1 (-1)
  /-- How many sessions there are at most, if the settings do not decide it. -/
  poolSize : Option UInt64 := none
  /-- Seeds the failures. -/
  seed : Option UInt64 := none
  /-- Whether operations are safe to repeat. -/
  idempotent : Bool := true
  deriving DecidableEq

end PooledSessions
