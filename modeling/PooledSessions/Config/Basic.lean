/-!
# Configuration

The settings of a program that uses the pool: one group for the pool itself and one for the
repetition of failed calls.
-/

namespace PooledSessions

/-- How failed calls are repeated. -/
structure RetryConfig where
  /-- How often an operation is tried at most. -/
  maxAttempts : UInt32 := 10
  /-- First delay after an unavailable server or an unknown outcome, in milliseconds. -/
  fastBaseMs : UInt64 := 5
  /-- Longest such delay. -/
  fastCapMs : UInt64 := 500
  /-- First delay after an overload, in milliseconds. -/
  slowBaseMs : UInt64 := 50
  /-- Longest such delay. -/
  slowCapMs : UInt64 := 5000
  deriving DecidableEq, Inhabited

/-- How many sessions the pool keeps and how patient it is with the server. -/
structure PoolConfig where
  /-- How many sessions there are at most. -/
  sizeLimit : UInt64 := 50
  /-- How often the creation of a session is tried at most. -/
  creationMaxAttempts : UInt32 := 3
  /-- How long one attempt to create a session may take, in milliseconds. -/
  createTimeoutMs : UInt64 := 10000
  /-- How long the deletion of a session may take, in milliseconds. -/
  deleteTimeoutMs : UInt64 := 5000
  deriving DecidableEq, Inhabited

/-- All settings. -/
structure Config where
  /-- The settings of the pool. -/
  pool : PoolConfig := {}
  /-- The settings of repetition. -/
  retry : RetryConfig := {}
  deriving DecidableEq, Inhabited

namespace Config

/-- The settings written with their names. -/
def describe (c : Config) : String :=
  "DriverConfig \x7b pool: PoolConfig \x7b size_limit: " ++ toString c.pool.sizeLimit.toNat
    ++ ", creation_max_attempts: " ++ toString c.pool.creationMaxAttempts.toNat
    ++ ", create_timeout_ms: " ++ toString c.pool.createTimeoutMs.toNat
    ++ ", delete_timeout_ms: " ++ toString c.pool.deleteTimeoutMs.toNat
    ++ " \x7d, retry: RetryConfig \x7b max_attempts: " ++ toString c.retry.maxAttempts.toNat
    ++ ", fast_base_ms: " ++ toString c.retry.fastBaseMs.toNat
    ++ ", fast_cap_ms: " ++ toString c.retry.fastCapMs.toNat
    ++ ", slow_base_ms: " ++ toString c.retry.slowBaseMs.toNat
    ++ ", slow_cap_ms: " ++ toString c.retry.slowCapMs.toNat ++ " \x7d \x7d"

end Config

end PooledSessions
