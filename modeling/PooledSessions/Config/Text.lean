import PooledSessions.Config.Basic
import PooledSessions.Toml.Document

/-!
# Settings as text

Settings are kept in the format TOML, one table for each group.  Writing states every setting; reading
takes the default for every setting that is not given and passes over what it does not know.  Numbers
are read and written with 64 bits and a sign, so a larger one cannot be written.
-/

namespace PooledSessions

open Toml (Item Entries)

/-! ## Reading -/

namespace Config

/-- A number below a bound. -/
def natBelow? (bound : Nat) : Item → Option Nat
  | .integer n => if 0 ≤ n ∧ n < bound then some n.toNat else none
  | _ => none

/-- A number of 32 bits. -/
def word32? (item : Item) : Option UInt32 := (natBelow? UInt32.size item).map UInt32.ofNat

/-- A number of 64 bits. -/
def word64? (item : Item) : Option UInt64 := (natBelow? UInt64.size item).map UInt64.ofNat

/-- A setting that may be missing. -/
def setting {α : Type} (read : Item → Option α) (default : α) : Option Item → Option α
  | none => some default
  | some item => read item

/-- The settings of a group by their names.  A group may also be an array of its settings in order,
and a moment has none. -/
def group? (names : List String) : Item → Option (String → Option Item)
  | .table _ es => some fun name => es.lookup name
  | .array items => some fun name => (names.zip items).lookup name
  | .tables ts => some fun name => (names.zip (ts.map (.table .header ·))).lookup name
  | .moment => some fun _ => none
  | _ => none

/-- The names of the pool's settings. -/
def poolNames : List String :=
  ["size_limit", "creation_max_attempts", "create_timeout_ms", "delete_timeout_ms"]

/-- The names of the settings of repetition. -/
def retryNames : List String :=
  ["max_attempts", "fast_base_ms", "fast_cap_ms", "slow_base_ms", "slow_cap_ms"]

/-- The pool's settings. -/
def pool? (item : Item) : Option PoolConfig := do
  let named ← group? poolNames item
  let d : PoolConfig := {}
  return {
    sizeLimit := ← setting word64? d.sizeLimit (named "size_limit")
    creationMaxAttempts := ← setting word32? d.creationMaxAttempts (named "creation_max_attempts")
    createTimeoutMs := ← setting word64? d.createTimeoutMs (named "create_timeout_ms")
    deleteTimeoutMs := ← setting word64? d.deleteTimeoutMs (named "delete_timeout_ms") }

/-- The settings of repetition. -/
def retry? (item : Item) : Option RetryConfig := do
  let named ← group? retryNames item
  let d : RetryConfig := {}
  return {
    maxAttempts := ← setting word32? d.maxAttempts (named "max_attempts")
    fastBaseMs := ← setting word64? d.fastBaseMs (named "fast_base_ms")
    fastCapMs := ← setting word64? d.fastCapMs (named "fast_cap_ms")
    slowBaseMs := ← setting word64? d.slowBaseMs (named "slow_base_ms")
    slowCapMs := ← setting word64? d.slowCapMs (named "slow_cap_ms") }

/-- The settings that a tree of tables gives. -/
def ofEntries? (es : Entries) : Option Config := do
  return ⟨← setting pool? {} (es.lookup "pool"), ← setting retry? {} (es.lookup "retry")⟩

/-- The settings that a text gives. -/
def ofText? (s : String) : Option Config := (Toml.Document.ofText? s).bind ofEntries?

/-! ## Writing -/

/-- The pool's settings with their names, in order. -/
def poolFields (c : PoolConfig) : List (String × Nat) :=
  [("size_limit", c.sizeLimit.toNat), ("creation_max_attempts", c.creationMaxAttempts.toNat),
    ("create_timeout_ms", c.createTimeoutMs.toNat), ("delete_timeout_ms", c.deleteTimeoutMs.toNat)]

/-- The settings of repetition with their names, in order. -/
def retryFields (c : RetryConfig) : List (String × Nat) :=
  [("max_attempts", c.maxAttempts.toNat), ("fast_base_ms", c.fastBaseMs.toNat),
    ("fast_cap_ms", c.fastCapMs.toNat), ("slow_base_ms", c.slowBaseMs.toNat),
    ("slow_cap_ms", c.slowCapMs.toNat)]

/-- The table of a group: its header, then a line for each setting. -/
def groupText (name : String) (fields : List (String × Nat)) : String :=
  "[" ++ name ++ "]\n" ++ String.join (fields.map fun (k, n) => k ++ " = " ++ toString n ++ "\n")

/-- Whether every number can be written. -/
def isWritable (c : Config) : Bool :=
  (poolFields c.pool ++ retryFields c.retry).all fun (_, n) => n ≤ Int64.maxValue.toInt

/-- The text of the settings, if every number can be written. -/
def toText? (c : Config) : Option String :=
  if c.isWritable then
    some (groupText "pool" (poolFields c.pool) ++ "\n" ++ groupText "retry" (retryFields c.retry))
  else none

/-- What is said of settings that cannot be written. -/
def unwritable : String := "out-of-range value for u64 type"

end Config

end PooledSessions
