import PooledSessions.Config.Text

/-!
# Settings one by one

The nine settings are read in the same way: each has a name in one of two tables, takes the integers from
zero up to a bound, and has a default for when it is not given.  A tree of tables therefore gives a
configuration exactly if every setting can be read from what the tree says of it, and the configuration
is then known setting by setting: what is given replaces the default, and the rest stays.
-/

namespace PooledSessions

open Toml (Item Entries)

/-- One of the settings. -/
inductive Setting
  /-- How many sessions there are at most. -/
  | sizeLimit
  /-- How often the creation of a session is tried at most. -/
  | creationMaxAttempts
  /-- How long one attempt to create a session may take. -/
  | createTimeoutMs
  /-- How long the deletion of a session may take. -/
  | deleteTimeoutMs
  /-- How often an operation is tried at most. -/
  | maxAttempts
  /-- First delay after an unavailable server or an unknown outcome. -/
  | fastBaseMs
  /-- Longest such delay. -/
  | fastCapMs
  /-- First delay after an overload. -/
  | slowBaseMs
  /-- Longest such delay. -/
  | slowCapMs
  deriving DecidableEq

namespace Setting

/-- Whether a setting is one of the pool's. -/
def isOfPool : Setting → Bool
  | sizeLimit | creationMaxAttempts | createTimeoutMs | deleteTimeoutMs => true
  | maxAttempts | fastBaseMs | fastCapMs | slowBaseMs | slowCapMs => false

/-- The table in which a setting stands. -/
def table (s : Setting) : String := if s.isOfPool then "pool" else "retry"

/-- The name of a setting in its table. -/
def name : Setting → String
  | sizeLimit => "size_limit"
  | creationMaxAttempts => "creation_max_attempts"
  | createTimeoutMs => "create_timeout_ms"
  | deleteTimeoutMs => "delete_timeout_ms"
  | maxAttempts => "max_attempts"
  | fastBaseMs => "fast_base_ms"
  | fastCapMs => "fast_cap_ms"
  | slowBaseMs => "slow_base_ms"
  | slowCapMs => "slow_cap_ms"

/-- The numbers that a setting takes are below this one. -/
def bound : Setting → Nat
  | creationMaxAttempts | maxAttempts => UInt32.size
  | _ => UInt64.size

/-- Whether an item can stand for a setting. -/
def Takes (s : Setting) (item : Item) : Prop := ∃ n : Nat, n < s.bound ∧ item = .integer n

end Setting

namespace Config

/-! ## The values of the settings -/

/-- The value of a setting. -/
def value (c : Config) : Setting → Nat
  | .sizeLimit => c.pool.sizeLimit.toNat
  | .creationMaxAttempts => c.pool.creationMaxAttempts.toNat
  | .createTimeoutMs => c.pool.createTimeoutMs.toNat
  | .deleteTimeoutMs => c.pool.deleteTimeoutMs.toNat
  | .maxAttempts => c.retry.maxAttempts.toNat
  | .fastBaseMs => c.retry.fastBaseMs.toNat
  | .fastCapMs => c.retry.fastCapMs.toNat
  | .slowBaseMs => c.retry.slowBaseMs.toNat
  | .slowCapMs => c.retry.slowCapMs.toNat

theorem value_lt_bound (c : Config) (s : Setting) : c.value s < s.bound := by
  cases s with
  | creationMaxAttempts => exact c.pool.creationMaxAttempts.toNat_lt
  | maxAttempts => exact c.retry.maxAttempts.toNat_lt
  | _ => exact UInt64.toNat_lt _

/-- Configurations with the same values are the same. -/
theorem ext_value {c c' : Config} (h : ∀ s, c.value s = c'.value s) : c = c' := by
  obtain ⟨⟨_, _, _, _⟩, ⟨_, _, _, _, _⟩⟩ := c
  obtain ⟨⟨_, _, _, _⟩, ⟨_, _, _, _, _⟩⟩ := c'
  have hsizeLimit := UInt64.toNat_inj.mp (h .sizeLimit)
  have hcreationMaxAttempts := UInt32.toNat_inj.mp (h .creationMaxAttempts)
  have hcreateTimeoutMs := UInt64.toNat_inj.mp (h .createTimeoutMs)
  have hdeleteTimeoutMs := UInt64.toNat_inj.mp (h .deleteTimeoutMs)
  have hmaxAttempts := UInt32.toNat_inj.mp (h .maxAttempts)
  have hfastBaseMs := UInt64.toNat_inj.mp (h .fastBaseMs)
  have hfastCapMs := UInt64.toNat_inj.mp (h .fastCapMs)
  have hslowBaseMs := UInt64.toNat_inj.mp (h .slowBaseMs)
  have hslowCapMs := UInt64.toNat_inj.mp (h .slowCapMs)
  simp_all

/-- The configuration with these values. -/
def ofValues (w : Setting → Nat) : Config where
  pool := {
    sizeLimit := .ofNat (w .sizeLimit)
    creationMaxAttempts := .ofNat (w .creationMaxAttempts)
    createTimeoutMs := .ofNat (w .createTimeoutMs)
    deleteTimeoutMs := .ofNat (w .deleteTimeoutMs) }
  retry := {
    maxAttempts := .ofNat (w .maxAttempts)
    fastBaseMs := .ofNat (w .fastBaseMs)
    fastCapMs := .ofNat (w .fastCapMs)
    slowBaseMs := .ofNat (w .slowBaseMs)
    slowCapMs := .ofNat (w .slowCapMs) }

theorem value_ofValues {w : Setting → Nat} (h : ∀ s, w s < s.bound) (s : Setting) :
    (ofValues w).value s = w s := by
  cases s with
  | creationMaxAttempts => exact UInt32.toNat_ofNat_of_lt' (h .creationMaxAttempts)
  | maxAttempts => exact UInt32.toNat_ofNat_of_lt' (h .maxAttempts)
  | sizeLimit => exact UInt64.toNat_ofNat_of_lt' (h .sizeLimit)
  | createTimeoutMs => exact UInt64.toNat_ofNat_of_lt' (h .createTimeoutMs)
  | deleteTimeoutMs => exact UInt64.toNat_ofNat_of_lt' (h .deleteTimeoutMs)
  | fastBaseMs => exact UInt64.toNat_ofNat_of_lt' (h .fastBaseMs)
  | fastCapMs => exact UInt64.toNat_ofNat_of_lt' (h .fastCapMs)
  | slowBaseMs => exact UInt64.toNat_ofNat_of_lt' (h .slowBaseMs)
  | slowCapMs => exact UInt64.toNat_ofNat_of_lt' (h .slowCapMs)

/-- The default configuration with some values replaced. -/
def overlay (v : Setting → Option Nat) : Config :=
  ofValues fun s => (v s).getD (value {} s)

/-- Values that fit stand in the configuration, and every other one is the default. -/
theorem value_overlay {v : Setting → Option Nat} (h : ∀ s n, v s = some n → n < s.bound)
    (s : Setting) : (overlay v).value s = (v s).getD (value {} s) := by
  apply value_ofValues
  intro s
  cases hgiven : v s with
  | none => exact value_lt_bound {} s
  | some n => exact h s n hgiven

/-! ## Reading one setting -/

theorem natBelow?_eq_some_iff {bound n : Nat} {item : Item} :
    natBelow? bound item = some n ↔ n < bound ∧ item = .integer n := by
  cases item with
  | integer m =>
    simp only [natBelow?, Item.integer.injEq]
    constructor
    · intro h
      split at h
      · cases h
        omega
      · cases h
    · rintro ⟨hsmall, rfl⟩
      simp [hsmall]
  | _ => simp [natBelow?]

/-- The value that is read for a setting from what is said of it. -/
def read? (s : Setting) : Option Item → Option Nat := setting (natBelow? s.bound) (value {} s)

theorem setting_word64?_eq_some_iff {d w : UInt64} {x : Option Item} :
    setting word64? d x = some w ↔ setting (natBelow? UInt64.size) d.toNat x = some w.toNat := by
  cases x with
  | none => simp [setting, UInt64.toNat_inj]
  | some item =>
    simp only [setting, word64?, Option.map_eq_some_iff]
    constructor
    · rintro ⟨n, hfound, rfl⟩
      rw [hfound, UInt64.toNat_ofNat_of_lt' (natBelow?_eq_some_iff.mp hfound).1]
    · intro hfound
      exact ⟨_, hfound, UInt64.ofNat_toNat⟩

theorem setting_word32?_eq_some_iff {d w : UInt32} {x : Option Item} :
    setting word32? d x = some w ↔ setting (natBelow? UInt32.size) d.toNat x = some w.toNat := by
  cases x with
  | none => simp [setting, UInt32.toNat_inj]
  | some item =>
    simp only [setting, word32?, Option.map_eq_some_iff]
    constructor
    · rintro ⟨n, hfound, rfl⟩
      rw [hfound, UInt32.toNat_ofNat_of_lt' (natBelow?_eq_some_iff.mp hfound).1]
    · intro hfound
      exact ⟨_, hfound, UInt32.ofNat_toNat⟩

/-! ## Reading a tree -/

/-- What a group says under its names; a group that is missing says nothing. -/
def said? (names : List String) : Option Item → Option (String → Option Item)
  | none => some fun _ => none
  | some item => group? names item

/-- What a tree says of every setting, if its groups can be read. -/
def found? (es : Entries) : Option (Setting → Option Item) := do
  let pool ← said? poolNames (es.lookup "pool")
  let retry ← said? retryNames (es.lookup "retry")
  return fun s => if s.isOfPool then pool s.name else retry s.name

theorem setting_pool?_eq_some_iff {x : Option Item} {p : PoolConfig} :
    setting pool? {} x = some p ↔
      ∃ named, said? poolNames x = some named ∧
        ∀ s : Setting, s.isOfPool → read? s (named s.name) = some (value ⟨p, {}⟩ s) := by
  have hfields (named : String → Option Item) :
      (∀ s : Setting, s.isOfPool → read? s (named s.name) = some (value ⟨p, {}⟩ s)) ↔
        setting word64? 50 (named "size_limit") = some p.sizeLimit ∧
        setting word32? 3 (named "creation_max_attempts") = some p.creationMaxAttempts ∧
        setting word64? 10000 (named "create_timeout_ms") = some p.createTimeoutMs ∧
        setting word64? 5000 (named "delete_timeout_ms") = some p.deleteTimeoutMs := by
    simp only [setting_word64?_eq_some_iff, setting_word32?_eq_some_iff]
    constructor
    · intro h
      exact ⟨h .sizeLimit rfl, h .creationMaxAttempts rfl, h .createTimeoutMs rfl,
        h .deleteTimeoutMs rfl⟩
    · rintro ⟨h1, h2, h3, h4⟩ s hown
      cases s with
      | sizeLimit => exact h1
      | creationMaxAttempts => exact h2
      | createTimeoutMs => exact h3
      | deleteTimeoutMs => exact h4
      | _ => cases hown
  -- A missing group is read like one that says nothing.
  have hread : setting pool? {} x = (said? poolNames x).bind fun named => do
      return {
        sizeLimit := ← setting word64? 50 (named "size_limit")
        creationMaxAttempts := ← setting word32? 3 (named "creation_max_attempts")
        createTimeoutMs := ← setting word64? 10000 (named "create_timeout_ms")
        deleteTimeoutMs := ← setting word64? 5000 (named "delete_timeout_ms") } := by
    cases x with
    | none => rfl
    | some item => rfl
  simp only [hread, hfields, Option.bind_eq_bind, Option.bind_eq_some_iff, Option.pure_def,
    Option.some.injEq]
  constructor
  · rintro ⟨named, hsaid, a, ha, b, hb, c, hc, d, hd, rfl⟩
    exact ⟨named, hsaid, ha, hb, hc, hd⟩
  · rintro ⟨named, hsaid, ha, hb, hc, hd⟩
    exact ⟨named, hsaid, _, ha, _, hb, _, hc, _, hd, rfl⟩

theorem setting_retry?_eq_some_iff {x : Option Item} {r : RetryConfig} :
    setting retry? {} x = some r ↔
      ∃ named, said? retryNames x = some named ∧
        ∀ s : Setting, s.isOfPool = false → read? s (named s.name) = some (value ⟨{}, r⟩ s) := by
  -- each setting of the section is read under its own name, with its own default
  have hfields (named : String → Option Item) :
      (∀ s : Setting, s.isOfPool = false → read? s (named s.name) = some (value ⟨{}, r⟩ s)) ↔
        setting word32? 10 (named "max_attempts") = some r.maxAttempts ∧
        setting word64? 5 (named "fast_base_ms") = some r.fastBaseMs ∧
        setting word64? 500 (named "fast_cap_ms") = some r.fastCapMs ∧
        setting word64? 50 (named "slow_base_ms") = some r.slowBaseMs ∧
        setting word64? 5000 (named "slow_cap_ms") = some r.slowCapMs := by
    simp only [setting_word64?_eq_some_iff, setting_word32?_eq_some_iff]
    constructor
    · intro h
      exact ⟨h .maxAttempts rfl, h .fastBaseMs rfl, h .fastCapMs rfl, h .slowBaseMs rfl,
        h .slowCapMs rfl⟩
    · rintro ⟨h1, h2, h3, h4, h5⟩ s hown
      cases s with
      | maxAttempts => exact h1
      | fastBaseMs => exact h2
      | fastCapMs => exact h3
      | slowBaseMs => exact h4
      | slowCapMs => exact h5
      | _ => cases hown
  have hread : setting retry? {} x = (said? retryNames x).bind fun named => do
      return {
        maxAttempts := ← setting word32? 10 (named "max_attempts")
        fastBaseMs := ← setting word64? 5 (named "fast_base_ms")
        fastCapMs := ← setting word64? 500 (named "fast_cap_ms")
        slowBaseMs := ← setting word64? 50 (named "slow_base_ms")
        slowCapMs := ← setting word64? 5000 (named "slow_cap_ms") } := by
    cases x with
    | none => rfl
    | some item => rfl
  simp only [hread, hfields, Option.bind_eq_bind, Option.bind_eq_some_iff, Option.pure_def,
    Option.some.injEq]
  constructor
  · rintro ⟨named, hsaid, a, ha, b, hb, c, hc, d, hd, e, he, rfl⟩
    exact ⟨named, hsaid, ha, hb, hc, hd, he⟩
  · rintro ⟨named, hsaid, ha, hb, hc, hd, he⟩
    exact ⟨named, hsaid, _, ha, _, hb, _, hc, _, hd, _, he, rfl⟩

/-- A tree is read setting by setting. -/
theorem ofEntries?_eq_some_iff {es : Entries} {c : Config} :
    ofEntries? es = some c ↔
      ∃ found, found? es = some found ∧ ∀ s, read? s (found s) = some (c.value s) := by
  obtain ⟨p, r⟩ := c
  have hpool (s : Setting) (hown : s.isOfPool) : value ⟨p, {}⟩ s = value ⟨p, r⟩ s := by
    cases s <;> first | rfl | cases hown
  have hretry (s : Setting) (hown : s.isOfPool = false) : value ⟨{}, r⟩ s = value ⟨p, r⟩ s := by
    cases s <;> first | rfl | cases hown
  simp only [ofEntries?, found?, Option.bind_eq_bind, Option.bind_eq_some_iff, Option.pure_def,
    Option.some.injEq, setting_pool?_eq_some_iff, setting_retry?_eq_some_iff, Config.mk.injEq]
  constructor
  · rintro ⟨_, ⟨pool, hsaidPool, hreadPool⟩, _, ⟨retry, hsaidRetry, hreadRetry⟩, rfl, rfl⟩
    refine ⟨_, ⟨pool, hsaidPool, retry, hsaidRetry, rfl⟩, fun s => ?_⟩
    cases hown : s.isOfPool with
    | true => simpa [hown, hpool s hown] using hreadPool s hown
    | false => simpa [hown, hretry s hown] using hreadRetry s hown
  · rintro ⟨_, ⟨pool, hsaidPool, retry, hsaidRetry, rfl⟩, hread⟩
    refine ⟨p, ⟨pool, hsaidPool, fun s hown => ?_⟩, r, ⟨retry, hsaidRetry, fun s hown => ?_⟩, rfl, rfl⟩
    · simpa [hown, hpool s hown] using hread s
    · simpa [hown, hretry s hown] using hread s

end Config

end PooledSessions
