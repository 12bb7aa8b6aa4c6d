import PooledSessions.Error.Pool
import PooledSessions.Session.Id
import PooledSessions.Session.Liveness
/-!
# The tables of the pool

The pool tracks every session it has registered until the session leaves it, and keeps the idle ones
on a stack, so that the session returned last is leased first.  Creations under way are counted as
pending: tracked sessions and pending creations together never exceed the limit.  This module holds
what happens to these tables in one go; calls to the server happen between such changes.
-/

namespace PooledSessions

/-- What a tracked session is used for. -/
inductive Use
  /-- It lies on the idle stack. -/
  | idle
  /-- Somebody holds a lease on it. -/
  | leased
  deriving DecidableEq

/-- A session as the pool tracks it. -/
structure Tracked where
  /-- The node on which it lives. -/
  node : Int
  /-- Its liveness flag. -/
  flag : FlagNo
  /-- What it is used for. -/
  use : Use
  /-- When it was leased or returned last. -/
  lastAccess : Nat
  deriving DecidableEq

/-- The tables of the pool. -/
structure Pool where
  /-- The idle sessions, the one returned last first. -/
  idle : List SessionId
  /-- All tracked sessions. -/
  active : List (SessionId × Tracked)
  /-- How many creations are under way. -/
  pending : Nat
  /-- Whether the pool has been closed. -/
  closed : Bool
  deriving DecidableEq

/-- What a caller who asks for a session is told. -/
inductive Admission
  /-- An idle session is leased. -/
  | reuse (id : SessionId) (tracked : Tracked)
  /-- A session may be created. -/
  | create
  /-- The limit is reached. -/
  | exhausted (active pending : Nat)
  /-- The pool is closed. -/
  | closed
  deriving DecidableEq

namespace Pool

/-- The pool before anything has happened. -/
def fresh : Pool := ⟨[], [], 0, false⟩

/-! ## Tracked sessions -/

/-- A tracked session by its name. -/
def find? (p : Pool) (id : SessionId) : Option Tracked := p.active.lookup id

/-- The sessions without a given one. -/
def without (id : SessionId) (active : List (SessionId × Tracked)) : List (SessionId × Tracked) :=
  active.filter (·.1 ≠ id)

/-- The sessions with a given one changed. -/
def changed (id : SessionId) (t : Tracked) (active : List (SessionId × Tracked)) :
    List (SessionId × Tracked) :=
  active.map fun (k, old) => if k = id then (k, t) else (k, old)

/-! ## Admission -/

/-- What is found on the idle stack. -/
structure Popped where
  /-- The session that is leased. -/
  leased : Option (SessionId × Tracked)
  /-- The dead sessions that lay above it, and were removed. -/
  dead : List (SessionId × Tracked)
  /-- What is left of the stack. -/
  idle : List SessionId
  /-- The sessions that are tracked now. -/
  active : List (SessionId × Tracked)

/-- Takes sessions off the idle stack down to the first one that is alive.  Dead ones are removed on
the way. -/
def popIdle (alive : FlagNo → Bool) (now : Nat) :
    List SessionId → List (SessionId × Tracked) → Popped
  | [], active => ⟨none, [], [], active⟩
  | id :: rest, active =>
    match active.lookup id with
    | none => popIdle alive now rest active
    | some t =>
      if alive t.flag then
        let t := { t with use := .leased, lastAccess := now }
        ⟨some (id, t), [], rest, changed id t active⟩
      else
        let below := popIdle alive now rest (without id active)
        { below with dead := (id, t) :: below.dead }

/-- Admits a caller who asks for a session: the topmost idle session that is alive, or else the leave
to create one.  Also answers the dead sessions that were removed. -/
def admission (p : Pool) (limit : Nat) (alive : FlagNo → Bool) (now : Nat) :
    Admission × List (SessionId × Tracked) × Pool :=
  if p.closed then (.closed, [], p)
  else
    let popped := popIdle alive now p.idle p.active
    let p := { p with idle := popped.idle, active := popped.active }
    match popped.leased with
    | some (id, t) => (.reuse id t, popped.dead, p)
    | none =>
      if p.active.length + p.pending < limit then
        (.create, popped.dead, { p with pending := p.pending + 1 })
      else
        (.exhausted p.active.length p.pending, popped.dead, p)

/-! ## Registration and return -/

/-- A creation is no longer under way. -/
def releasePending (p : Pool) : Pool := { p with pending := p.pending - 1 }

/-- Registers a session that was created, as leased. -/
def register (p : Pool) (session : SessionInfo) (flag : FlagNo) (now : Nat) : Pool :=
  { p with
    active := (session.id, ⟨session.node, flag, .leased, now⟩) :: without session.id p.active }

/-- Takes a session back from its lease.  A live session goes onto the idle stack; a dead one is removed
and answered.  A session that is not leased stays as it is. -/
def release (p : Pool) (id : SessionId) (alive : FlagNo → Bool) (now : Nat) :
    Option Tracked × Pool :=
  match p.find? id with
  | some t =>
    if t.use = .leased then
      if alive t.flag then
        (none, { p with
          idle := id :: p.idle
          active := changed id { t with use := .idle, lastAccess := now } p.active })
      else
        (some t, { p with active := without id p.active })
    else (none, p)
  | none => (none, p)

/-- Removes a session, whatever it is used for, and answers it. -/
def remove (p : Pool) (id : SessionId) : Option Tracked × Pool :=
  match p.find? id with
  | some t =>
    (some t, { p with idle := p.idle.filter (· ≠ id), active := without id p.active })
  | none => (none, p)

/-- Closes the pool and answers all sessions it tracked. -/
def close (p : Pool) : List (SessionId × Tracked) × Pool :=
  (p.active, { p with idle := [], active := [], closed := true })

/-! ## Occupancy -/

/-- How the pool is occupied at some moment. -/
structure Stats where
  /-- How many sessions are tracked. -/
  active : Nat
  /-- How many lie on the idle stack. -/
  idle : Nat
  /-- How many live ones are leased. -/
  leased : Nat
  /-- How many are dead. -/
  dead : Nat
  /-- How many creations are under way. -/
  pending : Nat
  /-- The limit. -/
  limit : Nat
  /-- Whether the pool is closed. -/
  closed : Bool
  /-- For how long the session returned first has been idle. -/
  longestIdle : Option Nat
  deriving DecidableEq

/-- The occupancy of the pool. -/
def stats (p : Pool) (limit : Nat) (alive : FlagNo → Bool) (now : Nat) : Stats :=
  let waits := p.idle.filterMap fun id => (p.find? id).map fun t => now - t.lastAccess
  { active := p.active.length
    idle := p.idle.length
    leased := p.active.countP fun (_, t) => alive t.flag && t.use = .leased
    dead := p.active.countP fun (_, t) => !alive t.flag
    pending := p.pending
    limit := limit
    closed := p.closed
    longestIdle := waits.max? }

/-- The occupancy written with its names, for a pool without idle sessions. -/
def Stats.describe (s : Stats) : String :=
  "SessionPool \x7b stats: PoolStats \x7b active: " ++ toString s.active ++ ", idle: "
    ++ toString s.idle ++ ", leased: " ++ toString s.leased ++ ", dead: " ++ toString s.dead
    ++ ", pending: " ++ toString s.pending ++ ", size_limit: " ++ toString s.limit ++ ", closed: "
    ++ toString s.closed ++ ", longest_idle: None \x7d \x7d"

end Pool

end PooledSessions
