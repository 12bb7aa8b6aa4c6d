import PooledSessions.Proofs.Pool.Creation.Basic
import PooledSessions.Proofs.Pool.Returns
import PooledSessions.Proofs.Pool.Watches
/-!
# What a request for a session does to the pool

A request looks for a live session on the idle stack, from the top.  The dead sessions above the first
live one are retired, that one is leased, and everything below it stays as it is
(`Pool.popIdle_of_live`); if no idle session is alive, all of them are retired (`Pool.popIdle_of_dead`) and
only what is leased or under way counts against the limit.  Retiring touches the monitors and deletions of
the retired sessions and nothing else (`Engine.retireAll_eq`).

The main statement puts this together for every state that a run leads to, with what the client is told, with
the order of the idle stack, and with what a request finds that follows a return directly.
-/

namespace PooledSessions

namespace Pool

variable {alive : FlagNo → Bool} {limit : Nat} {p : Pool}

/-- A session that is changed again shows the last change only. -/
theorem changed_changed (id : SessionId) (t t' : Tracked) (active : List (SessionId × Tracked)) :
    changed id t' (changed id t active) = changed id t' active := by
  rw [changed, changed, List.map_map]
  refine List.map_congr_left fun x _ => ?_
  by_cases hx : x.1 = id <;> simp [hx]

/-! ## The search of the idle stack -/

/-- The sessions that are not among the given ones. -/
def apartFrom (gone : List (SessionId × Tracked)) (active : List (SessionId × Tracked)) :
    List (SessionId × Tracked) :=
  active.filter (·.1 ∉ gone.map (·.1))

/-- Tracked sessions that are dead. -/
def Died (p : Pool) (alive : FlagNo → Bool) (gone : List (SessionId × Tracked)) : Prop :=
  ∀ x ∈ gone, p.find? x.1 = some x.2 ∧ alive x.2.flag = false

theorem apartFrom_nil (active : List (SessionId × Tracked)) : apartFrom [] active = active := by
  simp [apartFrom]

theorem apartFrom_without (x : SessionId × Tracked) (gone active : List (SessionId × Tracked)) :
    apartFrom gone (without x.1 active) = apartFrom (x :: gone) active := by
  rw [apartFrom, without, List.filter_filter]
  refine List.filter_congr fun y _ => ?_
  simp only [List.map_cons, List.mem_cons, not_or, Bool.decide_and, Bool.and_comm]

/-- Sessions that are taken out do not show in other look-ups. -/
theorem lookup_apartFrom {gone active : List (SessionId × Tracked)} {id : SessionId}
    (hid : id ∉ gone.map (·.1)) : (apartFrom gone active).lookup id = active.lookup id := by
  induction gone generalizing active with
  | nil => rw [apartFrom_nil]
  | cons x gone ih =>
    rw [List.map_cons, List.mem_cons, not_or] at hid
    rw [← apartFrom_without, ih hid.2, without, lookup_filter_ne, if_neg hid.1]

/-- Dead sessions on top of the stack are removed before the search goes on. -/
theorem popIdle_append_of_dead (now : Nat) {gone active : List (SessionId × Tracked)} (rest : List SessionId)
    (hnd : (gone.map (·.1)).Nodup)
    (hdead : ∀ x ∈ gone, active.lookup x.1 = some x.2 ∧ alive x.2.flag = false) :
    popIdle alive now (gone.map (·.1) ++ rest) active =
      { popIdle alive now rest (apartFrom gone active) with
        dead := gone ++ (popIdle alive now rest (apartFrom gone active)).dead } := by
  induction gone generalizing active with
  | nil => rw [apartFrom_nil]; rfl
  | cons x gone ih =>
    obtain ⟨hx, hxdead⟩ := hdead x List.mem_cons_self
    rw [List.map_cons, List.nodup_cons] at hnd
    have hothers : ∀ y ∈ gone, (without x.1 active).lookup y.1 = some y.2 ∧ alive y.2.flag = false := by
      intro y hy
      have hne : y.1 ≠ x.1 := fun he => hnd.1 (he ▸ List.mem_map_of_mem hy)
      rw [without, lookup_filter_ne, if_neg hne]
      exact hdead y (List.mem_cons_of_mem _ hy)
    rw [List.map_cons, List.cons_append, popIdle_cons_of_dead hx hxdead, ih hnd.2 hothers,
      apartFrom_without]
    rfl

/-- The search leases the topmost live session, removes the dead ones above it and leaves the rest. -/
theorem popIdle_of_live (now : Nat) {gone : List (SessionId × Tracked)} {id : SessionId} {t : Tracked}
    {below : List SessionId} (h : InOrder limit p) (hidle : p.idle = gone.map (·.1) ++ id :: below)
    (hdead : p.Died alive gone) (ht : p.find? id = some t) (halive : alive t.flag = true) :
    popIdle alive now p.idle p.active =
      ⟨some (id, { t with use := .leased, lastAccess := now }), gone, below,
        changed id { t with use := .leased, lastAccess := now } (apartFrom gone p.active)⟩ := by
  have hnd := hidle ▸ h.idle_nodup
  obtain ⟨hgone, -, hdisjoint⟩ := List.nodup_append.mp hnd
  have hid : id ∉ gone.map (·.1) := fun hin => hdisjoint id hin id List.mem_cons_self rfl
  have hlook : (apartFrom gone p.active).lookup id = some t := (lookup_apartFrom hid).trans ht
  rw [hidle, popIdle_append_of_dead now _ hgone hdead, popIdle_cons_of_alive hlook halive, List.append_nil]

/-- If no idle session is alive, the search removes all of them, and what is left is leased. -/
theorem popIdle_of_dead (now : Nat) {gone : List (SessionId × Tracked)} (h : InOrder limit p)
    (hidle : p.idle = gone.map (·.1)) (hdead : p.Died alive gone) :
    popIdle alive now p.idle p.active = ⟨none, gone, [], p.active.filter (·.2.use = .leased)⟩ := by
  have hgone : (gone.map (·.1)).Nodup := hidle ▸ h.idle_nodup
  have hkept : apartFrom gone p.active = p.active.filter (·.2.use = .leased) := by
    refine List.filter_congr fun x hx => ?_
    have hfind : p.find? x.1 = some x.2 := lookup_of_mem h.names_nodup hx
    have hleft : x.1 ∉ gone.map (·.1) ↔ x.2.use = .leased := by
      rw [← hidle, h.mem_idle, hfind]
      cases huse : x.2.use <;> simp [huse]
    simp only [hleft]
  have hpop := popIdle_append_of_dead now [] hgone hdead
  rw [List.append_nil, popIdle, List.append_nil, hkept] at hpop
  rw [hidle, hpop]

/-- Every idle session is tracked. -/
theorem InOrder.tracked (h : InOrder limit p) : ∀ id ∈ p.idle, ∃ t, p.find? id = some t := fun id hid =>
  ((h.mem_idle id).mp hid).imp fun _ ht => ht.1

/-- On a stack of tracked sessions either all are dead, or some are dead above one that is alive. -/
theorem split_idle (alive : FlagNo → Bool) {idle : List SessionId}
    (htracked : ∀ id ∈ idle, ∃ t, p.find? id = some t) :
    (∃ gone, idle = gone.map (·.1) ∧ p.Died alive gone) ∨
      ∃ gone id t below, idle = gone.map (·.1) ++ id :: below ∧ p.Died alive gone ∧
        p.find? id = some t ∧ alive t.flag = true := by
  induction idle with
  | nil => exact Or.inl ⟨[], rfl, List.forall_mem_nil _⟩
  | cons top idle ih =>
    obtain ⟨t, ht⟩ := htracked top List.mem_cons_self
    cases halive : alive t.flag with
    | true => exact Or.inr ⟨[], top, t, idle, rfl, List.forall_mem_nil _, ht, halive⟩
    | false =>
      have hcons : ∀ {gone}, p.Died alive gone → p.Died alive ((top, t) :: gone) := fun hdead =>
        List.forall_mem_cons.mpr ⟨⟨ht, halive⟩, hdead⟩
      rcases ih fun id hid => htracked id (List.mem_cons_of_mem _ hid) with
        ⟨gone, rfl, hdead⟩ | ⟨gone, id, u, below, rfl, hdead, hu, hlive⟩
      · exact Or.inl ⟨(top, t) :: gone, rfl, hcons hdead⟩
      · exact Or.inr ⟨(top, t) :: gone, id, u, below, rfl, hcons hdead, hu, hlive⟩

end Pool

namespace Engine

variable {ε α : Type} {e : Engine ε α} {c : Setup}

/-! ## Retiring -/

/-- The deletions that begin when the given sessions are retired, if anything can run in the background. -/
def farewells (e : Engine ε α) (c : Setup) (gone : List (SessionId × Tracked)) : List Deletion :=
  if e.background then
    gone.mapIdx fun i x => ⟨e.nextNo + i, x.1, e.now, e.now + c.deleteTimeout.waitMillis, none⟩
  else []

/-- The pool after the given sessions have been retired: their monitors are stopped, their deletions have
begun, and something has been told of that. -/
def parted (e : Engine ε α) (c : Setup) (gone : List (SessionId × Tracked)) (told : List (Signal ε α)) :
    Engine ε α :=
  { e with
    monitors := e.monitorsWithout gone
    deletions := e.deletions ++ e.farewells c gone
    nextNo := e.nextNo + (e.farewells c gone).length
    signals := e.signals ++ told }

theorem parted_nil (e : Engine ε α) (c : Setup) : e.parted c [] [] = e := by
  simp [parted, monitorsWithout, farewells]

/-- One session is retired, and then the others. -/
theorem parted_parted (x : SessionId × Tracked) (gone : List (SessionId × Tracked))
    (told told' : List (Signal ε α)) :
    (e.parted c [x] told).parted c gone told' = e.parted c (x :: gone) (told ++ told') := by
  have hmonitors : (e.parted c [x] told).monitorsWithout gone = e.monitorsWithout (x :: gone) :=
    monitorsWithout_cons rfl
  have hfarewells : e.farewells c (x :: gone) =
      e.farewells c [x] ++ (e.parted c [x] told).farewells c gone := by
    cases hb : e.background with
    | true =>
      simp only [farewells, parted, hb, if_true, List.mapIdx_cons, List.mapIdx_nil, List.length_singleton,
        List.singleton_append, Nat.add_zero, Nat.add_assoc, Nat.add_comm 1]
    | false => simp [farewells, parted, hb]
  unfold parted at hmonitors hfarewells ⊢
  simp only [hmonitors, hfarewells, List.append_assoc, List.length_append, Nat.add_assoc]

theorem retire_eq (e : Engine ε α) (c : Setup) (id : SessionId) (t : Tracked) (reason : String) :
    ∃ told : List (Signal ε α), (∀ s ∈ told, s.ofCall = false) ∧
      e.retire c id t reason = e.parted c [(id, t)] told := by
  let retiring : Event := ⟨.pool, .debug, "retiring session",
    [("session_id", id.text), ("node_id", toString t.node), ("reason", .quoted reason)]⟩
  let skipping : Event := ⟨.pool, .warn, "no async runtime; skipping session delete",
    [("session_id", id.text)]⟩
  cases hb : e.background with
  | true =>
    refine ⟨[.event retiring, .deleteBegun e.nextNo id], by simp [Signal.ofCall], ?_⟩
    simp [retire, deleteInBackground, startDeletion, stopMonitor, report, tell, parted, farewells, hb,
      monitorsWithout, retiring]
  | false =>
    refine ⟨[.event retiring, .event skipping], by simp [Signal.ofCall], ?_⟩
    simp [retire, deleteInBackground, stopMonitor, report, tell, parted, farewells, hb, monitorsWithout,
      retiring, skipping]

/-- Retiring stops the monitors of the retired sessions and begins their deletions.  What it tells is
about no call. -/
theorem retireAll_eq (c : Setup) (reason : String) (gone : List (SessionId × Tracked)) (e : Engine ε α) :
    ∃ told : List (Signal ε α), (∀ s ∈ told, s.ofCall = false) ∧
      e.retireAll c reason gone = e.parted c gone told := by
  induction gone generalizing e with
  | nil => exact ⟨[], List.forall_mem_nil _, (e.parted_nil c).symm⟩
  | cons x gone ih =>
    obtain ⟨told, htold, hretire⟩ := e.retire_eq c x.1 x.2 reason
    obtain ⟨told', htold', hothers⟩ := ih (e.parted c [x] told)
    refine ⟨told ++ told', List.forall_mem_append.mpr ⟨htold, htold'⟩, ?_⟩
    rw [retireAll_cons, hretire, hothers, parted_parted]

/-! ## Requests -/

variable [PooledError ε] {no : TaskNo}

/-- A request leases the topmost live session.  The dead sessions above it are retired, and what lies below
it stays. -/
theorem acquireFor_of_live (h : Pool.InOrder c.limit e.pool) {gone : List (SessionId × Tracked)}
    {id : SessionId} {t : Tracked} {below : List SessionId}
    (hidle : e.pool.idle = gone.map (·.1) ++ id :: below) (hdead : e.pool.Died e.isAlive gone)
    (ht : e.pool.find? id = some t) (halive : e.isAlive t.flag = true) (token : Token) (client : Client) :
    ∃ told : List (Signal ε α), (∀ s ∈ told, s.ofCall = false) ∧
      e.acquireFor c no token client = ((e.parted c gone told).withPool { e.pool with
        idle := below
        active := Pool.changed id { t with use := .leased, lastAccess := e.now }
          (Pool.apartFrom gone e.pool.active) }).lease no client ⟨id, t.node, t.flag⟩ := by
  have hsearch : e.search = _ := Pool.popIdle_of_live e.now h hidle hdead ht halive
  obtain ⟨told, htold, hretired⟩ := retireAll_eq c "died while idle" gone e
  refine ⟨told, htold, ?_⟩
  rw [acquireFor_open (h.not_closed ht), searched, hsearch, hretired]
  rfl

/-- If no idle session is alive, all of them are retired, and a session is created if the sessions that are
leased and the creations under way leave room for it. -/
theorem acquireFor_of_dead (h : Pool.InOrder c.limit e.pool) (hopen : e.pool.closed = false)
    {gone : List (SessionId × Tracked)} (hidle : e.pool.idle = gone.map (·.1))
    (hdead : e.pool.Died e.isAlive gone) (token : Token) (client : Client) :
    ∃ told : List (Signal ε α), (∀ s ∈ told, s.ofCall = false) ∧
      let kept := e.pool.active.filter (·.2.use = .leased)
      let left := (e.parted c gone told).withPool { e.pool with idle := [], active := kept }
      e.acquireFor c no token client =
        if kept.length + e.pool.pending < c.limit then
          left.reserved.followCreation c no client (Loop.start (.first true) (e.isCancelled token))
        else left.reject no client (.exhausted kept.length e.pool.pending c.limit) := by
  have hsearch : e.search = _ := Pool.popIdle_of_dead e.now h hidle hdead
  obtain ⟨told, htold, hretired⟩ := retireAll_eq c "died while idle" gone e
  refine ⟨told, htold, ?_⟩
  rw [acquireFor_open hopen, searched, hsearch, hretired]
  rfl

/-- A live session that is returned lies on top of the idle stack, and the request that comes next leases
it again. -/
theorem acquireFor_giveBack (hopen : e.pool.closed = false) {id : SessionId} {t : Tracked}
    (ht : e.pool.find? id = some t) (huse : t.use = .leased) (halive : e.isAlive t.flag = true)
    (token : Token) (client : Client) :
    (e.giveBack c id).acquireFor c no token client =
      (e.withPool { e.pool with
        active := Pool.changed id { t with lastAccess := e.now } e.pool.active }).lease no client
        ⟨id, t.node, t.flag⟩ := by
  let idle : Tracked := { t with use := .idle, lastAccess := e.now }
  let again : Tracked := { t with lastAccess := e.now }
  have hback : e.giveBack c id = e.withPool { e.pool with
      idle := id :: e.pool.idle
      active := Pool.changed id idle e.pool.active } := by
    unfold giveBack Pool.release
    rw [ht]
    simp only [if_pos huse, if_pos halive]
    rfl
  have hfind : (Pool.changed id idle e.pool.active).lookup id = some idle :=
    (Pool.find?_changed ht [] idle id).trans (if_pos rfl)
  have hagain : { idle with use := .leased, lastAccess := e.now } = again := by
    rw [← huse]
  have hsearch : (e.giveBack c id).search =
      ⟨some (id, again), [], e.pool.idle, Pool.changed id again e.pool.active⟩ := by
    rw [hback, ← Pool.changed_changed id idle again, ← hagain]
    exact Pool.popIdle_cons_of_alive hfind halive
  rw [acquireFor_open (by rw [hback]; exact hopen), searched, hsearch, hback]
  rfl

/-! ## What the client is told -/

omit [PooledError ε] in
/-- Whoever asks is not told that sessions have been retired. -/
theorem toldOf_parted {told : List (Signal ε α)} (htold : ∀ s ∈ told, s.ofCall = false) (e : Engine ε α)
    (c : Setup) (gone : List (SessionId × Tracked)) (no : TaskNo) :
    (e.parted c gone told).toldOf no = e.toldOf no :=
  (standsBy_tellAll htold no e).told

omit [PooledError ε] in
theorem toldOf_lease (e : Engine ε α) (no : TaskNo) (client : Client) (h : Handle) :
    (e.lease no client h).toldOf no = e.toldOf no ++ [grant no client h] := by
  rw [toldOf, (signals_lease e no client h).1, List.filter_append,
    List.filter_cons_of_pos (tellsOf_grant no client h), List.filter_nil, toldOf]

theorem toldOf_reject (e : Engine ε α) (no : TaskNo) (client : Client) (p : PoolError) :
    (e.reject no client p).toldOf no = e.toldOf no ++ [refusal no client p] := by
  rw [reject_eq, toldOf_tell (tellsOf_refusal no client p)]
  rfl

/-- The creation of a session begins, unless the client has been cancelled before. -/
theorem toldOf_begins (e : Engine ε α) (c : Setup) (no : TaskNo) (client : Client) :
    let e' := e.reserved.followCreation c no client (Loop.start (.first true) false)
    e'.toldOf no = e.toldOf no ++ [.createBegun no] ∧ e'.pool = e.reserved.pool :=
  ⟨toldOf_tell (by simp [Signal.tellsOf]) (e.reserved.moveTo no (.creating client (.first true) e.now)), rfl⟩

/-- Whoever has been cancelled before is told so, and his place is given back. -/
theorem toldOf_begins_of_cancelled (e : Engine ε α) (c : Setup) (no : TaskNo) (client : Client) :
    let e' := e.reserved.followCreation c no client (Loop.start (.first true) true)
    e'.toldOf no = e.toldOf no ++ [refusal no client .cancelled] ∧ e'.pool = e.pool := by
  have hrejected : e.reserved.followCreation c no client (Loop.start (.first true) true) =
      e.reserved.releasePending.reject no client .cancelled := rfl
  dsimp only
  rw [hrejected]
  refine ⟨toldOf_reject e.reserved.releasePending no client .cancelled, ?_⟩
  cases client <;> rfl

/-! ## What becomes of a request -/

/-- A closed pool turns a request away and stays as it is. -/
theorem turnedAway_of_closed (hclosed : e.pool.closed = true) (no : TaskNo) (token : Token)
    (client : Client) :
    e.acquireFor c no token client = e.reject no client .closed ∧
      (e.acquireFor c no token client).pool = e.pool ∧
      (e.acquireFor c no token client).toldOf no = e.toldOf no ++ [refusal no client .closed] := by
  have hacquire : e.acquireFor c no token client = e.reject no client .closed :=
    acquireFor_closed hclosed token client
  rw [hacquire]
  refine ⟨rfl, ?_, toldOf_reject e no client .closed⟩
  cases client <;> rfl

/-- If an idle session is alive, the topmost one is leased. -/
theorem leased_of_live (h : Pool.InOrder c.limit e.pool)
    (hlive : ∃ id ∈ e.pool.idle, ∃ t, e.pool.find? id = some t ∧ e.isAlive t.flag = true) (no : TaskNo)
    (token : Token) (client : Client) :
    ∃ gone id t below told, e.pool.idle = gone.map (·.1) ++ id :: below ∧
      e.pool.Died e.isAlive gone ∧ e.pool.find? id = some t ∧ e.isAlive t.flag = true ∧
      (∀ s ∈ told, s.ofCall = false) ∧
      e.acquireFor c no token client = ((e.parted c gone told).withPool { e.pool with
        idle := below
        active := Pool.changed id { t with use := .leased, lastAccess := e.now }
          (Pool.apartFrom gone e.pool.active) }).lease no client ⟨id, t.node, t.flag⟩ ∧
      (e.acquireFor c no token client).toldOf no = e.toldOf no ++ [grant no client ⟨id, t.node, t.flag⟩] := by
  obtain ⟨id, hid, t, ht, halive⟩ := hlive
  rcases Pool.split_idle e.isAlive h.tracked with
    ⟨gone, hidle, hdead⟩ | ⟨gone, top, u, below, hidle, hdead, hu, hlive⟩
  · -- a stack of dead sessions holds no live one
    rw [hidle] at hid
    obtain ⟨x, hx, rfl⟩ := List.mem_map.mp hid
    obtain ⟨hfind, hflag⟩ := hdead x hx
    rw [ht, Option.some.injEq] at hfind
    rw [hfind, hflag] at halive
    cases halive
  · obtain ⟨told, htold, hacquire⟩ := acquireFor_of_live h hidle hdead hu hlive token client
    refine ⟨gone, top, u, below, told, hidle, hdead, hu, hlive, htold, hacquire, ?_⟩
    rw [hacquire, toldOf_lease]
    exact congrArg (· ++ _) (toldOf_parted htold e c gone no)

/-- If no idle session is alive, a session is created or the request is turned away. -/
theorem anew_of_dead (h : Pool.InOrder c.limit e.pool) (hopen : e.pool.closed = false)
    (hnone : ∀ id ∈ e.pool.idle, ∀ t, e.pool.find? id = some t → e.isAlive t.flag = false) (no : TaskNo)
    (token : Token) (client : Client) :
    ∃ gone told, e.pool.idle = gone.map (·.1) ∧ e.pool.Died e.isAlive gone ∧
      (∀ s ∈ told, s.ofCall = false) ∧
      let leased := e.pool.active.filter (·.2.use = .leased)
      let left := (e.parted c gone told).withPool { e.pool with idle := [], active := leased }
      (leased.length + e.pool.pending < c.limit →
        e.acquireFor c no token client = left.reserved.followCreation c no client
          (Loop.start (.first true) (e.isCancelled token)) ∧
        (e.isCancelled token = false →
          (e.acquireFor c no token client).toldOf no = e.toldOf no ++ [.createBegun no] ∧
          (e.acquireFor c no token client).pool = left.reserved.pool) ∧
        (e.isCancelled token = true →
          (e.acquireFor c no token client).toldOf no = e.toldOf no ++ [refusal no client .cancelled] ∧
          (e.acquireFor c no token client).pool = left.pool)) ∧
      (¬ leased.length + e.pool.pending < c.limit →
        leased.length + e.pool.pending = c.limit ∧
        e.acquireFor c no token client =
          left.reject no client (.exhausted leased.length e.pool.pending c.limit) ∧
        (e.acquireFor c no token client).toldOf no =
          e.toldOf no ++ [refusal no client (.exhausted leased.length e.pool.pending c.limit)]) := by
  rcases Pool.split_idle e.isAlive h.tracked with
    ⟨gone, hidle, hdead⟩ | ⟨gone, top, u, below, hidle, hdead, hu, hlive⟩
  · obtain ⟨told, htold, hacquire⟩ := acquireFor_of_dead h hopen hidle hdead token client
    refine ⟨gone, told, hidle, hdead, htold, ?_⟩
    intro leased left
    have htoldOf : left.toldOf no = e.toldOf no := toldOf_parted htold e c gone no
    constructor
    · intro hroom
      have hacquire := hacquire.trans (if_pos hroom)
      refine ⟨hacquire, fun hgo => ?_, fun hcancelled => ?_⟩
      · rw [hacquire, hgo, ← htoldOf]
        exact toldOf_begins left c no client
      · rw [hacquire, hcancelled, ← htoldOf]
        exact toldOf_begins_of_cancelled left c no client
    · intro hfull
      have hacquire := hacquire.trans (if_neg hfull)
      refine ⟨?_, hacquire, ?_⟩
      · have hle : leased.length ≤ e.pool.active.length := List.length_filter_le _ e.pool.active
        have hlimit := h.room
        omega
      · rw [hacquire, ← htoldOf]
        exact toldOf_reject left no client _
  · -- a live session would have been leased
    rw [hnone top (by rw [hidle]; simp) u hu] at hlive
    cases hlive

/-! ## Every state that a run leads to -/

variable (c) in
/-- What a request does to the pool in every state that a run leads to, wherever it is made, and what its client
is told, as long as the server names no session twice.  A closed pool turns it away and stays as it is.  In an
open one the topmost live idle session is leased, the dead ones above it are retired and everything else
stays; if no idle session is alive, all of them are retired, and a session is created exactly if the leased
sessions and the creations under way are fewer than the limit allows.  But if the client has been cancelled
before, nothing is asked of the server then, and the place is given back.  The idle sessions stand in the order
of their last returns.  A request that follows the return of a live session directly leases it again and leaves
all else in the tables as it was, but for the time of access. -/
theorem admission_of_run (g : Generator) (xs : List (Bool × Move ε α)) (e₀ : Engine ε α)
    (hnames : (named xs).Nodup) (hrun : (fresh g).run c xs = some e₀) (place : Bool) :
    let e : Engine ε α := { e₀ with background := place }
    (e.pool.closed = true → ∀ no token client,
      e.acquireFor c no token client = e.reject no client .closed ∧
      (e.acquireFor c no token client).pool = e.pool ∧
      (e.acquireFor c no token client).toldOf no = e.toldOf no ++ [refusal no client .closed]) ∧
    (e.pool.closed = false → ∀ no token client,
      ((∃ id ∈ e.pool.idle, ∃ t, e.pool.find? id = some t ∧ e.isAlive t.flag = true) →
        ∃ gone id t below told, e.pool.idle = gone.map (·.1) ++ id :: below ∧
          e.pool.Died e.isAlive gone ∧ e.pool.find? id = some t ∧ e.isAlive t.flag = true ∧
          (∀ s ∈ told, s.ofCall = false) ∧
          e.acquireFor c no token client = ((e.parted c gone told).withPool { e.pool with
            idle := below
            active := Pool.changed id { t with use := .leased, lastAccess := e.now }
              (Pool.apartFrom gone e.pool.active) }).lease no client ⟨id, t.node, t.flag⟩ ∧
          (e.acquireFor c no token client).toldOf no =
            e.toldOf no ++ [grant no client ⟨id, t.node, t.flag⟩]) ∧
      ((∀ id ∈ e.pool.idle, ∀ t, e.pool.find? id = some t → e.isAlive t.flag = false) →
        ∃ gone told, e.pool.idle = gone.map (·.1) ∧ e.pool.Died e.isAlive gone ∧
          (∀ s ∈ told, s.ofCall = false) ∧
          let leased := e.pool.active.filter (·.2.use = .leased)
          let left := (e.parted c gone told).withPool { e.pool with idle := [], active := leased }
          (leased.length + e.pool.pending < c.limit →
            e.acquireFor c no token client = left.reserved.followCreation c no client
              (Loop.start (.first true) (e.isCancelled token)) ∧
            (e.isCancelled token = false →
              (e.acquireFor c no token client).toldOf no = e.toldOf no ++ [.createBegun no] ∧
              (e.acquireFor c no token client).pool = left.reserved.pool) ∧
            (e.isCancelled token = true →
              (e.acquireFor c no token client).toldOf no =
                e.toldOf no ++ [refusal no client .cancelled] ∧
              (e.acquireFor c no token client).pool = left.pool)) ∧
          (¬ leased.length + e.pool.pending < c.limit →
            leased.length + e.pool.pending = c.limit ∧
            e.acquireFor c no token client =
              left.reject no client (.exhausted leased.length e.pool.pending c.limit) ∧
            (e.acquireFor c no token client).toldOf no =
              e.toldOf no ++ [refusal no client (.exhausted leased.length e.pool.pending c.limit)]))) ∧
    Ordered ((fresh g).returns c xs) e.pool.idle ∧
    (∀ id t, e.pool.find? id = some t → t.use = .leased → e.isAlive t.flag = true →
      ∀ b : Engine ε α, b.pool = e.pool → b.flags = e.flags → ∀ no token client,
        (b.giveBack c id).acquireFor c no token client =
          (b.withPool { e.pool with
            active := Pool.changed id { t with lastAccess := b.now } e.pool.active }).lease no client
              ⟨id, t.node, t.flag⟩ ∧
        ((b.giveBack c id).acquireFor c no token client).toldOf no =
          b.toldOf no ++ [grant no client ⟨id, t.node, t.flag⟩]) := by
  intro e
  have hrest : e₀.ledger.AtRest c.limit _ none := atRest_run (atRest_fresh c.limit g) hrun hnames (by simp)
  have htables : Pool.InOrder c.limit e.pool := hrest.tables
  refine ⟨fun hclosed no token client => turnedAway_of_closed hclosed no token client,
    fun hopen no token client => ⟨fun hlive => leased_of_live htables hlive no token client,
      fun hnone => anew_of_dead htables hopen hnone no token client⟩, ?_, ?_⟩
  · have hordered := ordered_of_run (atRest_fresh c.limit g) (Ordered.nil []) hrun hnames (by simp)
    rwa [List.append_nil] at hordered
  · intro id t ht huse halive b hpool hflags no token client
    have halive' : b.isAlive t.flag = true := by rw [← halive, isAlive, isAlive, hflags]
    rw [← hpool] at ht ⊢
    have hopen : b.pool.closed = false := by
      rw [hpool]
      exact htables.not_closed (hpool ▸ ht)
    have hacquire : (b.giveBack c id).acquireFor c no token client = _ :=
      acquireFor_giveBack hopen ht huse halive' token client
    refine ⟨hacquire, ?_⟩
    rw [hacquire, toldOf_lease]
    rfl

/-- Two sessions are returned, and the one returned last dies. -/
def deadOnTop : List (Bool × Move DriverError Int) :=
  [(true, .call .lease (.unnamed 0)), (true, .start 0), (true, .created 0 (.ok ⟨⟨"a"⟩, 1⟩)),
    (true, .call .lease (.unnamed 1)), (true, .start 2), (true, .created 2 (.ok ⟨⟨"b"⟩, 1⟩)),
    (true, .release 1), (true, .release 3), (true, .attached 3 (.error .cancelled))]

/-- The dead session is retired where nothing can run in the background, and the one below it is leased. -/
theorem admission_of_deadOnTop :
    ∃ e₀, (fresh ⟨1⟩).run (.ofConfig {} .standard none) deadOnTop = some e₀ ∧
      e₀.pool.idle = [⟨"b"⟩, ⟨"a"⟩] ∧ Ordered [⟨"b"⟩, ⟨"a"⟩] e₀.pool.idle ∧
      ∃ (gone : List (SessionId × Tracked)) (id : SessionId) (t : Tracked) (below : List SessionId)
        (told : List (Signal DriverError Int)), e₀.pool.idle = gone.map (·.1) ++ id :: below ∧
        e₀.isAlive t.flag = true ∧
        let e : Engine DriverError Int := { e₀ with background := false }
        e.acquireFor (.ofConfig {} .standard none) 4 (.unnamed 2) .caller =
          ((e.parted (.ofConfig {} .standard none) gone told).withPool { e.pool with
            idle := below
            active := Pool.changed id { t with use := .leased, lastAccess := e.now }
              (Pool.apartFrom gone e.pool.active) }).lease 4 .caller ⟨id, t.node, t.flag⟩ ∧
        (e.acquireFor (.ofConfig {} .standard none) 4 (.unnamed 2) .caller).toldOf 4 =
          e.toldOf 4 ++ [.acquired 4 (.ok ⟨id, t.node, t.flag⟩)] := by
  obtain ⟨e₀, hrun, hidle, hopen, hlive⟩ :
      ∃ e₀, (fresh ⟨1⟩).run (.ofConfig {} .standard none) deadOnTop = some e₀ ∧
        e₀.pool.idle = [⟨"b"⟩, ⟨"a"⟩] ∧ e₀.pool.closed = false ∧
        ∃ t, e₀.pool.find? ⟨"a"⟩ = some t ∧ e₀.isAlive t.flag = true := ⟨_, rfl, rfl, rfl, _, rfl, rfl⟩
  obtain ⟨-, hacquires, hordered, -⟩ :=
    admission_of_run (.ofConfig {} .standard none) ⟨1⟩ deadOnTop e₀ (by decide) hrun false
  obtain ⟨gone, id, t, below, told, hstack, -, -, halive, -, hacquire, htold⟩ :=
    (hacquires hopen 4 (.unnamed 2) .caller).1 ⟨⟨"a"⟩, by rw [hidle]; decide, hlive⟩
  exact ⟨e₀, hrun, hidle, hordered, gone, id, t, below, told, hstack, halive, hacquire, htold⟩

/-- Three sessions are asked for at once, and the server gives the last one the name of the first, which has
been returned meanwhile.  All of them are returned. -/
def namedTwice : List (Bool × Move DriverError Int) :=
  [(true, .call .lease (.unnamed 0)), (true, .call .lease (.unnamed 1)), (true, .call .lease (.unnamed 2)),
    (true, .start 0), (true, .start 1), (true, .start 2), (true, .created 0 (.ok ⟨⟨"a"⟩, 1⟩)),
    (true, .release 3), (true, .created 1 (.ok ⟨⟨"b"⟩, 1⟩)), (true, .release 4),
    (true, .created 2 (.ok ⟨⟨"a"⟩, 1⟩)), (true, .release 5)]

/-- A caller asks for a session after he has been cancelled. -/
def askedTooLate : List (Bool × Move DriverError Int) :=
  [(true, .cancel (.unnamed 0)), (true, .call .lease (.unnamed 0))]

/-- If the server names a session twice, the session lies on the idle stack twice, and so not in the order of
the last returns.  And although there is room for another session, none is created for a caller who has been
cancelled before: he is told so, and no place is taken. -/
theorem disorder_of_namedTwice :
    (∃ e, (fresh ⟨1⟩).run (.ofConfig {} .standard none) namedTwice = some e ∧
      e.pool.idle = [⟨"a"⟩, ⟨"b"⟩, ⟨"a"⟩] ∧
      ¬ Ordered ((fresh ⟨1⟩).returns (.ofConfig {} .standard none) namedTwice) e.pool.idle) ∧
    ∃ e, (fresh ⟨1⟩).run (.ofConfig {} .standard none) askedTooLate = some e ∧
      e.pool.closed = false ∧ e.pool.idle = [] ∧
      (e.pool.active.filter (·.2.use = .leased)).length + e.pool.pending <
        (Setup.ofConfig {} .standard none).limit ∧
      (e.acquireFor (.ofConfig {} .standard none) 0 (.unnamed 0) .caller).toldOf 0 =
        [.acquired 0 (.error .cancelled)] ∧
      (e.acquireFor (.ofConfig {} .standard none) 0 (.unnamed 0) .caller).pool = e.pool := by
  have hreturns : (fresh ⟨1⟩).returns (.ofConfig {} .standard none) namedTwice = [⟨"a"⟩, ⟨"b"⟩, ⟨"a"⟩] := rfl
  rw [hreturns]
  refine ⟨⟨_, rfl, rfl, fun hordered => ?_⟩, _, rfl, rfl, rfl, by decide, rfl, rfl⟩
  exact absurd hordered.pairwise (by decide)

end Engine

end PooledSessions
