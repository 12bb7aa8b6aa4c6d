import PooledSessions.Proofs.Pool.Balance
/-!
# What the pool does keeps its balance

Each thing a running pool does in one go keeps the balance of its ledger: sessions are retired, leases
come back, sessions are leased, created, registered and closed.  The main statements say from which hand
of the moving call each of them leads back to a pool at rest.
-/

namespace PooledSessions

/-- The tables after the idle stack has been searched. -/
def Pool.Popped.tables (x : Popped) (p : Pool) : Pool := { p with idle := x.idle, active := x.active }

/-- The lease on what the search has found. -/
def Pool.Popped.lease? (x : Popped) : Option Handle :=
  x.leased.map fun (id, t) => ⟨id, t.node, t.flag⟩

/-- An open pool leases what is found on the idle stack, or else makes room for a creation. -/
theorem Pool.admission_open {p : Pool} (hopen : p.closed = false) (limit : Nat)
    (alive : FlagNo → Bool) (now : Nat) :
    p.admission limit alive now =
      let popped := popIdle alive now p.idle p.active
      match popped.leased with
      | some (id, t) => (.reuse id t, popped.dead, popped.tables p)
      | none =>
        if popped.active.length + p.pending < limit then
          (.create, popped.dead, { popped.tables p with pending := p.pending + 1 })
        else (.exhausted popped.active.length p.pending, popped.dead, popped.tables p) := by
  unfold admission
  rw [if_neg (by simp [hopen])]
  rfl

namespace Engine

variable {ε α : Type} {c : Setup} {limit : Nat} {known : List SessionId}
  {kept : Option (List SessionId)} {e : Engine ε α}
  {leases : List Handle} {creations : Nat}

/-! ## Retiring -/

/-- The running pool with other tables. -/
def withPool (e : Engine ε α) (pool : Pool) : Engine ε α := { e with pool := pool }

@[simp] theorem withPool_pool (e : Engine ε α) (pool : Pool) : (e.withPool pool).pool = pool := rfl

@[simp] theorem ledger_signals (e : Engine ε α) (signals : List (Signal ε α)) :
    ({ e with signals := signals } : Engine ε α).ledger = e.ledger := rfl

@[simp] theorem ledger_report (e : Engine ε α) (topic : Topic) (level : Level) (message : String)
    (fields : List (String × Detail)) : (e.report topic level message fields).ledger = e.ledger := rfl

/-- The ledger of a pool that has begun a deletion in the background. -/
theorem ledger_deleteInBackground (hb : e.background = true) (c : Setup) (id : SessionId) :
    (e.deleteInBackground c id).ledger = { e.ledger with
      deletions := e.deletions ++
        [⟨e.nextNo, id, e.now, e.now + c.deleteTimeout.waitMillis, none⟩]
      nextNo := e.nextNo + 1 } := by
  unfold deleteInBackground
  rw [if_pos hb]
  rfl

/-- Where nothing can run in the background, no deletion begins. -/
theorem ledger_deleteInBackground_of_not (hb : ¬ e.background = true) (c : Setup) (id : SessionId) :
    (e.deleteInBackground c id).ledger = e.ledger := by
  unfold deleteInBackground
  rw [if_neg hb]
  rfl

theorem retire_withPool (e : Engine ε α) (pool : Pool) (c : Setup) (id : SessionId) (t : Tracked)
    (reason : String) :
    (e.withPool pool).retire c id t reason = (e.retire c id t reason).withPool pool := by
  obtain ⟨_, _, _, _, _, _, _, _, _, _, _, background, _⟩ := e
  cases background <;> rfl

@[simp] theorem retireAll_nil (e : Engine ε α) (c : Setup) (reason : String) :
    e.retireAll c reason [] = e := rfl

@[simp] theorem retireAll_cons (e : Engine ε α) (c : Setup) (reason : String)
    (x : SessionId × Tracked) (gone : List (SessionId × Tracked)) :
    e.retireAll c reason (x :: gone) = (e.retire c x.1 x.2 reason).retireAll c reason gone := rfl

theorem retireAll_withPool (pool : Pool) (c : Setup) (reason : String)
    (gone : List (SessionId × Tracked)) (e : Engine ε α) :
    (e.withPool pool).retireAll c reason gone = (e.retireAll c reason gone).withPool pool := by
  induction gone generalizing e with
  | nil => rfl
  | cons x gone ih =>
    rw [retireAll_cons, retire_withPool, ih, retireAll_cons]

/-- A tracked session leaves the tables and is retired. -/
theorem sound_retire (h : e.ledger.Sound limit known kept leases creations) {id : SessionId}
    {t : Tracked} (ht : e.pool.find? id = some t) (reason : String) :
    ((e.withPool (e.pool.discard id)).retire c id t reason).ledger.Sound limit known kept leases
      creations := by
  let stopped := ((e.withPool (e.pool.discard id)).stopMonitor t.flag).report .pool .debug
    "retiring session" [("session_id", id.text), ("node_id", toString t.node), ("reason", .quoted reason)]
  show (stopped.deleteInBackground c id).ledger.Sound limit known kept leases creations
  by_cases hb : e.background = true
  · rw [ledger_deleteInBackground (show stopped.background = true from hb)]
    exact h.discharge ht rfl rfl
  · rw [ledger_deleteInBackground_of_not (show ¬ stopped.background = true from hb)]
    -- the session is left behind on the server
    exact (h.leave ht).account fun ids hids => (h.accounts ids hids).lose hb
      ((Pool.names_discard .. ▸ List.filter_sublist).append_right _).subperm

/-- A session that the server has never named before is deleted at once. -/
theorem sound_deleteInBackground (h : e.ledger.Sound limit known kept leases creations)
    {id : SessionId} (hnew : id ∉ known) (c : Setup) :
    (e.deleteInBackground c id).ledger.Sound limit (id :: known) (kept.map (id :: ·)) leases
      creations := by
  by_cases hb : e.background = true
  · rw [ledger_deleteInBackground hb]
    exact h.deleteNew (d := ⟨e.nextNo, id, e.now, _, none⟩) hnew rfl
  · rw [ledger_deleteInBackground_of_not hb]
    refine (h.learn id).account fun ids hids => ?_
    obtain ⟨ids, hin, rfl⟩ := Option.map_eq_some_iff.mp hids
    exact (h.accounts ids hin).growWithout hb hnew

theorem invalidate_of_find? {id : SessionId} {t : Tracked} (ht : e.pool.find? id = some t) :
    e.invalidate c id = (e.withPool (e.pool.discard id)).retire c id t "invalidated" := by
  unfold invalidate Pool.remove
  rw [ht]
  rfl

theorem invalidate_of_none {id : SessionId} (hnone : e.pool.find? id = none) :
    e.invalidate c id = e := by
  unfold invalidate Pool.remove
  rw [hnone]

/-- A lease that comes back on a session which is not tracked changes nothing. -/
theorem giveBack_of_none {id : SessionId} (hnone : e.pool.find? id = none) : e.giveBack c id = e := by
  unfold giveBack Pool.release
  rw [hnone]

/-- A lease that is lost on a session which is not tracked is only reported. -/
theorem ledger_loseLease_of_none {id : SessionId} (hnone : e.pool.find? id = none) :
    (e.loseLease c id).ledger = e.ledger := by
  rw [loseLease, invalidate_of_none (by exact hnone), ledger_report]

theorem pool_retire (e : Engine ε α) (c : Setup) (id : SessionId) (t : Tracked) (reason : String) :
    (e.retire c id t reason).pool = e.pool := by
  unfold retire deleteInBackground
  split <;> rfl

/-- Giving up a session keeps the balance, whoever leases it. -/
theorem sound_invalidate (h : e.ledger.Sound limit known kept leases creations) (id : SessionId) :
    (e.invalidate c id).ledger.Sound limit known kept leases creations := by
  cases ht : e.pool.find? id with
  | none => rwa [invalidate_of_none ht]
  | some t =>
    rw [invalidate_of_find? ht]
    exact sound_retire h ht "invalidated"

/-- A session that is given up is not tracked any more. -/
theorem find?_invalidate (e : Engine ε α) (c : Setup) (id : SessionId) :
    (e.invalidate c id).pool.find? id = none := by
  cases ht : e.pool.find? id with
  | none => rw [invalidate_of_none ht, ht]
  | some t =>
    rw [invalidate_of_find? ht, pool_retire, withPool_pool, Pool.find?_discard, if_pos rfl]

/-- A lease whose session is given up need not be counted any more. -/
theorem sound_invalidate_lease {k : Handle}
    (h : e.ledger.Sound limit known kept (k :: leases) creations) :
    (e.invalidate c k.id).ledger.Sound limit known kept leases creations :=
  (sound_invalidate h k.id).forget (find?_invalidate e c k.id)

/-- Giving a lease back keeps the balance. -/
theorem sound_giveBack {k : Handle} (h : e.ledger.Sound limit known kept (k :: leases) creations) :
    (e.giveBack c k.id).ledger.Sound limit known kept leases creations := by
  unfold giveBack Pool.release
  cases ht : e.pool.find? k.id with
  | none => exact h.forget ht
  | some t =>
    have hleased : t.use = .leased := h.lent.use_of_lease k List.mem_cons_self t ht
    simp only [if_pos hleased]
    by_cases halive : e.isAlive t.flag = true
    · rw [if_pos halive]
      exact h.takeBack ht rfl rfl
    · rw [if_neg halive]
      -- a leased session does not lie on the idle stack, so nothing has to be taken off it
      have hidle : e.pool.idle.filter (· ≠ k.id) = e.pool.idle := by
        refine List.filter_eq_self.mpr fun x hx => ?_
        have : x ≠ k.id := by
          rintro rfl
          obtain ⟨u, hu, huse⟩ := (h.tables.mem_idle k.id).mp hx
          rw [show e.ledger.pool.find? k.id = e.pool.find? k.id from rfl, ht,
            Option.some.injEq] at hu
          rw [← hu, hleased] at huse
          cases huse
        simpa using this
      have hdiscard : ({ e.pool with active := Pool.without k.id e.pool.active } : Pool)
          = e.pool.discard k.id := by
        rw [Pool.discard, hidle]
      rw [hdiscard]
      refine (sound_retire h ht _).forget ?_
      rw [show (Engine.ledger _).pool = (Engine.retire _ c k.id t _).pool from rfl, pool_retire,
        withPool_pool, Pool.find?_discard, if_pos rfl]

/-! ## Admission -/

/-- Taking dead sessions off the idle stack down to a live one, which is leased, keeps the balance. -/
theorem sound_popIdle (alive : FlagNo → Bool) (now : Nat) (c : Setup) (reason : String) :
    ∀ (idle : List SessionId) (e : Engine ε α), e.pool.idle = idle →
      e.ledger.Sound limit known kept leases creations →
      ((e.retireAll c reason (Pool.popIdle alive now idle e.pool.active).dead).withPool
          ((Pool.popIdle alive now idle e.pool.active).tables e.pool)).ledger.Sound limit known kept
        ((Pool.popIdle alive now idle e.pool.active).lease?.toList ++ leases) creations := by
  intro idle
  induction idle with
  | nil =>
    intro e hidle h
    have hpool : (Pool.popIdle alive now [] e.pool.active).tables e.pool = e.pool := by
      rw [Pool.popIdle, Pool.Popped.tables, ← hidle]
    rw [hpool]
    exact h
  | cons id rest ih =>
    intro e hidle h
    obtain ⟨t, ht, -⟩ := (h.tables.mem_idle id).mp (show id ∈ e.pool.idle by rw [hidle]; simp)
    rw [show e.ledger.pool.find? id = e.pool.active.lookup id from rfl] at ht
    by_cases halive : alive t.flag = true
    · simp only [Pool.popIdle, ht, if_pos halive, retireAll_nil]
      exact h.lend { t with use := .leased, lastAccess := now } hidle ht rfl rfl t.node
    · simp only [Pool.popIdle, ht, if_neg halive, retireAll_cons]
      -- the dead session on top is retired first; the rest is done by the pool that is left
      have hrest : e.pool.idle.filter (· ≠ id) = rest := by
        have hnd : (id :: rest).Nodup := hidle ▸ h.tables.idle_nodup
        rw [hidle, List.filter_cons_of_neg (by simp)]
        refine List.filter_eq_self.mpr fun x hx => ?_
        have : x ≠ id := fun he => (List.nodup_cons.mp hnd).1 (he ▸ hx)
        simpa using this
      have hstep := ih _ (by rw [pool_retire]; exact hrest) (sound_retire (c := c) h ht reason)
      rw [pool_retire, retire_withPool, retireAll_withPool] at hstep
      exact hstep

/-- What is found on the idle stack. -/
def search (e : Engine ε α) : Pool.Popped :=
  Pool.popIdle e.isAlive e.now e.pool.idle e.pool.active

/-- The pool after the idle stack has been searched. -/
def searched (e : Engine ε α) (c : Setup) : Engine ε α :=
  (e.retireAll c "died while idle" e.search.dead).withPool (e.search.tables e.pool)

/-- The pool when it has kept a place for a creation. -/
def reserved (e : Engine ε α) : Engine ε α :=
  e.withPool { e.pool with pending := e.pool.pending + 1 }

theorem sound_searched (h : e.ledger.Sound limit known kept leases creations) :
    (e.searched c).ledger.Sound limit known kept (e.search.lease?.toList ++ leases) creations :=
  sound_popIdle e.isAlive e.now c "died while idle" e.pool.idle e rfl h

/-! ## Closing -/

/-- A closing deletes the sessions that have left the tables. -/
def dismissAll (e : Engine ε α) (c : Setup) (no : TaskNo) (gone : List (SessionId × Tracked)) :
    Engine ε α :=
  gone.foldl (fun e (id, t) => (e.stopMonitor t.flag).startDeletion c id (some no)) e

theorem dismissAll_cons (e : Engine ε α) (c : Setup) (no : TaskNo) (x : SessionId × Tracked)
    (gone : List (SessionId × Tracked)) :
    e.dismissAll c no (x :: gone)
      = ((e.stopMonitor x.2.flag).startDeletion c x.1 (some no)).dismissAll c no gone := rfl

theorem dismissAll_withPool (pool : Pool) (c : Setup) (no : TaskNo)
    (gone : List (SessionId × Tracked)) (e : Engine ε α) :
    (e.withPool pool).dismissAll c no gone = (e.dismissAll c no gone).withPool pool := by
  induction gone generalizing e with
  | nil => rfl
  | cons x gone ih =>
    rw [dismissAll_cons, dismissAll_cons, ← ih]
    rfl

/-- When all tracked sessions are dismissed one after the other, the balance is kept. -/
theorem sound_dismissAll (c : Setup) (no : TaskNo) :
    ∀ (gone : List (SessionId × Tracked)) (e : Engine ε α), e.pool.active = gone →
      e.ledger.Sound limit known kept leases creations →
      ((e.dismissAll c no gone).withPool { e.pool with idle := [], active := [] }).ledger.Sound limit
        known kept leases creations := by
  intro gone
  induction gone with
  | nil =>
    intro e hactive h
    have hidle : e.pool.idle = [] := by
      refine List.eq_nil_iff_forall_not_mem.mpr fun id hid => ?_
      obtain ⟨t, ht, -⟩ := (h.tables.mem_idle id).mp hid
      rw [show e.ledger.pool.find? id = e.pool.active.lookup id from rfl, hactive] at ht
      cases ht
    have hpool : { e.pool with idle := [], active := [] } = e.pool := by
      rw [← hidle, ← hactive]
    rw [hpool]
    exact h
  | cons x gone ih =>
    obtain ⟨id, t⟩ := x
    intro e hactive h
    have ht : e.pool.find? id = some t := by
      rw [Pool.find?, hactive, List.lookup_cons_self]
    have hnd : ((id, t) :: gone).map (·.1) |>.Nodup := by
      rw [← hactive]
      exact h.tables.names_nodup
    -- taking out the first session leaves the list of the others, since no name is tracked twice
    have hrest : Pool.without id e.pool.active = gone := by
      rw [hactive, Pool.without, List.filter_cons_of_neg (by simp)]
      refine List.filter_eq_self.mpr fun y hy => ?_
      have : y.1 ≠ id := fun he =>
        (List.nodup_cons.mp hnd).1 (List.mem_map.mpr ⟨y, hy, he⟩)
      simpa using this
    have hstep := ih (((e.withPool (e.pool.discard id)).stopMonitor t.flag).startDeletion c id (some no))
      hrest (h.discharge ht rfl rfl)
    rw [dismissAll_cons]
    rw [show ((e.withPool (e.pool.discard id)).stopMonitor t.flag).startDeletion c id (some no)
      = ((e.stopMonitor t.flag).startDeletion c id (some no)).withPool (e.pool.discard id) from rfl,
      dismissAll_withPool] at hstep
    exact hstep

/-! ## Nothing happens to the calls -/

/-- The calls wait where they waited, and callers hold the leases that they held. -/
structure SameHands (e e' : Engine ε α) : Prop where
  /-- The calls are the same. -/
  calls : e'.calls = e.calls
  /-- The leases of callers are the same. -/
  held : e'.held = e.held

theorem SameHands.trans {e e' e'' : Engine ε α} (h : SameHands e e') (h' : SameHands e' e'') :
    SameHands e e'' :=
  ⟨h'.calls.trans h.calls, h'.held.trans h.held⟩

theorem sameHands_deleteInBackground (e : Engine ε α) (c : Setup) (id : SessionId) :
    SameHands e (e.deleteInBackground c id) := by
  unfold deleteInBackground
  split
  · exact ⟨rfl, rfl⟩
  · exact ⟨rfl, rfl⟩

theorem sameHands_retire (e : Engine ε α) (c : Setup) (id : SessionId) (t : Tracked)
    (reason : String) : SameHands e (e.retire c id t reason) := by
  have hdeleted := sameHands_deleteInBackground ((e.stopMonitor t.flag).report .pool .debug
    "retiring session" [("session_id", id.text), ("node_id", toString t.node),
      ("reason", .quoted reason)]) c id
  exact ⟨hdeleted.calls, hdeleted.held⟩

theorem sameHands_retireAll (c : Setup) (reason : String) (gone : List (SessionId × Tracked))
    (e : Engine ε α) : SameHands e (e.retireAll c reason gone) := by
  induction gone generalizing e with
  | nil => exact ⟨rfl, rfl⟩
  | cons x gone ih => exact (sameHands_retire e c x.1 x.2 reason).trans (ih _)

theorem sameHands_searched (e : Engine ε α) (c : Setup) : SameHands e (e.searched c) := by
  have hretired := sameHands_retireAll c "died while idle" e.search.dead e
  exact ⟨hretired.calls, hretired.held⟩

theorem sameHands_invalidate (e : Engine ε α) (c : Setup) (id : SessionId) :
    SameHands e (e.invalidate c id) := by
  cases ht : e.pool.find? id with
  | none =>
    rw [invalidate_of_none ht]
    exact ⟨rfl, rfl⟩
  | some t =>
    rw [invalidate_of_find? ht]
    have hretired := sameHands_retire (e.withPool (e.pool.discard id)) c id t "invalidated"
    exact ⟨hretired.calls, hretired.held⟩

theorem sameHands_giveBack (e : Engine ε α) (c : Setup) (id : SessionId) :
    SameHands e (e.giveBack c id) := by
  unfold giveBack
  split
  · rename_i t pool _
    have hretired := sameHands_retire (e.withPool pool) c id t "released after keep-alive failure"
    exact ⟨hretired.calls, hretired.held⟩
  · exact ⟨rfl, rfl⟩

theorem sameHands_dismissAll (c : Setup) (no : TaskNo) (gone : List (SessionId × Tracked))
    (e : Engine ε α) : SameHands e (e.dismissAll c no gone) := by
  induction gone generalizing e with
  | nil => exact ⟨rfl, rfl⟩
  | cons x gone ih =>
    have hrest := ih ((e.stopMonitor x.2.flag).startDeletion c x.1 (some no))
    rw [dismissAll_cons]
    exact ⟨hrest.calls, hrest.held⟩

/-- With the same hands, a pool is at rest if it is sound against them. -/
theorem SameHands.atRest {e' : Engine ε α} (hands : SameHands e e')
    (h : e'.ledger.Sound limit known kept (e.held ++ Call.leases e.calls) (Call.creations e.calls)) :
    e'.ledger.AtRest limit known kept := by
  rw [← hands.calls, ← hands.held] at h
  exact h

/-! ## Leases that come back between two moves -/

theorem atRest_giveBack {k : Handle}
    (h : e.ledger.Sound limit known kept (k :: (e.held ++ Call.leases e.calls))
      (Call.creations e.calls)) : (e.giveBack c k.id).ledger.AtRest limit known kept :=
  (sameHands_giveBack e c k.id).atRest (sound_giveBack h)

theorem atRest_invalidate {k : Handle}
    (h : e.ledger.Sound limit known kept (k :: (e.held ++ Call.leases e.calls))
      (Call.creations e.calls)) : (e.invalidate c k.id).ledger.AtRest limit known kept :=
  (sameHands_invalidate e c k.id).atRest (sound_invalidate_lease h)

theorem atRest_loseLease {k : Handle}
    (h : e.ledger.Sound limit known kept (k :: (e.held ++ Call.leases e.calls))
      (Call.creations e.calls)) : (e.loseLease c k.id).ledger.AtRest limit known kept :=
  atRest_invalidate (e := e.report .lease .debug _ _) h

/-! ## Assessment -/

@[simp] theorem ledger_cancel (e : Engine ε α) (t : Token) : (e.cancel t).ledger = e.ledger := by
  unfold cancel
  split <;> rfl

@[simp] theorem ledger_observe (e : Engine ε α) (c : Setup) (role : Role) :
    (e.observe c role).ledger = e.ledger := by
  unfold observe
  rcases c.observer with _ | o
  · rfl
  · cases role
    all_goals
      dsimp only
      split
      · exact ledger_cancel _ _
      · rfl

/-- Assessing a failed attempt leaves the ledger as it is. -/
@[simp] theorem ledger_assess (e : Engine ε α) (c : Setup) (role : Role) (f : Fault) (a : Attempt) :
    (e.assess c role f a).2.ledger = e.ledger := by
  unfold assess
  dsimp only
  rw [ledger_observe]
  simp only [ledger]

/-! ## Calls that go on -/

variable {no : TaskNo}

/-- With the same hands, a call moves on with what it has in hand. -/
theorem SameHands.moving {e' : Engine ε α} {hand hand' : List Handle} {places places' : Nat}
    {known' : List SessionId} {kept' : Option (List SessionId)} (hands : SameHands e e')
    (h : e.ledger.Moving limit known kept no hand places)
    (hsound : e'.ledger.Sound limit known' kept'
      (hand' ++ (e.held ++ Call.leases (Call.except no e.calls)))
      (places' + Call.creations (Call.except no e.calls))) :
    e'.ledger.Moving limit known' kept' no hand' places' :=
  h.of_sound hands.calls hands.held hsound

theorem moving_giveBack {k : Handle} {places : Nat}
    (h : e.ledger.Moving limit known kept no [k] places) :
    (e.giveBack c k.id).ledger.Moving limit known kept no [] places :=
  (sameHands_giveBack e c k.id).moving h (sound_giveBack h.sound)

theorem moving_invalidate {k : Handle} {places : Nat}
    (h : e.ledger.Moving limit known kept no [k] places) :
    (e.invalidate c k.id).ledger.Moving limit known kept no [] places :=
  (sameHands_invalidate e c k.id).moving h (sound_invalidate_lease h.sound)

theorem moving_releasePending {hand : List Handle}
    (h : e.ledger.Moving limit known kept no hand 1) :
    e.releasePending.ledger.Moving limit known kept no hand 0 :=
  h.releasePending

theorem moving_searched {places : Nat} (h : e.ledger.Moving limit known kept no [] places) :
    (e.searched c).ledger.Moving limit known kept no e.search.lease?.toList places :=
  (sameHands_searched e c).moving h (sound_searched h.sound)

theorem moving_reserved {hand : List Handle} (h : e.ledger.Moving limit known kept no hand 0)
    (hroom : e.pool.active.length + e.pool.pending < limit) :
    e.reserved.ledger.Moving limit known kept no hand 1 := by
  have hsound := h.sound.reserve hroom
  rw [Nat.zero_add] at hsound
  exact h.of_sound rfl rfl hsound

/-- A call waits at a point that holds what the call has. -/
theorem atRest_moveTo {p : Point}
    (h : e.ledger.Moving limit known kept no p.lease?.toList p.places)
    (hclosed : p.closes = true → e.pool.closed = true)
    (hdrains : p = .draining false → 0 < e.pool.pending) :
    (e.moveTo no p).ledger.AtRest limit known kept := by
  refine h.wait ?_ ?_ ?_ hclosed hdrains
  · intro k hk
    rw [if_pos hk]
  · intro k
    split <;> rfl
  · intro k hk
    rw [if_neg hk]

theorem moving_countStart {hand : List Handle} {places : Nat}
    (h : e.ledger.Moving limit known kept no hand places) :
    (e.countStart no).ledger.Moving limit known kept no hand places := by
  let count : Call → Call := fun k => if k.no = no then { k with started := k.started + 1 } else k
  have hno : ∀ k, (count k).no = k.no := by
    intro k
    simp only [count]
    split <;> rfl
  have hpoint : ∀ k, (count k).point = k.point := by
    intro k
    simp only [count]
    split <;> rfl
  -- only the count of the call itself is changed, which the ledger does not look at
  have hexcept : Call.except no (e.calls.map count) = Call.except no e.calls :=
    Call.except_map_update hno (fun k hk => if_neg hk) e.calls
  have hnos : (e.calls.map count).map (·.no) = e.calls.map (·.no) := by
    rw [List.map_map]
    exact List.map_congr_left fun k _ => hno k
  constructor
  · rw [show (e.countStart no).ledger.calls = e.calls.map count from rfl, hnos]
    exact h.mem
  · rw [show (e.countStart no).ledger.calls = e.calls.map count from rfl, hexcept]
    refine h.sound.withCalls _ ?_ ?_ ?_
    · exact (show ((e.calls.map count).map (·.no)).Sublist _ by rw [hnos]; exact List.Sublist.refl _)
    · intro k hk hc
      obtain ⟨k', hk', rfl⟩ := List.mem_map.mp hk
      exact h.sound.closed k' hk' (hpoint k' ▸ hc)
    · intro k hk hp
      obtain ⟨k', hk', rfl⟩ := List.mem_map.mp hk
      exact h.sound.drains k' hk' (hpoint k' ▸ hp)

/-- A lease goes to the caller or carries an attempt. -/
theorem atRest_lease {k : Handle} (h : e.ledger.Moving limit known kept no [k] 0) (client : Client) :
    (e.lease no client k).ledger.AtRest limit known kept := by
  cases client with
  | caller => exact h.handOver
  | attempt a =>
    exact atRest_moveTo (p := .operating a k e.now) (moving_countStart h)
      (fun hc => by cases hc) (fun hp => by cases hp)

theorem atRest_finish (h : e.ledger.Moving limit known kept no [] 0) (result : Except ε α) :
    (e.finish no result).ledger.AtRest limit known kept :=
  h.endCall

/-- The closing of a pool is announced, unless nothing was tracked. -/
def announceClosing (e : Engine ε α) : Engine ε α :=
  if e.pool.active.isEmpty then e
  else e.report .pool .info "closing session pool" [("sessions", toString e.pool.active.length)]

@[simp] theorem ledger_announceClosing (e : Engine ε α) : e.announceClosing.ledger = e.ledger := by
  unfold announceClosing
  split <;> rfl

/-- The closing of a pool dismisses all tracked sessions and waits for their deletions. -/
theorem beginClose_eq (e : Engine ε α) (c : Setup) (no : TaskNo) :
    e.beginClose c no = ((e.announceClosing.dismissAll c no e.pool.active).withPool
      { e.pool with idle := [], active := [], closed := true }).moveTo no .deleting := by
  rw [← dismissAll_withPool]
  unfold beginClose announceClosing Pool.close
  dsimp only
  split <;> rfl

/-- A closing that begins waits for its deletions, and the other calls wait where they waited. -/
theorem calls_beginClose (e : Engine ε α) (c : Setup) (no : TaskNo) :
    (e.beginClose c no).calls =
      e.calls.map fun k => if k.no = no then { k with point := .deleting } else k := by
  have hcalls : (e.announceClosing.dismissAll c no e.pool.active).calls = e.calls :=
    (sameHands_dismissAll c no _ _).calls.trans (congrArg Ledger.calls (ledger_announceClosing e))
  rw [beginClose_eq, ← hcalls]
  rfl

/-- A closing begins: all sessions leave the tables. -/
theorem atRest_beginClose (h : e.ledger.Moving limit known kept no [] 0) (c : Setup) :
    (e.beginClose c no).ledger.AtRest limit known kept := by
  rw [beginClose_eq]
  refine atRest_moveTo ?_ (fun _ => rfl) (fun hp => by cases hp)
  have hpool : e.announceClosing.pool = e.pool :=
    congrArg Ledger.pool (ledger_announceClosing e)
  have hsound := sound_dismissAll c no e.pool.active e.announceClosing (by rw [hpool])
    (by rw [ledger_announceClosing]; exact h.sound)
  rw [hpool] at hsound
  refine h.of_sound ?_ ?_ (hsound.shut rfl rfl)
  · exact (sameHands_dismissAll c no _ _).calls.trans
      (congrArg Ledger.calls (ledger_announceClosing e))
  · exact (sameHands_dismissAll c no _ _).held.trans
      (congrArg Ledger.held (ledger_announceClosing e))

/-- A closing that goes on leaves the deletions as they are. -/
theorem deletions_settle (e : Engine ε α) (no : TaskNo) : (e.settle no).deletions = e.deletions := by
  unfold settle
  split
  · rfl
  · split <;> rfl

/-- A closing waits on, or ends. -/
theorem atRest_settle (h : e.ledger.Moving limit known kept no [] 0)
    (hclosed : e.pool.closed = true) : (e.settle no).ledger.AtRest limit known kept := by
  unfold settle
  split
  · rename_i hpending
    exact atRest_moveTo (p := .draining false) h (fun _ => hclosed) fun _ => Nat.pos_of_ne_zero hpending
  · split
    · exact atRest_moveTo (p := .settling) h (fun _ => hclosed) (fun hp => by cases hp)
    · exact h.endCall

variable [PooledError ε]

/-- A closed pool rejects a caller who asks for a session. -/
theorem acquireFor_closed (hclosed : e.pool.closed = true) (token : Token) (client : Client) :
    e.acquireFor c no token client = e.reject no client .closed := by
  unfold acquireFor Pool.admission
  rw [if_pos hclosed]
  rfl

/-- An open pool leases what it finds on the idle stack, or else makes room for a creation. -/
theorem acquireFor_open (hopen : e.pool.closed = false) (token : Token) (client : Client) :
    e.acquireFor c no token client =
      match e.search.leased with
      | some (id, t) => (e.searched c).lease no client ⟨id, t.node, t.flag⟩
      | none =>
        if e.search.active.length + e.pool.pending < c.limit then
          (e.searched c).reserved.followCreation c no client
            (Loop.start (.first true) ((e.searched c).isCancelled token))
        else
          (e.searched c).reject no client
            (.exhausted e.search.active.length e.pool.pending c.limit) := by
  unfold acquireFor
  rw [Pool.admission_open hopen, show Pool.popIdle e.isAlive e.now e.pool.idle e.pool.active = e.search
    from rfl]
  -- retiring the dead sessions does not look at the tables
  have hretire : ∀ pool : Pool, ({ e with pool := pool } : Engine ε α).retireAll c "died while idle"
      e.search.dead = (e.retireAll c "died while idle" e.search.dead).withPool pool := fun pool =>
    retireAll_withPool pool c _ _ e
  cases hleased : e.search.leased with
  | some x =>
    simp only [hleased]
    rw [hretire]
    rfl
  | none =>
    by_cases hroom : e.search.active.length + e.pool.pending < c.limit
    · simp only [hleased, if_pos hroom]
      rw [hretire]
      rfl
    · simp only [hleased, if_neg hroom]
      rw [hretire]
      rfl

theorem atRest_reject (h : e.ledger.Moving limit known kept no [] 0) (client : Client)
    (p : PoolError) : (e.reject no client p).ledger.AtRest limit known kept := by
  cases client with
  | caller => exact h.endCall
  | attempt _ => exact atRest_finish h _

/-- A creation is tried again, waits, or fails and gives its place back. -/
theorem atRest_followCreation (h : e.ledger.Moving limit known kept no [] 1) (c : Setup)
    (client : Client) (next : Loop.Next RpcError) :
    (e.followCreation c no client next).ledger.AtRest limit known kept := by
  cases next with
  | attempt a =>
    exact atRest_moveTo (p := .creating client a e.now) h (fun hc => by cases hc)
      (fun hp => by cases hp)
  | pause a wake =>
    exact atRest_moveTo (p := .createPause client a wake) h (fun hc => by cases hc)
      (fun hp => by cases hp)
  | fail error =>
    have hfail : ∀ signals p, ((({ e with signals := signals } : Engine ε α).releasePending).reject no
        client p).ledger.AtRest limit known kept := fun signals p =>
      atRest_reject (moving_releasePending (by rw [ledger_signals]; exact h)) client p
    cases error with
    | cancelled => exact hfail e.signals _
    | transport code message => exact hfail _ _
    | status code message => exact hfail _ _

/-- A caller who asks for a session is given one, may create one, or is rejected. -/
theorem atRest_acquireFor (h : e.ledger.Moving c.limit known kept no [] 0) (token : Token)
    (client : Client) : (e.acquireFor c no token client).ledger.AtRest c.limit known kept := by
  by_cases hclosed : e.pool.closed = true
  · rw [acquireFor_closed hclosed]
    exact atRest_reject h client _
  · rw [acquireFor_open (by simpa using hclosed)]
    have hsearched := moving_searched (c := c) h
    cases hleased : e.search.leased with
    | some x =>
      rw [Pool.Popped.lease?, hleased] at hsearched
      exact atRest_lease hsearched client
    | none =>
      rw [Pool.Popped.lease?, hleased] at hsearched
      by_cases hroom : e.search.active.length + e.pool.pending < c.limit
      · simp only [if_pos hroom]
        exact atRest_followCreation (moving_reserved hsearched hroom) c client _
      · simp only [if_neg hroom]
        exact atRest_reject hsearched client _

/-- An operation is tried again, waits or ends. -/
theorem atRest_follow (h : e.ledger.Moving c.limit known kept no [] 0) (token : Token)
    (next : Loop.Next ε) : (e.follow c no token next).ledger.AtRest c.limit known kept := by
  cases next with
  | attempt a => exact atRest_acquireFor h token _
  | pause a wake =>
    exact atRest_moveTo (p := .pausing a wake) h (fun hc => by cases hc) (fun hp => by cases hp)
  | fail error => exact atRest_finish h _

/-- A session that the server has never named before is registered and leased, or is deleted because
the pool was closed meanwhile. -/
theorem atRest_register (h : e.ledger.Moving c.limit known kept no [] 1) {s : SessionInfo}
    (hnew : s.id ∉ known) (client : Client) :
    (e.register c no client s).ledger.AtRest c.limit (s.id :: known) (kept.map (s.id :: ·)) := by
  unfold register
  by_cases hclosed : e.pool.closed = true
  · simp only [if_pos hclosed]
    -- the deletion begins while the place is still kept, so that a closing waits for it
    let numbered : Engine ε α := { e with nextNo := e.nextNo + 1 }
    have hmoving : (numbered.deleteInBackground c s.id).ledger.Moving c.limit (s.id :: known)
        (kept.map (s.id :: ·)) no [] 1 :=
      h.of_sound (sameHands_deleteInBackground numbered c s.id).calls
        (sameHands_deleteInBackground numbered c s.id).held
        (sound_deleteInBackground (e := numbered) h.sound.skipNo hnew c)
    exact atRest_reject (moving_releasePending hmoving) client .closed
  · simp only [if_neg hclosed]
    have hopen : e.pool.closed = false := by simpa using hclosed
    exact atRest_lease (h.register hopen hnew) client

end Engine

end PooledSessions
