import PooledSessions.Proofs.Pool.Handover
/-!
# A pool with a single call

When a pool is used by one call only, its tables are simple: between two attempts nothing is leased, so
every tracked session lies on the idle stack (`Pool.Unleased`), and during an attempt all of them do so
but the one that is leased (`Pool.Lends`).  The session of an attempt comes back on top of the stack
(`Pool.OnTop`), from where the next attempt takes it if it is still alive.

What the call itself sees of this is said by the course of the calls.
-/

namespace PooledSessions

/-! ## Tables -/

namespace Pool

/-- An open pool that neither lends nor creates a session: each tracked session lies on the idle stack. -/
structure Unleased (p : Pool) : Prop where
  /-- The pool is open. -/
  isOpen : p.closed = false
  /-- No creation is under way. -/
  pending : p.pending = 0
  /-- Each tracked session lies on the idle stack. -/
  idle : ∀ id t, p.find? id = some t → t.use = .idle ∧ id ∈ p.idle

/-- An open pool that lends one session and creates none. -/
structure Lends (k : Handle) (p : Pool) : Prop where
  /-- The pool is open. -/
  isOpen : p.closed = false
  /-- No creation is under way. -/
  pending : p.pending = 0
  /-- The session is tracked as leased. -/
  leased : ∃ t, p.find? k.id = some t ∧ t.use = .leased ∧ t.flag = k.flag ∧ t.node = k.node
  /-- Each other tracked session lies on the idle stack. -/
  idle : ∀ id t, id ≠ k.id → p.find? id = some t → t.use = .idle ∧ id ∈ p.idle

/-- The session of a lease that has come back lies on top of the idle stack. -/
def OnTop (k : Handle) (p : Pool) : Prop :=
  (∃ rest, p.idle = k.id :: rest) ∧
    ∃ t, p.find? k.id = some t ∧ t.flag = k.flag ∧ t.node = k.node

variable {p : Pool} {k : Handle} {alive : FlagNo → Bool} {now : Nat}

theorem active_eq_nil_of_lookup {active : List (SessionId × Tracked)}
    (h : ∀ id, active.lookup id = none) : active = [] := by
  cases active with
  | nil => rfl
  | cons x active =>
    have hx := h x.1
    rw [List.lookup_cons_self] at hx
    cases hx

/-! ### Searching the idle stack -/

/-- If nothing is found where all tracked sessions lie on the idle stack, no session is left. -/
theorem popIdle_of_leased_eq_none {idle : List SessionId} {active : List (SessionId × Tracked)}
    (h : ∀ id t, active.lookup id = some t → id ∈ idle)
    (hnone : (popIdle alive now idle active).leased = none) :
    (popIdle alive now idle active).active = [] ∧ (popIdle alive now idle active).idle = [] := by
  -- the stack loses its top in every step; a session that is retired leaves the tracked ones as well
  induction idle generalizing active with
  | nil =>
    refine ⟨active_eq_nil_of_lookup fun id => ?_, rfl⟩
    refine Option.eq_none_iff_forall_ne_some.mpr fun t ht => ?_
    exact List.not_mem_nil (h id t ht)
  | cons top idle ih =>
    cases htop : active.lookup top with
    | none =>
      rw [popIdle_cons_of_none htop] at hnone ⊢
      refine ih (fun id t ht => ?_) hnone
      rcases List.mem_cons.mp (h id t ht) with rfl | hin
      · rw [htop] at ht
        cases ht
      · exact hin
    | some u =>
      cases halive : alive u.flag with
      | true =>
        rw [popIdle_cons_of_alive htop halive] at hnone
        cases hnone
      | false =>
        rw [popIdle_cons_of_dead htop halive] at hnone ⊢
        refine ih (fun id t ht => ?_) hnone
        obtain ⟨hne, ht⟩ := lookup_of_lookup_without ht
        exact List.mem_of_ne_of_mem hne (h id t ht)

/-- The session that is found is tracked as leased, and each other one that is left lies on the rest of
the stack. -/
theorem popIdle_of_leased_eq_some {idle : List SessionId} {active : List (SessionId × Tracked)}
    (h : ∀ id t, active.lookup id = some t → t.use = .idle ∧ id ∈ idle) {id : SessionId} {t : Tracked}
    (hsome : (popIdle alive now idle active).leased = some (id, t)) :
    (popIdle alive now idle active).active.lookup id = some t ∧ t.use = .leased ∧
      ∀ k u, k ≠ id → (popIdle alive now idle active).active.lookup k = some u →
        u.use = .idle ∧ k ∈ (popIdle alive now idle active).idle := by
  induction idle generalizing active with
  | nil => cases hsome
  | cons top idle ih =>
    cases htop : active.lookup top with
    | none =>
      rw [popIdle_cons_of_none htop] at hsome ⊢
      refine ih (fun k u hu => ⟨(h k u hu).1, ?_⟩) hsome
      rcases List.mem_cons.mp (h k u hu).2 with rfl | hin
      · rw [htop] at hu
        cases hu
      · exact hin
    | some u =>
      cases halive : alive u.flag with
      | true =>
        rw [popIdle_cons_of_alive htop halive] at hsome ⊢
        cases hsome
        refine ⟨by rw [lookup_changed, if_pos rfl, htop, Option.map_some], rfl, fun k v hne hv => ?_⟩
        rw [lookup_changed, if_neg hne] at hv
        exact ⟨(h k v hv).1, List.mem_of_ne_of_mem hne (h k v hv).2⟩
      | false =>
        rw [popIdle_cons_of_dead htop halive] at hsome ⊢
        refine ih (fun k v hv => ?_) hsome
        obtain ⟨hne, hv⟩ := lookup_of_lookup_without hv
        exact ⟨(h k v hv).1, List.mem_of_ne_of_mem hne (h k v hv).2⟩

/-- A session on top of the stack is found if it is alive. -/
theorem OnTop.lease?_of_alive (h : p.OnTop k) (halive : alive k.flag = true) :
    (popIdle alive now p.idle p.active).lease? = some k := by
  obtain ⟨⟨rest, hidle⟩, t, ht, hflag, hnode⟩ := h
  rw [hidle, popIdle_cons_of_alive ht (hflag ▸ halive), Popped.lease?, Option.map_some]
  simp only [hflag, hnode]

/-- A session on top of the stack is not found if it is dead. -/
theorem OnTop.id_ne_of_dead (h : p.OnTop k) (hdead : alive k.flag = false) {k' : Handle}
    (hfound : (popIdle alive now p.idle p.active).lease? = some k') : k'.id ≠ k.id := by
  obtain ⟨⟨rest, hidle⟩, t, ht, hflag, -⟩ := h
  rw [hidle, popIdle_cons_of_dead ht (hflag ▸ hdead), Popped.lease?] at hfound
  obtain ⟨⟨id, u⟩, hleased, rfl⟩ := Option.map_eq_some_iff.mp hfound
  obtain ⟨u₀, hu₀, -, -⟩ := alive_of_popIdle hleased
  exact (lookup_of_lookup_without hu₀).1

/-- A session that is not tracked is not found. -/
theorem id_ne_of_find?_eq_none {id : SessionId} (hnone : p.find? id = none) {k' : Handle}
    (hfound : (popIdle alive now p.idle p.active).lease? = some k') : k'.id ≠ id := by
  obtain ⟨⟨found, u⟩, hleased, rfl⟩ := Option.map_eq_some_iff.mp hfound
  obtain ⟨u₀, hu₀, -, -⟩ := alive_of_popIdle hleased
  rintro rfl
  rw [show p.active.lookup found = p.find? found from rfl, hnone] at hu₀
  cases hu₀

/-! ### Parting from the leased session -/

/-- A session that is given up leaves nothing leased. -/
theorem Lends.remove (h : p.Lends k) :
    (p.remove k.id).2.Unleased ∧ (p.remove k.id).2.find? k.id = none := by
  obtain ⟨t, ht, -⟩ := h.leased
  have hremove : (p.remove k.id).2 = p.discard k.id := by
    unfold Pool.remove
    rw [ht]
    rfl
  rw [hremove]
  refine ⟨⟨h.isOpen, h.pending, fun id u hu => ?_⟩, by rw [find?_discard, if_pos rfl]⟩
  obtain ⟨hne, hu⟩ := find?_of_find?_discard hu
  obtain ⟨huse, hin⟩ := h.idle id u hne hu
  exact ⟨huse, List.mem_filter.mpr ⟨hin, by simpa using hne⟩⟩

/-- A session that comes back alive lies on top of the stack. -/
theorem Lends.release_of_alive (h : p.Lends k) (halive : alive k.flag = true) (now : Nat) :
    (p.release k.id alive now).2.Unleased ∧ (p.release k.id alive now).2.OnTop k := by
  obtain ⟨t, ht, huse, hflag, hnode⟩ := h.leased
  have hrelease : (p.release k.id alive now).2 = { p with
      idle := k.id :: p.idle
      active := changed k.id { t with use := .idle, lastAccess := now } p.active } := by
    unfold Pool.release
    simp only [ht, if_pos huse, if_pos (hflag ▸ halive)]
  have hfind := find?_changed ht (k.id :: p.idle) { t with use := .idle, lastAccess := now }
  rw [hrelease]
  refine ⟨⟨h.isOpen, h.pending, fun id u hu => ?_⟩, ⟨p.idle, rfl⟩,
    { t with use := .idle, lastAccess := now }, by rw [hfind, if_pos rfl], hflag, hnode⟩
  rw [hfind] at hu
  split at hu
  · rename_i hid
    cases hu
    exact ⟨rfl, hid ▸ List.mem_cons_self⟩
  · rename_i hne
    exact (h.idle id u hne hu).imp_right (List.mem_cons_of_mem _)

/-- A session that comes back dead leaves the tables. -/
theorem Lends.release_of_dead (h : p.Lends k) (hdead : alive k.flag = false) (now : Nat) :
    (p.release k.id alive now).2.Unleased ∧ (p.release k.id alive now).2.find? k.id = none := by
  obtain ⟨t, ht, huse, hflag, -⟩ := h.leased
  have hrelease : (p.release k.id alive now).2 = { p with active := without k.id p.active } := by
    unfold Pool.release
    simp only [ht, if_pos huse, hflag ▸ hdead, Bool.false_eq_true, if_false]
  rw [hrelease]
  refine ⟨⟨h.isOpen, h.pending, fun id u hu => ?_⟩, by rw [find?, without, lookup_filter_ne, if_pos rfl]⟩
  obtain ⟨hne, hu⟩ := lookup_of_lookup_without hu
  exact h.idle id u hne hu

/-- A session that is registered where nothing else is tracked is the only one. -/
theorem lends_register {s : SessionInfo} {flag : FlagNo} (hactive : p.active = [])
    (hopen : p.closed = false) (hpending : p.pending = 0) : (p.register s flag now).Lends ⟨s.id, s.node, flag⟩ where
  isOpen := hopen
  pending := hpending
  leased := ⟨_, by rw [find?_register, if_pos rfl], rfl, rfl, rfl⟩
  idle := fun id t hne ht => by
    rw [find?_register, if_neg hne, find?, hactive] at ht
    cases ht

end Pool

namespace Engine

variable {ε α : Type} {c : Setup} {e e' : Engine ε α} {call : Call} {k : Handle}

/-! ## What the call sees -/

theorem call?_of_calls (hcalls : e.calls = [call]) : e.call? call.no = some call := by
  rw [call?, hcalls, List.find?_cons_of_pos (by simp)]

theorem eq_of_call? (hcalls : e.calls = [call]) {call' : Call} {no : TaskNo}
    (h : e.call? no = some call') : call' = call := by
  have hin := (mem_of_call? h).1
  rw [hcalls] at hin
  exact List.mem_singleton.mp hin

theorem course_moveTo (hcalls : e.calls = [call]) (p : Point) :
    (e.moveTo call.no p).course = { e.course with calls := [{ call with point := p }] } := by
  simp [course, moveTo, hcalls]

/-- A session is leased for an attempt, whose operation is started. -/
theorem course_lease (hcalls : e.calls = [call]) (a : Attempt) (k : Handle) :
    (e.lease call.no (.attempt a) k).course = { e.course with
      calls := [{ call with started := call.started + 1, point := .operating a k e.now }]
      told := e.course.told ++ [.operationStarted call.no k.info] } := by
  unfold lease
  rw [course_tell rfl]
  simp [course, moveTo, countStart, hcalls]

theorem course_finish (hcalls : e.calls = [call]) (result : Except ε α) :
    (e.finish call.no result).course = { e.course with
      calls := []
      told := e.course.told ++ [.executed call.no result] } := by
  unfold finish
  rw [course_tell rfl]
  simp [course, endCall, hcalls]

theorem course_beginCreation [PooledError ε] (hcalls : e.calls = [call]) (c : Setup) (client : Client)
    (a : Attempt) :
    (e.followCreation c call.no client (.attempt a)).course = { e.course with
      calls := [{ call with point := .creating client a e.now }]
      told := e.course.told ++ [.createBegun call.no] } := by
  unfold followCreation
  dsimp only
  rw [course_tell rfl, course_moveTo hcalls]

/-! ## Tables after each step of the call -/

theorem pool_giveBack (e : Engine ε α) (c : Setup) (id : SessionId) :
    (e.giveBack c id).pool = (e.pool.release id e.isAlive e.now).2 := by
  unfold giveBack
  split
  · rename_i t pool heq
    rw [pool_retire, heq]
  · rename_i pool heq
    rw [heq]

theorem pool_invalidate (e : Engine ε α) (c : Setup) (id : SessionId) :
    (e.invalidate c id).pool = (e.pool.remove id).2 := by
  unfold invalidate
  split
  · rename_i t pool heq
    rw [pool_retire, heq]
  · rename_i pool heq
    unfold Pool.remove at heq ⊢
    split at heq
    · cases heq
    · rfl

/-- The session of an attempt is not used again: its record blames it, or it is dead. -/
def Apart (r : AttemptRecord) (k : Handle) (e : Engine ε α) : Prop :=
  r.invalidatesSession = true ∨ e.isAlive k.flag = false

/-- Between two attempts the session of the first one lies on top of the idle stack, or it has left the
tables and is not used again. -/
def Rests (r : AttemptRecord) (k : Handle) (e : Engine ε α) : Prop :=
  (r.invalidatesSession = false ∧ e.pool.OnTop k) ∨ (e.pool.find? k.id = none ∧ e.Apart r k)

theorem unleased_giveBack (h : e.pool.Lends k) : (e.giveBack c k.id).pool.Unleased := by
  rw [pool_giveBack]
  cases halive : e.isAlive k.flag with
  | true => exact (h.release_of_alive halive e.now).1
  | false => exact (h.release_of_dead halive e.now).1

/-- A failed attempt parts from its session as its record says. -/
theorem rests_partFrom (h : e.pool.Lends k) (r : AttemptRecord) :
    (e.partFrom c k.id r.invalidatesSession).pool.Unleased ∧
      (e.partFrom c k.id r.invalidatesSession).Rests r k := by
  have halive : (e.partFrom c k.id r.invalidatesSession).isAlive = e.isAlive := by
    unfold isAlive
    rw [flags_of_course (course_partFrom e c k.id _)]
  unfold Rests Apart
  rw [halive]
  unfold partFrom
  cases hrecord : r.invalidatesSession with
  | true =>
    rw [if_pos rfl, pool_invalidate]
    exact ⟨h.remove.1, Or.inr ⟨h.remove.2, Or.inl rfl⟩⟩
  | false =>
    rw [if_neg (by simp), pool_giveBack]
    cases halive : e.isAlive k.flag with
    | true =>
      obtain ⟨hpool, htop⟩ := h.release_of_alive halive e.now
      exact ⟨hpool, Or.inl ⟨rfl, htop⟩⟩
    | false =>
      obtain ⟨hpool, hnone⟩ := h.release_of_dead halive e.now
      exact ⟨hpool, Or.inr ⟨hnone, Or.inr rfl⟩⟩

/-- The next attempt takes the session of the last one exactly if it is not apart. -/
theorem eq_iff_of_search {r : AttemptRecord} (h : e.Rests r k) {k' : Handle}
    (hfound : e.search.lease? = some k') :
    (k' = k ↔ r.invalidatesSession = false ∧ e.isAlive k.flag = true) ∧ (k' ≠ k → k'.id ≠ k.id) := by
  rcases h with ⟨hrecord, htop⟩ | ⟨hnone, hapart⟩
  · cases halive : e.isAlive k.flag with
    | true =>
      rw [search, htop.lease?_of_alive halive, Option.some.injEq] at hfound
      exact ⟨⟨fun _ => ⟨hrecord, rfl⟩, fun _ => hfound.symm⟩, fun hne => absurd hfound.symm hne⟩
    | false =>
      have hne := htop.id_ne_of_dead halive hfound
      exact ⟨⟨fun hsame => absurd (congrArg Handle.id hsame) hne, fun h => by cases h.2⟩, fun _ => hne⟩
  · have hne := Pool.id_ne_of_find?_eq_none hnone hfound
    refine ⟨⟨fun hsame => absurd (congrArg Handle.id hsame) hne, fun ⟨hrecord, halive⟩ => ?_⟩,
      fun _ => hne⟩
    rcases hapart with hblamed | hdead
    · rw [hrecord] at hblamed
      cases hblamed
    · rw [halive] at hdead
      cases hdead

/-- If nothing is found on the idle stack, the session of the last attempt is apart. -/
theorem apart_of_search {r : AttemptRecord} (h : e.Rests r k) (hnone : e.search.lease? = none) :
    e.Apart r k := by
  rcases h with ⟨-, htop⟩ | ⟨-, hapart⟩
  · cases halive : e.isAlive k.flag with
    | true =>
      rw [search, htop.lease?_of_alive halive] at hnone
      cases hnone
    | false => exact Or.inr halive
  · exact hapart

variable [PooledError ε]

/-- An attempt asks for a session: it is leased the one that is found on the idle stack, or else a session
is created, in an empty pool. -/
theorem acquireFor_of_unleased (hcalls : e.calls = [call]) (hpool : e.pool.Unleased)
    (hlimit : 1 ≤ c.limit) (hgo : e.isCancelled call.token = false) (a : Attempt) :
    let e' := e.acquireFor c call.no call.token (.attempt a)
    (∃ k, e.search.lease? = some k ∧ e'.pool.Lends k ∧
      e'.course = { e.course with
        calls := [{ call with started := call.started + 1, point := .operating a k e.now }]
        told := e.course.told ++ [.operationStarted call.no k.info] }) ∨
    (e.search.lease? = none ∧ e'.pool = ⟨[], [], 1, false⟩ ∧
      e'.course = { e.course with
        calls := [{ call with point := .creating (.attempt a) (.first true) e.now }]
        told := e.course.told ++ [.createBegun call.no] }) := by
  have hcourse := course_searched e c
  have hcalls' : (e.searched c).calls = [call] := (calls_of_course hcourse).trans hcalls
  have hnow : (e.searched c).now = e.now := congrArg Course.now hcourse
  have hgo' : (e.searched c).isCancelled call.token = false := by
    rw [isCancelled, cancelled_of_course hcourse]
    exact hgo
  dsimp only
  rw [acquireFor_open hpool.isOpen]
  cases hleased : e.search.leased with
  | some x =>
    obtain ⟨id, t⟩ := x
    obtain ⟨htracked, huse, hothers⟩ := Pool.popIdle_of_leased_eq_some hpool.idle hleased
    refine Or.inl ⟨⟨id, t.node, t.flag⟩, by rw [Pool.Popped.lease?, hleased]; rfl, ?_, ?_⟩
    · exact ⟨hpool.isOpen, hpool.pending, ⟨t, htracked, huse, rfl, rfl⟩, fun k u hne => hothers k u hne⟩
    · dsimp only
      rw [course_lease hcalls', hcourse, hnow]
  | none =>
    -- all tracked sessions are idle, so that nothing is left if none of them is alive
    have htracked : ∀ id t, e.pool.active.lookup id = some t → id ∈ e.pool.idle := fun id t ht =>
      (hpool.idle id t ht).2
    obtain ⟨hactive, hidle⟩ := Pool.popIdle_of_leased_eq_none htracked hleased
    -- the creation takes the only place that the limit is sure to give
    have hroom : e.search.active.length + e.pool.pending < c.limit := by
      rw [show e.search.active = [] from hactive, hpool.pending]
      exact hlimit
    refine Or.inr ⟨by rw [Pool.Popped.lease?, hleased]; rfl, ?_, ?_⟩
    · dsimp only
      rw [if_pos hroom, hgo']
      show Pool.mk e.search.idle e.search.active (e.pool.pending + 1) e.pool.closed = _
      rw [show e.search.active = [] from hactive, show e.search.idle = [] from hidle, hpool.pending,
        hpool.isOpen]
    · dsimp only
      rw [if_pos hroom, hgo']
      rw [show Loop.start (.first true) false = (.attempt (.first true) : Loop.Next RpcError) from rfl,
        course_beginCreation (e := (e.searched c).reserved) hcalls', course_reserved, hcourse,
        show (e.searched c).reserved.now = e.now from hnow]

omit [PooledError ε] in
/-- The place of a creation is given back by the only call. -/
theorem calls_releasePending (hcalls : e.calls = [call]) {client : Client} {a : Attempt} {since : Nat}
    (hpoint : call.point = .creating client a since) : e.releasePending.calls = [call] := by
  unfold releasePending
  dsimp only
  split
  · simp [hcalls, hpoint]
  · exact hcalls

/-- A session that is created in an empty pool is registered and leased for the attempt. -/
theorem register_of_empty (hcalls : e.calls = [call]) {client : Client} {b : Attempt} {since : Nat}
    (hpoint : call.point = .creating client b since) (hpool : e.pool = ⟨[], [], 1, false⟩)
    (c : Setup) (a : Attempt) (s : SessionInfo) :
    let e' := e.register c call.no (.attempt a) s
    e'.pool.Lends ⟨s.id, s.node, e.nextNo⟩ ∧ e'.nextNo = e.nextNo + 1 ∧
      e'.course = { e.course with
        calls := [{ call with
          started := call.started + 1
          point := .operating a ⟨s.id, s.node, e.nextNo⟩ e.now }]
        told := e.course.told ++ [.operationStarted call.no s] } := by
  -- the place of the creation is given back first, and then the session is registered
  have hcalls' : ({ e with nextNo := e.nextNo + 1 } : Engine ε α).releasePending.calls = [call] :=
    calls_releasePending (e := { e with nextNo := e.nextNo + 1 }) hcalls hpoint
  have hreleased : ({ e with nextNo := e.nextNo + 1 } : Engine ε α).releasePending.pool =
      ⟨[], [], 0, false⟩ := by
    show e.pool.releasePending = _
    rw [hpool]
    rfl
  have hcourse : ({ e with nextNo := e.nextNo + 1 } : Engine ε α).releasePending.course = e.course := by
    rw [course, hcalls', ← hcalls]
    rfl
  have hopen : ¬ e.pool.closed = true := by rw [hpool]; simp
  unfold register
  dsimp only
  rw [if_neg hopen]
  refine ⟨?_, rfl, ?_⟩
  · exact Pool.lends_register (congrArg Pool.active hreleased) (congrArg Pool.closed hreleased)
      (congrArg Pool.pending hreleased)
  · rw [course_lease (by exact hcalls'), course_report]
    show Course.mk _ _ _ _ _ _ _ = _
    simp only [← hcourse]
    rfl

end Engine

/-! ## While the call waits -/

variable {ε α : Type}

/-- For how many milliseconds the clock goes on in a move that neither a call nor a caller makes. -/
def Move.passes? : Move ε α → Option Nat
  | .attached .. => some 0
  | .heard .. => some 0
  | .streamEnded _ => some 0
  | .deleted .. => some 0
  | .deletionExpired _ => some 0
  | .cancel _ => some 0
  | .advance millis => some millis
  | _ => none

namespace Engine

variable {c : Setup} {e e' : Engine ε α}

/-- What monitors, deletions, cancelled tokens and the clock leave alone. -/
structure Aside (millis : Nat) (e e' : Engine ε α) : Prop where
  /-- The tables stay as they are. -/
  pool : e'.pool = e.pool
  /-- Nothing is told about calls, but a token may be cancelled, a session may die, and time passes. -/
  course : e'.course = { e.course with
    cancelled := e'.cancelled
    flags := e'.flags
    now := e.now + millis }
  /-- No number is given away. -/
  nextNo : e'.nextNo = e.nextNo
  /-- Dead sessions stay dead. -/
  dead : ∀ n, e.isAlive n = false → e'.isAlive n = false

/-- Only the flag of the session changes when a monitor finds it dead. -/
theorem course_condemn (e : Engine ε α) (m : Monitor) (reason : String) :
    (e.condemn m reason).course = { e.course with flags := (e.flags.markDead m.no).2 } ∧
      (e.condemn m reason).pool = e.pool ∧ (e.condemn m reason).nextNo = e.nextNo := by
  unfold condemn
  dsimp only
  split
  · exact ⟨course_report _ _ _ _ _, rfl, rfl⟩
  · exact ⟨rfl, rfl, rfl⟩

variable [PooledError ε]

theorem aside_of_step {m : Move ε α} {millis : Nat} (hpasses : m.passes? = some millis)
    (hstep : e.step c m = some e') : Aside millis e e' := by
  -- flags only die beside the call
  have hdead : ∀ n, e.isAlive n = false → e'.isAlive n = false := fun n hn => by
    cases halive : e'.isAlive n with
    | false => rfl
    | true => rw [← hn, (leadsTo_of_step hstep).alive n halive]
  have hcondemn : ∀ (k : Monitor) (reason : String), e' = e.condemn k reason → Aside 0 e e' := by
    rintro k reason rfl
    obtain ⟨hcourse, hpool, hnextNo⟩ := course_condemn e k reason
    refine ⟨hpool, ?_, hnextNo, hdead⟩
    rw [flags_of_course (e := { e with flags := (e.flags.markDead k.no).2 }) hcourse,
      cancelled_of_course (e := { e with flags := (e.flags.markDead k.no).2 }) hcourse, hcourse]
    rfl
  cases makes_of_step hstep with
  | attached k result =>
    cases hpasses
    cases result with
    | ok stream => exact ⟨rfl, rfl, rfl, hdead⟩
    | error error => exact hcondemn k _ rfl
  | heard k message =>
    cases hpasses
    rcases message with error | status
    · exact hcondemn k _ rfl
    · cases status with
      | ready => exact ⟨rfl, rfl, rfl, hdead⟩
      | unusable code => exact hcondemn k _ rfl
  | streamEnded k =>
    cases hpasses
    exact hcondemn k _ rfl
  | deleted d result =>
    cases hpasses
    cases result with
    | ok _ => exact ⟨rfl, course_report _ _ _ _ _, rfl, hdead⟩
    | error _ => exact ⟨rfl, course_report _ _ _ _ _, rfl, hdead⟩
  | deletionExpired d =>
    cases hpasses
    exact ⟨rfl, course_report _ _ _ _ _, rfl, hdead⟩
  | cancel token =>
    cases hpasses
    refine ⟨?_, ?_, ?_, hdead⟩
    all_goals
      unfold cancel
      split <;> rfl
  | advance millis =>
    cases hpasses
    exact ⟨rfl, rfl, rfl, hdead⟩
  | _ => cases hpasses

end Engine

end PooledSessions
