import PooledSessions.Proofs.Pool.Cancellation
import PooledSessions.Proofs.Pool.Exhaustion
import PooledSessions.Proofs.Pool.Itinerary
import PooledSessions.Proofs.Pool.Returns
/-!
# Executions among themselves

Where nobody cancels, nobody acts on the pool from outside and creations succeed, executions leave each
other alone: a session that carries an attempt stays in the tables until that attempt ends
(`Engine.settled_of_step`).  A session leaves the tables only when its own lease comes back or while it is
idle.  Nor does such a move close the pool, unless it begins a closing, or cancel a token.
-/

namespace PooledSessions

variable {ε α : Type}

/-- Whether a move is one that a pool makes of its own accord while the server creates and deletes what it is
asked for. -/
def Move.isCalm : Move ε α → Bool
  | .start _ => true
  | .created _ (.ok _) => true
  | .operated _ cancels _ => !cancels
  | .woken _ => true
  | .proceed _ => true
  | .attached _ _ => true
  | .heard _ _ => true
  | .streamEnded _ => true
  | .deleted _ _ => true
  | _ => false

/-- The search on the idle stack removes only sessions that lie there. -/
theorem Pool.mem_names_popIdle {alive : FlagNo → Bool} {now : Nat} {id : SessionId} {idle : List SessionId}
    (hidle : id ∉ idle) {active : List (SessionId × Tracked)} (hid : id ∈ active.map (·.1)) :
    id ∈ (popIdle alive now idle active).active.map (·.1) := by
  induction idle generalizing active with
  | nil => exact hid
  | cons top idle ih =>
    obtain ⟨hne, hidle⟩ := not_or.mp (mt List.mem_cons.mpr hidle)
    cases htop : active.lookup top with
    | none =>
      rw [popIdle_cons_of_none htop]
      exact ih hidle hid
    | some t =>
      cases halive : alive t.flag with
      | true =>
        rw [popIdle_cons_of_alive htop halive, map_fst_changed]
        exact hid
      | false =>
        rw [popIdle_cons_of_dead htop halive]
        refine ih hidle ?_
        obtain ⟨x, hx, rfl⟩ := List.mem_map.mp hid
        exact List.mem_map_of_mem (List.mem_filter.mpr ⟨hx, by simpa using hne⟩)

/-- A session that is found on the idle stack stays tracked. -/
theorem Pool.mem_names_of_leased {alive : FlagNo → Bool} {now : Nat} {id : SessionId} {t : Tracked}
    {idle : List SessionId} {active : List (SessionId × Tracked)}
    (hleased : (popIdle alive now idle active).leased = some (id, t)) :
    id ∈ (popIdle alive now idle active).active.map (·.1) := by
  induction idle generalizing active with
  | nil => cases hleased
  | cons top idle ih =>
    cases htop : active.lookup top with
    | none =>
      rw [popIdle_cons_of_none htop] at hleased ⊢
      exact ih hleased
    | some u =>
      cases halive : alive u.flag with
      | true =>
        rw [popIdle_cons_of_alive htop halive] at hleased ⊢
        cases hleased
        rw [map_fst_changed]
        exact List.mem_map_of_mem (f := Prod.fst) (mem_of_lookup htop)
      | false =>
        rw [popIdle_cons_of_dead htop halive] at hleased ⊢
        exact ih hleased

/-- When a lease comes back, the other sessions stay tracked. -/
theorem Pool.release_spares (p : Pool) (id : SessionId) (alive : FlagNo → Bool) (now : Nat) :
    (p.release id alive now).2.closed = p.closed ∧
      ∀ k ∈ p.names, k ≠ id → k ∈ (p.release id alive now).2.names := by
  unfold release
  repeat' split
  · exact ⟨rfl, fun k hk _ => by rwa [names, map_fst_changed]⟩
  · exact ⟨rfl, fun k hk hne => names_discard p id ▸ List.mem_filter.mpr ⟨hk, by simpa using hne⟩⟩
  · exact ⟨rfl, fun k hk _ => hk⟩
  · exact ⟨rfl, fun k hk _ => hk⟩

namespace Engine

variable {c : Setup} {b e e' : Engine ε α} {ids : List SessionId} {no : TaskNo} {id : SessionId}

/-- The pool is open, and of the sessions none is idle and all are tracked. -/
structure Secures (ids : List SessionId) (e : Engine ε α) : Prop where
  /-- The pool is open. -/
  isOpen : e.pool.closed = false
  /-- The sessions are tracked. -/
  tracked : ∀ id ∈ ids, id ∈ e.pool.names
  /-- None of them is idle. -/
  busy : ∀ id ∈ ids, id ∉ e.pool.idle

/-- The lease that carries a call is on a tracked session. -/
def Carried (no : TaskNo) (e : Engine ε α) : Prop :=
  ∀ call ∈ e.calls, call.no = no → ∀ k ∈ call.point.lease?, k.id ∈ e.pool.names

namespace Secures

theorem of_pool (h : e.Secures ids) (hpool : e'.pool = e.pool) : e'.Secures ids :=
  ⟨hpool ▸ h.isOpen, hpool ▸ h.tracked, hpool ▸ h.busy⟩

theorem retire (h : e.Secures ids) (c : Setup) (id : SessionId) (t : Tracked) (reason : String) :
    (e.retire c id t reason).Secures ids :=
  h.of_pool (pool_retire e c id t reason)

theorem discard (h : e.Secures ids) (hid : id ∉ ids) : (e.withPool (e.pool.discard id)).Secures ids where
  isOpen := h.isOpen
  tracked := fun k hk => by
    rw [withPool_pool, Pool.names_discard]
    exact List.mem_filter.mpr ⟨h.tracked k hk, by simpa using fun hsame : k = id => hid (hsame ▸ hk)⟩
  busy := fun k hk hidle => h.busy k hk (List.mem_filter.mp hidle).1

theorem invalidate (h : e.Secures ids) (hid : id ∉ ids) (c : Setup) : (e.invalidate c id).Secures ids := by
  cases ht : e.pool.find? id with
  | none => rwa [invalidate_of_none ht]
  | some t =>
    rw [invalidate_of_find? ht]
    exact (h.discard hid).retire c id t _

theorem giveBack (h : e.Secures ids) (hid : id ∉ ids) (c : Setup) : (e.giveBack c id).Secures ids := by
  obtain ⟨hclosed, hnames⟩ := e.pool.release_spares id e.isAlive e.now
  refine ⟨?_, fun k hk => ?_, fun k hk hidle => ?_⟩
  · rw [pool_giveBack, hclosed]
    exact h.isOpen
  · rw [pool_giveBack]
    exact hnames k (h.tracked k hk) fun hsame => hid (hsame ▸ hk)
  · rcases List.mem_cons.mp ((e.idle_giveBack c id).subset hidle) with rfl | hidle
    · exact hid hk
    · exact h.busy k hk hidle

theorem searched (h : e.Secures ids) (c : Setup) : (e.searched c).Secures ids where
  isOpen := h.isOpen
  tracked := fun k hk => Pool.mem_names_popIdle (h.busy k hk) (h.tracked k hk)
  busy := fun k hk hidle => h.busy k hk (e.idle_search.subset hidle)

theorem reserved (h : e.Secures ids) : e.reserved.Secures ids := ⟨h.isOpen, h.tracked, h.busy⟩

theorem releasePending (h : e.Secures ids) : e.releasePending.Secures ids := ⟨h.isOpen, h.tracked, h.busy⟩

theorem assess (h : e.Secures ids) (c : Setup) (role : Role) (f : Fault) (a : Attempt) :
    (e.assess c role f a).2.Secures ids :=
  h.of_pool (pool_assess e c role f a)

end Secures

/-! ## The call that moves -/

theorem carried_of_hasEnded (hended : e.HasEnded no) : e.Carried no :=
  fun call hcall hno => absurd hno (hended call hcall)

theorem hasEnded_endCall (e : Engine ε α) (no : TaskNo) : (e.endCall no).HasEnded no := by
  intro call hcall
  simpa using (List.mem_filter.mp hcall).2

/-- A call that waits at a point holds the lease of that point. -/
theorem carried_moveTo (e : Engine ε α) (no : TaskNo) {p : Point} (hp : ∀ k ∈ p.lease?, k.id ∈ e.pool.names) :
    (e.moveTo no p).Carried no := by
  intro call hcall hno k hk
  obtain ⟨call₀, -, rfl⟩ := List.mem_map.mp hcall
  by_cases hsame : call₀.no = no
  · rw [if_pos hsame] at hk
    exact hp k hk
  · rw [if_neg hsame] at hno
    exact absurd hno hsame

/-- The sessions of others are secure, and if the call carries on with a lease, its session is tracked. -/
structure Settled (ids : List SessionId) (no : TaskNo) (e : Engine ε α) : Prop where
  /-- The sessions of others are secure. -/
  secures : e.Secures ids
  /-- The session of the call is tracked. -/
  carried : e.Carried no

namespace Secures

theorem finish (h : e.Secures ids) (no : TaskNo) (result : Except ε α) : (e.finish no result).Settled ids no :=
  ⟨h.of_pool rfl, carried_of_hasEnded (hasEnded_endCall e no)⟩

theorem moveTo (h : e.Secures ids) (no : TaskNo) {p : Point} (hp : p.lease? = none) :
    (e.moveTo no p).Settled ids no :=
  ⟨h.of_pool rfl, carried_moveTo e no fun k hk => by rw [hp] at hk; cases hk⟩

theorem lease (h : e.Secures ids) (no : TaskNo) (client : Client) {k : Handle} (hk : k.id ∈ e.pool.names) :
    (e.lease no client k).Settled ids no := by
  refine ⟨h.of_pool (pool_lease e no client k), ?_⟩
  cases client with
  | caller => exact carried_of_hasEnded (hasEnded_endCall e no)
  | attempt a =>
    refine carried_moveTo (e.countStart no) no fun k' hk' => ?_
    rw [← Option.some.inj hk']
    exact hk

variable [PooledError ε]

theorem reject (h : e.Secures ids) (no : TaskNo) (client : Client) (p : PoolError) :
    (e.reject no client p).Settled ids no := by
  refine ⟨h.of_pool (pool_reject e no client p), ?_⟩
  cases client <;> exact carried_of_hasEnded (hasEnded_endCall e no)

theorem followCreation (h : e.Secures ids) (c : Setup) (no : TaskNo) (client : Client)
    (next : Loop.Next RpcError) : (e.followCreation c no client next).Settled ids no := by
  cases next with
  | attempt a =>
    have hmoved : (e.moveTo no (.creating client a e.now)).Settled ids no := h.moveTo no rfl
    exact ⟨hmoved.secures.of_pool rfl, hmoved.carried⟩
  | pause a wake => exact h.moveTo no rfl
  | fail error =>
    obtain ⟨told, p, -, heq⟩ := followCreation_fail e c no client error
    rw [heq]
    have htold : ({ e with signals := e.signals ++ told } : Engine ε α).Secures ids := h.of_pool rfl
    exact htold.releasePending.reject no client p

theorem acquireFor (h : e.Secures ids) (c : Setup) (no : TaskNo) (token : Token) (client : Client) :
    (e.acquireFor c no token client).Settled ids no := by
  rw [acquireFor_open h.isOpen]
  cases hleased : e.search.leased with
  | some x =>
    obtain ⟨id, t⟩ := x
    exact (h.searched c).lease no client
      (Pool.mem_names_of_leased hleased)
  | none =>
    dsimp only
    split
    · exact (h.searched c).reserved.followCreation c no client _
    · exact (h.searched c).reject no client _

theorem follow (h : e.Secures ids) (c : Setup) (no : TaskNo) (token : Token) (next : Loop.Next ε) :
    (e.follow c no token next).Settled ids no := by
  cases next with
  | attempt a => exact h.acquireFor c no token (.attempt a)
  | pause a wake => exact h.moveTo no rfl
  | fail error => exact h.finish no _

theorem register (h : e.Secures ids) (c : Setup) (no : TaskNo) (client : Client) (s : SessionInfo) :
    (e.register c no client s).Settled ids no := by
  unfold Engine.register
  dsimp only
  rw [if_neg (by rw [h.isOpen]; exact Bool.false_ne_true)]
  let registered : Engine ε α := { e with
    nextNo := e.nextNo + 1
    pool := e.pool.releasePending.register s e.nextNo e.now
    monitors := e.monitors ++ [⟨e.nextNo, s.id, .attaching⟩]
    calls := ({ e with nextNo := e.nextNo + 1 } : Engine ε α).releasePending.calls }
  have hsecures : registered.Secures ids := by
    refine ⟨h.isOpen, fun k hk => ?_, h.busy⟩
    by_cases hsame : k = s.id
    · exact hsame ▸ List.mem_cons_self
    · obtain ⟨x, hx, rfl⟩ := List.mem_map.mp (h.tracked k hk)
      exact List.mem_cons_of_mem _ (List.mem_map_of_mem (List.mem_filter.mpr ⟨hx, by simpa using hsame⟩))
  have hreported : (registered.report .pool .debug "session created"
      [("session_id", s.id.text), ("node_id", toString s.node)]).Secures ids := hsecures.of_pool rfl
  refine hreported.lease no client ?_
  exact List.mem_cons_self

end Secures

/-! ## Pools that execute -/

/-- The pool is open, nobody does anything but to execute operations, and each of their leases is on a
tracked session. -/
structure Executing (e : Engine ε α) : Prop where
  /-- The pool is open. -/
  isOpen : e.pool.closed = false
  /-- The calls are executions. -/
  executes : ∀ call ∈ e.calls, call.point.executes = true
  /-- Their leases are on tracked sessions. -/
  tracked : ∀ call ∈ e.calls, ∀ k ∈ call.point.lease?, k.id ∈ e.pool.names

/-- The sessions that carry other calls than the given one. -/
def others (e : Engine ε α) (no : TaskNo) : List SessionId := (Call.leases (Call.except no e.calls)).map (·.id)

variable {known : List SessionId} {m : Move ε α} {call : Call}

theorem mem_others {k : Handle} (hcall : call ∈ b.calls) (hother : call.no ≠ no) (hk : k ∈ call.point.lease?) :
    k.id ∈ b.others no :=
  List.mem_map_of_mem (List.mem_filterMap.mpr ⟨call, List.mem_filter.mpr ⟨hcall, by simpa using hother⟩, hk⟩)

/-- The sessions that carry calls are not idle. -/
theorem Executing.secures_others (h : b.Executing) (hrest : b.ledger.AtRest c.limit known none)
    (no : TaskNo) : b.Secures (b.others no) := by
  have hlease : ∀ id ∈ b.others no, ∃ k ∈ b.outstanding, k.id = id ∧ k.id ∈ b.pool.names := by
    intro id hid
    obtain ⟨k, hk, rfl⟩ := List.mem_map.mp hid
    obtain ⟨call, hcall, hpoint⟩ := List.mem_filterMap.mp hk
    have hcall : call ∈ b.calls := (List.mem_filter.mp hcall).1
    exact ⟨k, List.mem_append_right _ (List.mem_filterMap.mpr ⟨call, hcall, hpoint⟩), rfl,
      h.tracked call hcall k hpoint⟩
  refine ⟨h.isOpen, fun id hid => ?_, fun id hid hidle => ?_⟩
  · obtain ⟨k, -, rfl, hin⟩ := hlease id hid
    exact hin
  · obtain ⟨k, hk, rfl, -⟩ := hlease id hid
    obtain ⟨t, ht, huse⟩ := (hrest.tables.mem_idle k.id).mp hidle
    rw [hrest.lent.use_of_lease k hk t ht] at huse
    cases huse

/-- The session that carries a call carries no other. -/
theorem notMem_others (hrest : b.ledger.AtRest c.limit known none) (hcall : b.call? call.no = some call)
    {k : Handle} (hk : call.point.lease? = some k) : k.id ∉ b.others call.no := by
  have hnd : ((Call.leases b.calls).map (·.id)).Nodup := by
    have hall := hrest.lent.ids_nodup
    rw [List.map_append] at hall
    exact (List.nodup_append.mp hall).2.1
  have hperm := (Call.perm_leases (Ledger.Sound.calls_nodup hrest) (mem_of_call? hcall).1).map (·.id)
  rw [hk] at hperm
  exact (List.nodup_cons.mp (hperm.nodup_iff.mp hnd)).1

variable [PooledError ε]

/-- When a call moves calmly, the sessions that carry the others are not touched. -/
theorem settled_of_step (hrest : b.ledger.AtRest c.limit known none) (h : b.Executing)
    (hcalm : m.isCalm = true) (hm : m.call? = some no) (hstep : b.step c m = some e) :
    e.Settled (b.others no) no := by
  -- the sessions of the others are leased, and no part of a calm move touches a leased session but its own
  have hsecures := h.secures_others hrest no
  cases makes_of_step hstep with
  | start call purpose hcall hpoint =>
    obtain rfl := Option.some.inj hm
    cases purpose with
    | lease => exact hsecures.acquireFor c call.no call.token .caller
    | operation idempotent => exact hsecures.follow c call.no call.token _
    | closing =>
      have hexecutes := h.executes call (mem_of_call? hcall).1
      rw [hpoint] at hexecutes
      cases hexecutes
  | created call client a since result =>
    obtain rfl := Option.some.inj hm
    cases result with
    | ok s => exact hsecures.register c call.no client s
    | error error => cases hcalm
  | operated call a k since cancels result hcall hpoint =>
    obtain rfl := Option.some.inj hm
    have hown := notMem_others hrest hcall (by rw [hpoint]; rfl : call.point.lease? = some k)
    cases cancels with
    | true => cases hcalm
    | false =>
      cases result with
      | ok v => exact (hsecures.giveBack hown c).finish call.no _
      | error error =>
        rw [if_neg Bool.false_ne_true, operated_error]
        have hassessed := hsecures.assess c .operation (CallError.toFault error) a
        refine Secures.follow ?_ c call.no call.token _
        unfold partFrom
        split
        · exact hassessed.invalidate hown c
        · exact hassessed.giveBack hown c
  | createWoken call client a wake =>
    obtain rfl := Option.some.inj hm
    exact hsecures.followCreation c call.no client _
  | woken call a wake =>
    obtain rfl := Option.some.inj hm
    exact hsecures.follow c call.no call.token _
  | proceed call hcall hcloses =>
    have hexecutes := h.executes call (mem_of_call? hcall).1
    cases hpoint : call.point with
    | deleting | draining | settling => rw [hpoint] at hexecutes; cases hexecutes
    | _ => rw [hpoint] at hcloses; cases hcloses
  | abandon | createExpired | creationNoticed | createPauseNoticed | operationNoticed | pauseNoticed =>
    cases hcalm
  | _ => cases hm

/-- Monitors and deletions touch neither the tables nor the calls. -/
theorem pool_of_task (hcalm : m.isCalm = true) (hm : m.call? = none) (hstep : b.step c m = some e) :
    e.pool = b.pool ∧ e.calls = b.calls ∧ e.cancelled = b.cancelled := by
  have hcondemn : ∀ (k : Monitor) (reason : String), (b.condemn k reason).pool = b.pool ∧
      (b.condemn k reason).calls = b.calls ∧ (b.condemn k reason).cancelled = b.cancelled := by
    intro k reason
    unfold condemn
    dsimp only
    split <;> exact ⟨rfl, rfl, rfl⟩
  cases makes_of_step hstep with
  | attached k result =>
    cases result with
    | ok stream => exact ⟨rfl, rfl, rfl⟩
    | error error => exact hcondemn k _
  | heard k message =>
    rcases message with error | status
    · exact hcondemn k _
    · cases status with
      | ready => exact ⟨rfl, rfl, rfl⟩
      | unusable code => exact hcondemn k _
  | streamEnded k => exact hcondemn k _
  | deleted d result => cases result <;> exact ⟨rfl, rfl, rfl⟩
  | start | created | operated | createWoken | woken | proceed | abandon | createExpired | creationNoticed
    | createPauseNoticed | operationNoticed | pauseNoticed => cases hm
  | _ => cases hcalm

omit [PooledError ε] in
theorem cancelled_lease (e : Engine ε α) (no : TaskNo) (client : Client) (k : Handle) :
    (e.lease no client k).cancelled = e.cancelled := by
  cases client <;> rfl

theorem cancelled_register (e : Engine ε α) (c : Setup) (no : TaskNo) (client : Client) (s : SessionInfo) :
    (e.register c no client s).cancelled = e.cancelled := by
  unfold register
  dsimp only
  split
  · rw [cancelled_reject]
    exact congrArg Course.cancelled (course_deleteInBackground { e with nextNo := e.nextNo + 1 } c s.id)
  · rw [cancelled_lease]
    rfl

omit [PooledError ε] in
theorem cancelled_assess (hobserver : c.observer = none) (e : Engine ε α) (role : Role) (f : Fault)
    (a : Attempt) : (e.assess c role f a).2.cancelled = e.cancelled := by
  unfold assess observe
  rw [hobserver]

theorem cancelled_operated (hobserver : c.observer = none) (e : Engine ε α) (call : Call) (a : Attempt)
    (k : Handle) (result : Except ε α) : (e.operated c call a k result).cancelled = e.cancelled := by
  cases result with
  | ok v => exact congrArg Course.cancelled (course_giveBack e c k.id)
  | error error =>
    rw [operated_error, cancelled_follow, cancelled_of_course (course_partFrom _ c k.id _),
      cancelled_assess hobserver]

/-- Nobody is cancelled in a calm move, unless an observer does so. -/
theorem cancelled_of_calm (hobserver : c.observer = none) (hcalm : m.isCalm = true)
    (hstep : b.step c m = some e) : e.cancelled = b.cancelled := by
  cases makes_of_step hstep with
  | start call purpose =>
    cases purpose with
    | lease => exact cancelled_acquireFor b c call.no call.token .caller
    | operation idempotent => exact cancelled_follow b c call.no call.token _
    | closing =>
      show (b.beginClose c call.no).cancelled = b.cancelled
      -- dismissing the sessions tells the server, and cancels nobody
      rw [beginClose_eq]
      refine congrArg Course.cancelled (?_ : (b.announceClosing.dismissAll c call.no b.pool.active).course = b.course)
      rw [course_dismissAll, course_announceClosing]
  | created call client a since result =>
    cases result with
    | ok s => exact cancelled_register b c call.no client s
    | error error => cases hcalm
  | operated call a k since cancels result =>
    cases cancels with
    | true => cases hcalm
    | false => exact cancelled_operated hobserver b call a k result
  | createWoken call client a wake => exact cancelled_followCreation b c call.no client _
  | woken call a wake => exact cancelled_follow b c call.no call.token _
  | proceed call =>
    unfold settle
    repeat' split
    all_goals rfl
  | attached | heard | streamEnded | deleted => exact (pool_of_task hcalm rfl hstep).2.2
  | _ => cases hcalm

/-- A pool that executes operations goes on to do so. -/
theorem Executing.step (h : b.Executing) (hb : b.Orderly) (hrest : b.ledger.AtRest c.limit known none)
    (hcalm : m.isCalm = true) (hstep : b.step c m = some e) : e.Executing := by
  cases hm : m.call? with
  | none =>
    obtain ⟨hpool, hcalls, -⟩ := pool_of_task hcalm hm hstep
    exact ⟨hpool ▸ h.isOpen, hcalls ▸ h.executes, hpool ▸ hcalls ▸ h.tracked⟩
  | some no =>
    have hsettled := settled_of_step hrest h hcalm hm hstep
    refine ⟨hsettled.secures.isOpen, fun call hcall => ?_, fun call hcall k hk => ?_⟩
    · rcases identity_of_step hb hstep hcall with ⟨call₀, hcall₀, hsame⟩ | ⟨-, rfl⟩
      · obtain ⟨idempotent, hpurpose⟩ := Point.executes_iff.mp (h.executes call₀ hcall₀)
        exact Point.executes_iff.mpr ⟨idempotent, (congrArg (·.2.2) hsame).symm.trans hpurpose⟩
      · cases hcalm
    · by_cases hno : call.no = no
      · exact hsettled.carried call hcall hno k hk
      · have hother : m.call? ≠ some call.no := by
          rw [hm]
          exact fun hsame => hno (Option.some.inj hsame).symm
        have hholds : call.point.holds = true := by
          rw [Point.holds, hk]
          rfl
        exact hsettled.secures.tracked k.id (mem_others (holds_of_step hstep hcall hother hholds) hno hk)

end Engine

end PooledSessions
