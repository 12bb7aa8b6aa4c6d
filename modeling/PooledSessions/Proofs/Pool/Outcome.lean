import PooledSessions.Proofs.Pool.Condemned
import PooledSessions.Proofs.Pool.SoleCall
/-!
# What a move tells of a call

A move tells of one call at most what it asks for or how it ends: that a creation or an operation of its is
started, or the result that it has.  Everything else that is told in a move stands aside.  For each of
the tidings there is a reason (`Engine.Says`), and for a rejection there is one as well
(`Engine.Refuses`), which can be read off the move, the call and the pool after the move.

While a call moves it has not ended, and of its place the tables still keep count (`Engine.Goes`); then it
waits or ends (`Engine.Settles`).  Each operation of the pool is followed once from the one to the other.
Nothing here depends on what the server names its sessions.
-/

namespace PooledSessions

variable {ε α : Type}

/-! ## What stays of a call -/

/-- What a call is for that acquires a session for the client. -/
def Client.purpose : Client → Purpose
  | .caller => .lease
  | .attempt a => .operation a.idempotent

/-- What a call that waits at the point is for. -/
def Point.purpose : Point → Purpose
  | .fresh purpose => purpose
  | .creating client _ _ => client.purpose
  | .createPause client _ _ => client.purpose
  | .operating a _ _ => .operation a.idempotent
  | .pausing a _ => .operation a.idempotent
  | .deleting => .closing
  | .draining _ => .closing
  | .settling => .closing

/-- What stays of a call as it moves: its number, its token and what it is for. -/
def Call.identity (k : Call) : TaskNo × Token × Purpose := (k.no, k.token, k.point.purpose)

@[simp] theorem Call.wake_identity (k : Call) : k.wake.identity = k.identity := by
  obtain ⟨no, token, started, point⟩ := k
  cases point <;> rfl

/-- Calls with the same identities have the same numbers. -/
theorem Call.map_no_of_identity {calls calls' : List Call}
    (h : calls'.map Call.identity = calls.map Call.identity) : calls'.map (·.no) = calls.map (·.no) := by
  have hno := congrArg (List.map Prod.fst) h
  rwa [List.map_map, List.map_map] at hno

/-- Whether a signal stands aside: it says neither what a call asks for nor how it ends. -/
def Signal.isAside : Signal ε α → Bool
  | .event _ => true
  | .record _ _ => true
  | .createAbandoned _ => true
  | .deleteBegun _ _ => true
  | _ => false

/-- Whether the signal tells that the call asks for a session or for its operation: a creation is begun,
or an operation is started. -/
def Signal.asksFor (no : TaskNo) : Signal ε α → Bool
  | .createBegun call => call = no
  | .operationStarted call _ => call = no
  | _ => false

theorem Signal.isAside_of_asksFor {no : TaskNo} {s : Signal ε α} (h : s.asksFor no = true) :
    s.isAside = false := by
  cases s <;> first | rfl | cases h

/-- A search of the idle stack that finds nothing leaves nothing on it. -/
theorem Pool.idle_of_popIdle {alive : FlagNo → Bool} {now : Nat} {idle : List SessionId}
    {active : List (SessionId × Tracked)} (hnone : (popIdle alive now idle active).leased = none) :
    (popIdle alive now idle active).idle = [] := by
  induction idle generalizing active with
  | nil => rfl
  | cons top idle ih =>
    cases htop : active.lookup top with
    | none =>
      rw [popIdle_cons_of_none htop] at hnone ⊢
      exact ih hnone
    | some t =>
      cases halive : alive t.flag with
      | true =>
        rw [popIdle_cons_of_alive htop halive] at hnone
        cases hnone
      | false =>
        rw [popIdle_cons_of_dead htop halive] at hnone ⊢
        exact ih hnone

namespace Engine

theorem course_dismissAll (c : Setup) (no : TaskNo) (gone : List (SessionId × Tracked))
    (e : Engine ε α) : (e.dismissAll c no gone).course = e.course := by
  induction gone generalizing e with
  | nil => rfl
  | cons x gone ih => rw [dismissAll_cons, ih, course_startDeletion, course_stopMonitor]

theorem course_announceClosing (e : Engine ε α) : e.announceClosing.course = e.course := by
  unfold announceClosing
  split
  · rfl
  · exact course_report e _ _ _ _

theorem pool_deleteInBackground (e : Engine ε α) (c : Setup) (id : SessionId) :
    (e.deleteInBackground c id).pool = e.pool := by
  unfold deleteInBackground
  split <;> rfl

theorem pending_invalidate (e : Engine ε α) (c : Setup) (id : SessionId) :
    (e.invalidate c id).pool.pending = e.pool.pending := by
  rw [pool_invalidate]
  unfold Pool.remove
  split <;> rfl

theorem pending_giveBack (e : Engine ε α) (c : Setup) (id : SessionId) :
    (e.giveBack c id).pool.pending = e.pool.pending := by
  rw [pool_giveBack]
  unfold Pool.release
  repeat' split
  all_goals rfl

/-- The calls of a running pool have numbers of their own, and the tables count the creations in
flight. -/
structure Orderly (e : Engine ε α) : Prop where
  /-- No number is used twice. -/
  nodup : (e.calls.map (·.no)).Nodup
  /-- The next number is not in use. -/
  no_lt : ∀ k ∈ e.calls, k.no < e.nextNo
  /-- The tables count the creations in flight. -/
  pending : e.pool.pending = Call.creations e.calls

theorem orderly_fresh (g : Generator) : (fresh g : Engine ε α).Orderly :=
  ⟨List.nodup_nil, by simp [fresh], rfl⟩

/-! ## Reasons -/

/-- Whether a creation of the call may fail with the error in the move: its token has been cancelled, or
the error is the server's answer, or the creation took too long. -/
def Fails (m : Move ε α) (call : Call) (cancelled : Bool) (error : RpcError) : Prop :=
  (cancelled = true ∧ error = .cancelled) ∨ m = .created call.no (.error error) ∨
    (m = .createExpired call.no ∧ error = creationTimeout)

/-- Why the call is leased no session in the move, in view of the tables and of its token. -/
inductive Refuses (c : Setup) (m : Move ε α) (call : Call) (p : Pool) (cancelled : Bool) :
    PoolError → Prop
  /-- The pool is closed. -/
  | closed (hclosed : p.closed = true) : Refuses c m call p cancelled .closed
  /-- No session is idle, and the limit is reached. -/
  | exhausted (hidle : p.idle = []) (hfull : c.limit ≤ p.active.length + p.pending) :
      Refuses c m call p cancelled (.exhausted p.active.length p.pending c.limit)
  /-- Its creation was cancelled. -/
  | cancelled (hfails : Fails m call cancelled .cancelled) : Refuses c m call p cancelled .cancelled
  /-- Its creation has failed. -/
  | failed (error : RpcError) (hfails : Fails m call cancelled error) (hne : error ≠ .cancelled) :
      Refuses c m call p cancelled (.creationFailed error
        ((c.creation.classifier.classify (.rpc error)).failureClass ≠ .nonRetryable))

/-- A call has ended. -/
def HasEnded (e : Engine ε α) (no : TaskNo) : Prop := ∀ k ∈ e.calls, k.no ≠ no

/-- Why something is told of the call in the move that leads to the pool `e`. -/
inductive Says [PooledError ε] (c : Setup) (m : Move ε α) (call : Call) (e : Engine ε α) : Signal ε α → Prop
  /-- A creation is begun, and the call has not been cancelled. -/
  | createBegun (hgo : e.isCancelled call.token = false) : Says c m call e (.createBegun call.no)
  /-- An operation is started, and the call has not been cancelled. -/
  | operationStarted (s : SessionInfo) (hgo : e.isCancelled call.token = false) :
      Says c m call e (.operationStarted call.no s)
  /-- A lease is handed out. -/
  | leased (h : Handle) (hended : e.HasEnded call.no) (hpurpose : call.point.purpose = .lease) :
      Says c m call e (.acquired call.no (.ok h))
  /-- A caller is refused a lease. -/
  | refused (p : PoolError) (hended : e.HasEnded call.no) (hpurpose : call.point.purpose = .lease)
      (hrefuses : Refuses c m call e.pool (e.isCancelled call.token) p) :
      Says c m call e (.acquired call.no (.error p))
  /-- An execution is refused a session. -/
  | rejected (p : PoolError) (idempotent : Bool) (hended : e.HasEnded call.no)
      (hpurpose : call.point.purpose = .operation idempotent)
      (hrefuses : Refuses c m call e.pool (e.isCancelled call.token) p) :
      Says c m call e (.executed call.no (.error (rejection p)))
  /-- The operation has answered. -/
  | answered (cancels : Bool) (result : Except ε α) (hended : e.HasEnded call.no)
      (hmove : m = .operated call.no cancels result) : Says c m call e (.executed call.no result)
  /-- The execution has been cancelled. -/
  | cancelled (hended : e.HasEnded call.no) (hgone : e.isCancelled call.token = true) :
      Says c m call e (.executed call.no (.error CallError.cancelled))
  /-- The pool is closed. -/
  | closed (hended : e.HasEnded call.no) (hpurpose : call.point.purpose = .closing) :
      Says c m call e (.closed call.no)

/-! ## A call that moves -/

/-- The pool `e` comes from the pool `b` by a part of a move of the call `no`, which takes up `places`
places now. -/
structure Goes (no : TaskNo) (places : Nat) (b e : Engine ε α) : Prop where
  /-- Whatever was told stands aside. -/
  told : ∃ more, e.course.told = b.course.told ++ more ∧ ∀ s ∈ more, s.isAside = true
  /-- No call has come or gone. -/
  calls : e.calls.map Call.identity = b.calls.map Call.identity
  /-- The tables count the places of all calls. -/
  pending : e.pool.pending = places + Call.creations (Call.except no e.calls)

/-- The pool `e` comes from the pool `b` by a move or a part of it, and no call moves now. -/
structure Settles (b e : Engine ε α) : Prop where
  /-- Whatever was told stands aside. -/
  told : ∃ more, e.course.told = b.course.told ++ more ∧ ∀ s ∈ more, s.isAside = true
  /-- No call has come. -/
  calls : (e.calls.map Call.identity).Sublist (b.calls.map Call.identity)
  /-- The tables count the creations in flight. -/
  pending : e.pool.pending = Call.creations e.calls

variable {c : Setup} {b e e' : Engine ε α} {call : Call} {no : TaskNo} {places : Nat}

/-- A call begins to move with the place that it takes up where it waits. -/
theorem Orderly.goes (h : b.Orderly) (hcall : b.call? call.no = some call) {p : Point}
    (hpoint : call.point = p) : Goes call.no p.places b b where
  told := ⟨[], (List.append_nil _).symm, by simp⟩
  calls := rfl
  pending := by
    rw [h.pending, Call.creations_eq h.nodup (mem_of_call? hcall).1, hpoint]

namespace Goes

/-! ### What does not concern the calls -/

theorem of_course (h : Goes no places b e) (hcourse : e'.course = e.course)
    (hpending : e'.pool.pending = e.pool.pending) : Goes no places b e' := by
  have hcalls := calls_of_course hcourse
  refine ⟨?_, ?_, ?_⟩
  · rw [hcourse]
    exact h.told
  · rw [hcalls]
    exact h.calls
  · rw [hcalls, hpending]
    exact h.pending

theorem tellAside (h : Goes no places b e) {s : Signal ε α} (hs : s.isAside = true) :
    Goes no places b (e.tell s) := by
  obtain ⟨more, heq, hmore⟩ := h.told
  cases hcall : s.ofCall with
  | false => exact h.of_course (course_tellAll (by simpa using hcall) e) rfl
  | true =>
    refine { h with told := ⟨more ++ [s], ?_, ?_⟩ }
    · rw [course_tell hcall, heq, List.append_assoc]
    · intro s' hs'
      rcases List.mem_append.mp hs' with hin | hin
      · exact hmore s' hin
      · rwa [List.mem_singleton.mp hin]

theorem report (h : Goes no places b e) (topic : Topic) (level : Level) (message : String)
    (fields : List (String × Detail)) : Goes no places b (e.report topic level message fields) :=
  h.tellAside rfl

theorem deleteInBackground (h : Goes no places b e) (c : Setup) (id : SessionId) :
    Goes no places b (e.deleteInBackground c id) := by
  exact h.of_course (course_deleteInBackground e c id)
    (congrArg Pool.pending (pool_deleteInBackground e c id))

theorem invalidate (h : Goes no places b e) (c : Setup) (id : SessionId) :
    Goes no places b (e.invalidate c id) :=
  h.of_course (course_invalidate e c id) (pending_invalidate e c id)

theorem giveBack (h : Goes no places b e) (c : Setup) (id : SessionId) :
    Goes no places b (e.giveBack c id) :=
  h.of_course (course_giveBack e c id) (pending_giveBack e c id)

theorem searched (h : Goes no places b e) (c : Setup) : Goes no places b (e.searched c) :=
  h.of_course (course_searched e c) rfl

/-- A token is cancelled. -/
theorem cancel (h : Goes no places b e) (t : Token) : Goes no places b (e.cancel t) := by
  unfold Engine.cancel
  split
  · exact h
  · exact { h with }

/-- A failed attempt is assessed. -/
theorem assess (h : Goes no places b e) (c : Setup) (role : Role) (f : Fault) (a : Attempt) :
    Goes no places b (e.assess c role f a).2 := by
  have hledger := ledger_assess e c role f a
  have hcalls : (e.assess c role f a).2.calls = e.calls := congrArg Ledger.calls hledger
  have hpool : (e.assess c role f a).2.pool = e.pool := congrArg Ledger.pool hledger
  obtain ⟨more, heq, hmore⟩ := h.told
  refine ⟨⟨more ++ [.record role (e.assess c role f a).1], ?_, ?_⟩, by rw [hcalls, h.calls],
    by rw [hcalls, hpool, h.pending]⟩
  · unfold Engine.assess
    dsimp only
    -- the assessment is only named here: what it draws at random must not be computed
    generalize Executor.assess _ f a e.generator = assessed
    have hevents : (assessed.events.map (Signal.event (ε := ε) (α := α))).filter Signal.ofCall = [] := by
      refine List.filter_eq_nil_iff.mpr fun s hs => ?_
      obtain ⟨event, -, rfl⟩ := List.mem_map.mp hs
      simp [Signal.ofCall]
    rw [course_observe]
    simp only [course] at heq ⊢
    rw [List.filter_append, List.filter_append, hevents, List.append_nil, heq, List.append_assoc]
    rfl
  · intro s hs
    rcases List.mem_append.mp hs with hin | hin
    · exact hmore s hin
    · rw [List.mem_singleton.mp hin]
      rfl

/-! ### Places -/

/-- The call takes up a place. -/
theorem reserved (h : Goes no 0 b e) : Goes no 1 b e.reserved where
  told := h.told
  calls := h.calls
  pending := by
    show e.pool.pending + 1 = 1 + Call.creations (Call.except no e.calls)
    rw [h.pending, Nat.zero_add, Nat.add_comm]

/-- The call gives its place back. -/
theorem releasePending (h : Goes no 1 b e) : Goes no 0 b e.releasePending where
  told := h.told
  calls := by
    have hcalls : e.releasePending.calls = e.ledger.callsAfterCreation := rfl
    rw [hcalls, ← h.calls]
    unfold Ledger.callsAfterCreation
    split
    · rw [List.map_map]
      exact List.map_congr_left fun k _ => k.wake_identity
    · rfl
  pending := by
    have hcalls : e.releasePending.calls = e.ledger.callsAfterCreation := rfl
    have hpool : e.releasePending.pool.pending = e.pool.pending - 1 := rfl
    rw [hcalls, Ledger.except_callsAfterCreation, Ledger.creations_callsAfterCreation, hpool, h.pending,
      Nat.zero_add, Nat.add_sub_cancel_left]
    rfl

theorem countStart (h : Goes no places b e) : Goes no places b (e.countStart no) := by
  let count : Call → Call := fun k => if k.no = no then { k with started := k.started + 1 } else k
  have hcount : ∀ k, (count k).no = k.no ∧ (count k).identity = k.identity := by
    intro k
    simp only [count]
    split <;> exact ⟨rfl, rfl⟩
  have hexcept : Call.except no (e.calls.map count) = Call.except no e.calls :=
    Call.except_map_update (fun k => (hcount k).1) (fun k hk => if_neg hk) e.calls
  refine ⟨h.told, ?_, ?_⟩
  · show (e.calls.map count).map Call.identity = _
    rw [← h.calls, List.map_map]
    exact List.map_congr_left fun k _ => (hcount k).2
  · show e.pool.pending = places + Call.creations (Call.except no (e.calls.map count))
    rw [hexcept, h.pending]

/-! ### Where a call comes to rest -/

/-- A call that moves has not ended, and stays what it is. -/
theorem identity_eq (h : Goes call.no places b e) (hb : b.Orderly) (hcall : b.call? call.no = some call) :
    (∃ k ∈ e.calls, k.no = call.no) ∧ ∀ k ∈ e.calls, k.no = call.no → k.identity = call.identity := by
  have hin := (mem_of_call? hcall).1
  constructor
  · have hkept : call.identity ∈ e.calls.map Call.identity := h.calls ▸ List.mem_map_of_mem hin
    obtain ⟨k, hk, hsame⟩ := List.mem_map.mp hkept
    exact ⟨k, hk, congrArg Prod.fst hsame⟩
  · intro k hk hno
    have hkept : k.identity ∈ b.calls.map Call.identity := h.calls ▸ List.mem_map_of_mem hk
    obtain ⟨k', hk', hsame⟩ := List.mem_map.mp hkept
    have hno' : k'.no = call.no := (congrArg Prod.fst hsame).trans hno
    rw [← hsame, List.inj_on_of_nodup_map hb.nodup hk' hin hno']

/-- The call waits at a point that takes up the place it has. -/
theorem moveTo {p : Point} (h : Goes call.no p.places b e) (hb : b.Orderly)
    (hcall : b.call? call.no = some call) (hpurpose : p.purpose = call.point.purpose) :
    Settles b (e.moveTo call.no p) ∧
      (e.moveTo call.no p).calls.map Call.identity = b.calls.map Call.identity := by
  let wait : Call → Call := fun k => if k.no = call.no then { k with point := p } else k
  obtain ⟨⟨k, hk, hkno⟩, hidentity⟩ := h.identity_eq hb hcall
  have hno : ∀ k, (wait k).no = k.no := by
    intro k
    simp only [wait]
    split <;> rfl
  have hsame : (e.calls.map wait).map Call.identity = b.calls.map Call.identity := by
    rw [← h.calls, List.map_map]
    refine List.map_congr_left fun k hk => ?_
    by_cases hmover : k.no = call.no
    · have hkept := hidentity k hk hmover
      simp only [Call.identity, Prod.mk.injEq] at hkept
      simp only [Function.comp_apply, wait, if_pos hmover, Call.identity, hpurpose, hkept.2.2]
    · simp only [Function.comp_apply, wait, if_neg hmover]
  have hnd : ((e.calls.map wait).map (·.no)).Nodup := by
    rw [Call.map_no_of_identity hsame]
    exact hb.nodup
  -- the places of the others do not change, and that of the call is the one it waits with
  have hexcept : Call.except call.no (e.calls.map wait) = Call.except call.no e.calls :=
    Call.except_map_update hno (fun k hk => if_neg hk) e.calls
  have hcount := Call.creations_eq hnd (List.mem_map_of_mem hk)
  have hpoint : (wait k).point = p := by simp only [wait, if_pos hkno]
  rw [hno, hkno, hexcept, hpoint, ← h.pending] at hcount
  exact ⟨⟨h.told, hsame ▸ List.Sublist.refl _, hcount.symm⟩, hsame⟩

/-- The call ends without a place. -/
theorem endCall (h : Goes no 0 b e) : Settles b (e.endCall no) ∧ (e.endCall no).HasEnded no := by
  refine ⟨⟨h.told, ?_, ?_⟩, fun k hk => ?_⟩
  · rw [← h.calls]
    exact List.filter_sublist.map _
  · rw [show (e.endCall no).pool.pending = e.pool.pending from rfl, h.pending, Nat.zero_add]
    rfl
  · simpa using (List.mem_filter.mp hk).2

end Goes

/-! ## What a move leads to -/

/-- The call `call` of the pool `b` makes the move. -/
structure Mover (m : Move ε α) (call : Call) (b : Engine ε α) : Prop where
  /-- The pool is orderly. -/
  orderly : b.Orderly
  /-- The call has not ended. -/
  call? : b.call? call.no = some call
  /-- It makes the move. -/
  moves : m.call? = some call.no
  /-- If it has not been started yet, it is started. -/
  starts : ∀ purpose, call.point = .fresh purpose → m = .start call.no

variable [PooledError ε] {m : Move ε α}

/-- What a move leads to that sets up no call: nothing is told of a call, or something of one. -/
inductive Outcome (c : Setup) (m : Move ε α) (b : Engine ε α) : Engine ε α → Prop
  /-- Nothing is told of a call.  No call ends, unless it is dropped. -/
  | silent {e : Engine ε α} (h : Settles b e)
      (hstays : (∃ no, m = .abandon no) ∨ e.calls.map Call.identity = b.calls.map Call.identity) :
      Outcome c m b e
  /-- Something is told last of the call that makes the move. -/
  | telling {e : Engine ε α} {s : Signal ε α} (call : Call) (hmover : Mover m call b)
      (h : Settles b e) (hs : Says c m call e s) : Outcome c m b (e.tell s)

namespace Goes

/-- The call waits, and nothing is told. -/
theorem waits {p : Point} (h : Goes call.no p.places b e) (hmover : Mover m call b)
    (hpurpose : p.purpose = call.point.purpose) : Outcome c m b (e.moveTo call.no p) :=
  have hmoved := h.moveTo hmover.orderly hmover.call? hpurpose
  .silent hmoved.1 (Or.inr hmoved.2)

/-- The execution ends. -/
theorem finish (h : Goes call.no 0 b e) (hmover : Mover m call b) {result : Except ε α}
    (hs : (e.endCall call.no).HasEnded call.no →
      Says c m call (e.endCall call.no) (.executed call.no result)) :
    Outcome c m b (e.finish call.no result) :=
  .telling call hmover h.endCall.1 (hs h.endCall.2)

/-- The call is leased no session. -/
theorem reject (h : Goes call.no 0 b e) (hmover : Mover m call b) {client : Client}
    (hclient : client.purpose = call.point.purpose) {p : PoolError}
    (hrefuses : Refuses c m call e.pool (e.isCancelled call.token) p) :
    Outcome c m b (e.reject call.no client p) := by
  cases client with
  | caller => exact .telling call hmover h.endCall.1 (.refused p h.endCall.2 hclient.symm hrefuses)
  | attempt a => exact h.finish hmover fun hended => .rejected p a.idempotent hended hclient.symm hrefuses

/-- The call is leased a session. -/
theorem lease (h : Goes call.no 0 b e) (hmover : Mover m call b) {client : Client}
    (hclient : client.purpose = call.point.purpose)
    (hgo : client ≠ .caller → e.isCancelled call.token = false) (k : Handle) :
    Outcome c m b (e.lease call.no client k) := by
  cases client with
  | caller =>
    have hended := h.endCall
    have hheld : Settles b { e.endCall call.no with held := e.held ++ [k] } :=
      ⟨hended.1.told, hended.1.calls, hended.1.pending⟩
    exact .telling call hmover hheld (.leased k hended.2 hclient.symm)
  | attempt a =>
    have hmoved := (h.countStart).moveTo (p := .operating a k e.now) hmover.orderly hmover.call? hclient
    exact .telling call hmover hmoved.1 (.operationStarted k.info (hgo (by simp)))

end Goes

/-- The retry loop goes on as it may: an attempt is started only if the caller has not cancelled, no
attempt changes what may be repeated, and the loop ends only with one of the errors or because the caller
has cancelled. -/
def Allows {δ : Type} [CallError δ] (cancelled idempotent : Bool) (ends : δ → Prop) :
    Loop.Next δ → Prop
  | .attempt a => cancelled = false ∧ a.idempotent = idempotent
  | .pause a _ => a.idempotent = idempotent
  | .fail error => ends error ∨ (cancelled = true ∧ error = CallError.cancelled)

omit [PooledError ε] in
theorem allows_start {δ : Type} [CallError δ] (a : Attempt) (cancelled : Bool) (ends : δ → Prop) :
    Allows cancelled a.idempotent ends (Loop.start a cancelled) := by
  unfold Loop.start
  cases cancelled with
  | false => exact ⟨rfl, rfl⟩
  | true => exact Or.inr ⟨rfl, rfl⟩

omit [PooledError ε] in
theorem allows_afterFailure {δ : Type} [CallError δ] {ends : δ → Prop} {error : δ} (hends : ends error)
    (a : Attempt) (delay : Option Span) (cancelled : Bool) (now : Nat) :
    Allows cancelled a.idempotent ends (Loop.afterFailure a error delay cancelled now) := by
  unfold Loop.afterFailure
  cases delay with
  | none => exact Or.inl hends
  | some d =>
    cases cancelled with
    | true => exact Or.inr ⟨rfl, rfl⟩
    | false =>
      simp only [Bool.false_eq_true, if_false]
      split
      · exact ⟨rfl, rfl⟩
      · exact rfl

omit [PooledError ε] in
theorem allows_cancelled {δ : Type} [CallError δ] {cancelled : Bool} (idempotent : Bool)
    (ends : δ → Prop) (hgone : cancelled = true) :
    Allows cancelled idempotent ends (.fail CallError.cancelled) :=
  Or.inr ⟨hgone, rfl⟩

namespace Goes

/-- A creation is tried again, waits, or fails and gives its place back. -/
theorem followCreation (h : Goes call.no 1 b e) (hmover : Mover m call b) (c : Setup) {client : Client}
    (hclient : client.purpose = call.point.purpose) {idempotent : Bool} {next : Loop.Next RpcError}
    (hnext : Allows (e.isCancelled call.token) idempotent (Fails m call (e.isCancelled call.token)) next) :
    Outcome c m b (e.followCreation c call.no client next) := by
  cases next with
  | attempt a =>
    have hmoved := h.moveTo (p := .creating client a e.now) hmover.orderly hmover.call? hclient
    exact .telling call hmover hmoved.1 (.createBegun hnext.1)
  | pause a wake => exact h.waits (p := .createPause client a wake) hmover hclient
  | fail error =>
    have hfails : Fails m call (e.isCancelled call.token) error := hnext.elim id Or.inl
    cases herror : error with
    | cancelled => exact h.releasePending.reject hmover hclient (.cancelled (herror ▸ hfails))
    | transport code message | status code message =>
      rw [← herror]
      have hne : error ≠ .cancelled := by simp [herror]
      have hevents : ∀ s ∈ (c.creation.classifier.classifyEvents (.rpc error)).map
          (Signal.event (ε := ε) (α := α)), s.ofCall = false := by
        simp [Signal.ofCall]
      have htold := h.of_course (course_tellAll hevents e) rfl
      have hreported := htold.report .pool .warn "session creation failed"
        [("error", error.message),
          ("class", (c.creation.classifier.classify (.rpc error)).failureClass.name)]
      have hrejected := hreported.releasePending.reject (c := c) hmover hclient (.failed error hfails hne)
      rw [herror] at hrejected ⊢
      exact hrejected

/-- An idle session is leased, or a place is kept for a creation, or the call is rejected. -/
theorem acquireFor (h : Goes call.no 0 b e) (hmover : Mover m call b) (c : Setup) {client : Client}
    (hclient : client.purpose = call.point.purpose)
    (hgo : client ≠ .caller → e.isCancelled call.token = false) :
    Outcome c m b (e.acquireFor c call.no call.token client) := by
  have hsearched := h.searched c
  have hsame : (e.searched c).isCancelled call.token = e.isCancelled call.token := by
    rw [isCancelled, isCancelled, cancelled_of_course (course_searched e c)]
  by_cases hclosed : e.pool.closed = true
  · rw [acquireFor_closed hclosed]
    exact h.reject hmover hclient (.closed hclosed)
  · rw [acquireFor_open (by simpa using hclosed)]
    cases hleased : e.search.leased with
    | some x => exact hsearched.lease hmover hclient (fun hne => hsame.trans (hgo hne)) _
    | none =>
      by_cases hroom : e.search.active.length + e.pool.pending < c.limit
      · simp only [if_pos hroom]
        exact hsearched.reserved.followCreation hmover c hclient (allows_start _ _ _)
      · simp only [if_neg hroom]
        exact hsearched.reject hmover hclient
          (.exhausted (Pool.idle_of_popIdle hleased) (Nat.le_of_not_lt hroom))

/-- A session that was created is registered and leased, or is deleted because the pool was closed
meanwhile. -/
theorem register (h : Goes call.no 1 b e) (hmover : Mover m call b) (c : Setup) {client : Client}
    (hclient : client.purpose = call.point.purpose)
    (hgo : e.isCancelled call.token = false) (s : SessionInfo) :
    Outcome c m b (e.register c call.no client s) := by
  have hnumbered : Goes call.no 1 b { e with nextNo := e.nextNo + 1 } := { h with }
  unfold Engine.register
  by_cases hclosed : e.pool.closed = true
  · simp only [if_pos hclosed]
    refine (hnumbered.deleteInBackground c s.id).releasePending.reject hmover hclient (.closed ?_)
    show ((({ e with nextNo := e.nextNo + 1 } : Engine ε α).deleteInBackground c s.id).pool).closed = true
    rw [pool_deleteInBackground]
    exact hclosed
  · simp only [if_neg hclosed]
    have hreleased := hnumbered.releasePending
    let released := ({ e with nextNo := e.nextNo + 1 } : Engine ε α).releasePending
    have hregistered : Goes call.no 0 b { released with
        pool := released.pool.register s e.nextNo released.now
        monitors := released.monitors ++ [⟨e.nextNo, s.id, .attaching⟩] } :=
      ⟨hreleased.told, hreleased.calls, hreleased.pending⟩
    exact (hregistered.report _ _ _ _).lease hmover hclient (fun _ => hgo) _

/-- An operation is tried again, waits or ends. -/
theorem follow (h : Goes call.no 0 b e) (hmover : Mover m call b) (c : Setup) {idempotent : Bool}
    (hpurpose : call.point.purpose = .operation idempotent) {next : Loop.Next ε}
    (hnext : Allows (e.isCancelled call.token) idempotent
      (fun error => ∃ cancels, m = .operated call.no cancels (.error error)) next) :
    Outcome c m b (e.follow c call.no call.token next) := by
  cases next with
  | attempt a =>
    have hclient : (Client.attempt a).purpose = call.point.purpose := by
      rw [hpurpose, Client.purpose, hnext.2]
    exact h.acquireFor hmover c hclient fun _ => hnext.1
  | pause a wake =>
    refine h.waits (p := .pausing a wake) hmover ?_
    rw [hpurpose, Point.purpose, show a.idempotent = idempotent from hnext]
  | fail error =>
    refine h.finish hmover fun hended => ?_
    rcases hnext with ⟨cancels, hmove⟩ | ⟨hgone, rfl⟩
    · exact .answered cancels _ hended hmove
    · exact .cancelled hended hgone

/-- A creation ends with an answer or with the passing of its time limit. -/
theorem created (h : Goes call.no 1 b e) (hmover : Mover m call b) (c : Setup) {client : Client}
    (hclient : client.purpose = call.point.purpose) (hgo : e.isCancelled call.token = false)
    (a : Attempt) {result : Except RpcError SessionInfo}
    (hfails : ∀ cancelled error, result = .error error → Fails m call cancelled error) :
    Outcome c m b (e.created c call client a result) := by
  cases result with
  | ok s => exact h.register hmover c hclient hgo s
  | error error =>
    exact (h.assess c .creation (.rpc error) a).followCreation hmover c hclient
      (allows_afterFailure (hfails _ error rfl) a _ _ _)

/-- An operation ends with an answer. -/
theorem operated (h : Goes call.no 0 b e) {cancels : Bool} {result : Except ε α}
    (hmover : Mover (.operated call.no cancels result) call b) (c : Setup) {a : Attempt}
    (hpurpose : call.point.purpose = .operation a.idempotent) (k : Handle) :
    Outcome c (.operated call.no cancels result) b (e.operated c call a k result) := by
  cases result with
  | ok v => exact (h.giveBack c k.id).finish hmover fun hended => .answered cancels _ hended rfl
  | error error =>
    rw [operated_error]
    have hassessed := h.assess c .operation (CallError.toFault error) a
    have hparted : ∀ givesUp, Goes call.no 0 b
        ((e.assess c .operation (CallError.toFault error) a).2.partFrom c k.id givesUp) := by
      intro givesUp
      unfold partFrom
      split
      · exact hassessed.invalidate c k.id
      · exact hassessed.giveBack c k.id
    exact (hparted _).follow hmover c hpurpose (allows_afterFailure ⟨cancels, rfl⟩ a _ _ _)

/-- A closing begins. -/
theorem beginClose (h : Goes call.no 0 b e) (hmover : Mover m call b) (c : Setup)
    (hpurpose : call.point.purpose = .closing) : Outcome c m b (e.beginClose c call.no) := by
  rw [beginClose_eq]
  refine Goes.waits (p := .deleting) (h.of_course ?_ rfl) hmover hpurpose.symm
  rw [course_withPool, course_dismissAll, course_announceClosing]

/-- A closing goes on or ends. -/
theorem settle (h : Goes call.no 0 b e) (hmover : Mover m call b) (c : Setup)
    (hpurpose : call.point.purpose = .closing) : Outcome c m b (e.settle call.no) := by
  unfold Engine.settle
  split
  · exact h.waits (p := .draining false) hmover hpurpose.symm
  · split
    · exact h.waits (p := .settling) hmover hpurpose.symm
    · exact .telling call hmover h.endCall.1 (.closed h.endCall.2 hpurpose)

end Goes

/-! ## Every move -/

omit [PooledError ε] in
theorem Settles.of_calls (h : b.Orderly) (hcalls : e.calls = b.calls)
    (htold : e.course.told = b.course.told) (hpending : e.pool.pending = b.pool.pending) :
    Settles b e :=
  ⟨⟨[], by rw [htold, List.append_nil], by simp⟩, by rw [hcalls], by rw [hcalls, hpending, h.pending]⟩

omit [PooledError ε] in
theorem Settles.of_course (h : Settles b e) (hcourse : e'.course = e.course)
    (hpending : e'.pool.pending = e.pool.pending) : Settles b e' := by
  have hcalls := calls_of_course hcourse
  exact ⟨by rw [hcourse]; exact h.told, by rw [hcalls]; exact h.calls, by rw [hcalls, hpending, h.pending]⟩

omit [PooledError ε] in
/-- It does not matter whether a call ends before its place is given back or afterwards. -/
theorem releasePending_endCall (e : Engine ε α) (no : TaskNo) :
    (e.endCall no).releasePending = e.releasePending.endCall no := by
  show ({ e with
    pool := e.pool.releasePending
    calls := (e.endCall no).ledger.callsAfterCreation } : Engine ε α) = { e with
    pool := e.pool.releasePending
    calls := Call.except no e.ledger.callsAfterCreation }
  rw [Ledger.except_callsAfterCreation]
  rfl

omit [PooledError ε] in
/-- A call that is dropped gives up what it holds, and nothing is told of it. -/
theorem settles_abandon (h : b.Orderly) (hcall : b.call? call.no = some call) (c : Setup) :
    Settles b (b.abandon c call) := by
  -- the place of a creation is given back as if the call had not ended yet
  have hplace : ∀ s : Signal ε α, s.isAside = true → call.point.places = 1 →
      Settles b ((b.endCall call.no).tell s).releasePending ∧
        Settles b (b.endCall call.no).releasePending := by
    intro s hs hplaces
    have hgoes := h.goes hcall rfl
    rw [hplaces] at hgoes
    rw [releasePending_endCall, show (b.endCall call.no).tell s = (b.tell s).endCall call.no from rfl,
      releasePending_endCall]
    exact ⟨(hgoes.tellAside hs).releasePending.endCall.1, hgoes.releasePending.endCall.1⟩
  have hnone : call.point.places = 0 → Settles b (b.endCall call.no) := by
    intro hplaces
    have hgoes := h.goes hcall rfl
    rw [hplaces] at hgoes
    exact hgoes.endCall.1
  unfold abandon
  cases hpoint : call.point with
  | creating client a since =>
    exact (hplace (.createAbandoned call.no) rfl (by rw [hpoint]; rfl)).1
  | createPause client a wake =>
    exact (hplace (.createAbandoned call.no) rfl (by rw [hpoint]; rfl)).2
  | operating a k since =>
    exact (hnone (by rw [hpoint]; rfl)).of_course (course_loseLease _ c k.id) (pending_invalidate _ c k.id)
  | deleting =>
    have hended := hnone (by rw [hpoint]; rfl)
    exact ⟨hended.told, hended.calls, hended.pending⟩
  | fresh _ | pausing _ _ | draining _ | settling => exact hnone (by rw [hpoint]; rfl)

/-- Every move sets up a call, or nothing is told of a call in it, or something of the one that makes
it. -/
theorem outcome_of_step (h : b.Orderly) (hstep : b.step c m = some e) :
    (∃ purpose token, m = .call purpose token ∧ e = b.addCall purpose token) ∨ Outcome c m b e := by
  have hmover : ∀ {call : Call} {p : Point}, b.call? call.no = some call → call.point = p →
      m.call? = some call.no → (∀ purpose, p = .fresh purpose → m = .start call.no) → Mover m call b :=
    fun hcall hpoint hmoves hstarts => ⟨h, hcall, hmoves, fun purpose hp => hstarts purpose (hpoint ▸ hp)⟩
  have hwaits : ∀ {call : Call} {p : Point}, call.point = p → p.purpose = call.point.purpose :=
    fun hpoint => congrArg Point.purpose hpoint.symm
  -- moves of the server and the clock, and those that part from a session, move no call
  have haside : ∀ millis, m.passes? = some millis → Outcome c m b e := by
    intro millis hpasses
    have haside := aside_of_step hpasses hstep
    have hcalls : e.calls = b.calls := congrArg Course.calls haside.course
    have htold : e.course.told = b.course.told := by rw [haside.course]
    exact .silent (.of_calls h hcalls htold (congrArg Pool.pending haside.pool)) (Or.inr (by rw [hcalls]))
  have hparts : ∀ b₁ : Engine ε α, b₁.calls = b.calls → b₁.course.told = b.course.told →
      e.course = b₁.course → e.pool.pending = b.pool.pending → Outcome c m b e := by
    intro b₁ hcalls htold hcourse hpending
    have hsame : e.calls = b.calls := (calls_of_course hcourse).trans hcalls
    exact .silent (.of_calls h hsame ((congrArg Course.told hcourse).trans htold) hpending)
      (Or.inr (by rw [hsame]))
  cases makes_of_step hstep with
  | call purpose token => exact Or.inl ⟨purpose, token, rfl, rfl⟩
  | start call purpose hcall hpoint =>
    have hgoes := h.goes hcall hpoint
    have hm := hmover hcall hpoint rfl fun _ _ => rfl
    refine Or.inr ?_
    cases purpose with
    | lease =>
      have hclient : Client.caller.purpose = call.point.purpose := hwaits hpoint
      exact hgoes.acquireFor hm c hclient fun hne => absurd rfl hne
    | operation idempotent =>
      exact hgoes.follow hm c (hwaits hpoint).symm (allows_start (.first idempotent) _ _)
    | closing => exact hgoes.beginClose hm c (hwaits hpoint).symm
  | abandon call hcall => exact Or.inr (.silent (settles_abandon h hcall c) (Or.inl ⟨call.no, rfl⟩))
  | created call client a since result hcall hpoint hgo =>
    have hm := hmover hcall hpoint rfl fun _ hp => by cases hp
    exact Or.inr ((h.goes hcall hpoint).created hm c (hwaits hpoint) hgo a fun _ _ herror =>
      Or.inr (Or.inl (by rw [herror])))
  | createExpired call client a since hcall hpoint hgo hdue =>
    have hm := hmover hcall hpoint rfl fun _ hp => by cases hp
    have hgoes := (h.goes hcall hpoint).tellAside (s := .createAbandoned call.no) rfl
    refine Or.inr (hgoes.created hm c (hwaits hpoint) hgo a fun _ _ herror => Or.inr (Or.inr ⟨rfl, ?_⟩))
    exact (Except.error.inj herror).symm
  | operated call a k since cancels result hcall hpoint hgo =>
    have hm := hmover hcall hpoint rfl fun _ hp => by cases hp
    have hgoes : Goes call.no 0 b (if cancels then b.cancel call.token else b) := by
      split
      · exact (h.goes hcall hpoint).cancel call.token
      · exact h.goes hcall hpoint
    exact Or.inr (hgoes.operated hm c (hwaits hpoint).symm k)
  | createWoken call client a wake hcall hpoint hgo hdue =>
    have hm := hmover hcall hpoint rfl fun _ hp => by cases hp
    exact Or.inr ((h.goes hcall hpoint).followCreation hm c (hwaits hpoint) (allows_start _ _ _))
  | woken call a wake hcall hpoint hgo hdue =>
    have hm := hmover hcall hpoint rfl fun _ hp => by cases hp
    exact Or.inr ((h.goes hcall hpoint).follow hm c (hwaits hpoint).symm (allows_start a.next _ _))
  | creationNoticed call client a since hcall hpoint hgone =>
    have hm := hmover hcall hpoint rfl fun _ hp => by cases hp
    have hgoes := (h.goes hcall hpoint).tellAside (s := .createAbandoned call.no) rfl
    exact Or.inr (hgoes.followCreation hm c (hwaits hpoint) (allows_cancelled true _ hgone))
  | createPauseNoticed call client a wake hcall hpoint hgone =>
    have hm := hmover hcall hpoint rfl fun _ hp => by cases hp
    exact Or.inr ((h.goes hcall hpoint).followCreation hm c (hwaits hpoint)
      (allows_cancelled true _ hgone))
  | operationNoticed call a k since hcall hpoint hgone =>
    have hm := hmover hcall hpoint rfl fun _ hp => by cases hp
    refine Or.inr (((h.goes hcall hpoint).invalidate c k.id).finish hm fun hended => .cancelled hended ?_)
    show (b.invalidate c k.id).isCancelled call.token = true
    rw [isCancelled, cancelled_of_course (course_invalidate b c k.id)]
    exact hgone
  | pauseNoticed call a wake hcall hpoint hgone =>
    have hm := hmover hcall hpoint rfl fun _ hp => by cases hp
    exact Or.inr ((h.goes hcall hpoint).finish hm fun hended => .cancelled hended hgone)
  | proceed call hcall hcloses =>
    have hnothing : call.point.places = 0 ∧ call.point.purpose = .closing ∧
        ∀ purpose, call.point ≠ .fresh purpose := by
      cases hpoint : call.point <;> simp [hpoint, Point.closes] at hcloses ⊢ <;> exact ⟨rfl, rfl⟩
    have hm : Mover (.proceed call.no) call b :=
      ⟨h, hcall, rfl, fun purpose hp => absurd hp (hnothing.2.2 purpose)⟩
    have hgoes := h.goes hcall rfl
    rw [hnothing.1] at hgoes
    exact Or.inr (hgoes.settle hm c hnothing.2.1)
  | attached | heard | streamEnded | deleted | deletionExpired | cancel =>
    exact Or.inr (haside 0 rfl)
  | advance millis => exact Or.inr (haside millis rfl)
  | release k hk =>
    exact Or.inr (hparts (b.part k.flag) rfl rfl (course_giveBack _ c k.id) (pending_giveBack _ c k.id))
  | invalidate k hk =>
    exact Or.inr (hparts (b.part k.flag) rfl rfl (course_invalidate _ c k.id) (pending_invalidate _ c k.id))
  | drop k hk =>
    exact Or.inr (hparts (b.part k.flag) rfl rfl (course_loseLease _ c k.id) (pending_invalidate _ c k.id))
  | invalidateId id =>
    exact Or.inr (hparts b rfl rfl (course_invalidate b c id) (pending_invalidate b c id))

end Engine

end PooledSessions
