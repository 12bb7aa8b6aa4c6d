import PooledSessions.Proofs.Pool.Tidings
import PooledSessions.Proofs.Retry.Cancellation
import PooledSessions.Proofs.Simulation.Turns
/-!
# Calls that are cancelled

An execution waits in its operation, for the creation of a session, or after a failure of either.  Wherever
it waits when its token is cancelled, the only thing that it can still do is to see that and to end
(`Engine.step_of_cancelled`).  It ends with the error of a cancelled call, at the time at which it is then,
and gives back what it had (`Engine.EndsCancelled`): its place, or its lease together with the session, which
is not tracked any more.

An answer of the operation that comes before the cancellation is seen is passed on as it is, if it is not
followed by another attempt.  If it is a failure that would be, the execution ends as cancelled instead.
-/

namespace PooledSessions

variable {ε α : Type}

/-- The move in which an execution that waits at the point sees that it has been cancelled. -/
def Point.leaves (no : TaskNo) : Point → Move ε α
  | .fresh _ => .start no
  | _ => .noticed no

namespace Engine

/-- The pool `b` lets the call end as cancelled. -/
structure EndsCancelled [PooledError ε] (call : Call) (b e : Engine ε α) : Prop where
  /-- No time passes. -/
  now : e.now = b.now
  /-- The call has ended. -/
  ended : e.HasEnded call.no
  /-- The caller is told so. -/
  told : e.signals.getLast? = some (.executed call.no (.error CallError.cancelled))
  /-- The place of the call is given back. -/
  place : e.pool.pending + call.point.places = b.pool.pending
  /-- The session of the operation is not tracked any more. -/
  untracked : ∀ h ∈ call.point.lease?, e.pool.find? h.id = none
  /-- The lease of the call is given back, and the others stay. -/
  leases : e.outstanding = b.held ++ Call.leases (Call.except call.no b.calls)

/-- What a cancelled execution gives up of what it has where it waits. -/
def withdraw (e : Engine ε α) (c : Setup) (no : TaskNo) : Point → Engine ε α
  | .creating .. => (e.tell (.createAbandoned no)).releasePending
  | .createPause .. => e.releasePending
  | .operating _ h _ => e.invalidate c h.id
  | _ => e

variable {c : Setup} {b e : Engine ε α} {m : Move ε α} {call : Call}

/-! ## What is given up -/

theorem now_withdraw (e : Engine ε α) (c : Setup) (no : TaskNo) (p : Point) :
    (e.withdraw c no p).now = e.now := by
  cases p with
  | operating a h since => exact congrArg Course.now (course_invalidate e c h.id)
  | _ => rfl

theorem held_withdraw (e : Engine ε α) (c : Setup) (no : TaskNo) (p : Point) :
    (e.withdraw c no p).held = e.held := by
  cases p with
  | operating a h since => exact (sameHands_invalidate e c h.id).held
  | _ => rfl

/-- The other calls keep their leases. -/
theorem leases_withdraw (e : Engine ε α) (c : Setup) (no no' : TaskNo) (p : Point) :
    Call.leases (Call.except no' (e.withdraw c no p).calls) = Call.leases (Call.except no' e.calls) := by
  have hplace : ∀ e : Engine ε α, Call.leases (Call.except no' e.releasePending.calls) =
      Call.leases (Call.except no' e.calls) := by
    intro e
    rw [show e.releasePending.calls = e.ledger.callsAfterCreation from rfl,
      Ledger.except_callsAfterCreation, Ledger.leases_callsAfterCreation]
    rfl
  cases p with
  | creating client a since => exact hplace (e.tell (.createAbandoned no))
  | createPause client a wake => exact hplace e
  | operating a h since => rw [withdraw, (sameHands_invalidate e c h.id).calls]
  | _ => rfl

/-- The place that the call takes up is given back. -/
theorem pending_withdraw (h : b.Orderly) (hcall : call ∈ b.calls) (c : Setup) (no : TaskNo) :
    (b.withdraw c no call.point).pool.pending + call.point.places = b.pool.pending := by
  have hplaces : call.point.places ≤ b.pool.pending := by
    rw [h.pending, Call.creations_eq h.nodup hcall]
    exact Nat.le_add_right _ _
  cases hpoint : call.point with
  | creating client a since | createPause client a wake =>
    rw [hpoint] at hplaces
    exact Nat.sub_add_cancel hplaces
  | operating a k since => exact pending_invalidate b c k.id
  | _ => rfl

theorem find?_withdraw (e : Engine ε α) (c : Setup) (no : TaskNo) {p : Point} {h : Handle}
    (hlease : h ∈ p.lease?) : (e.withdraw c no p).pool.find? h.id = none := by
  cases p with
  | operating a k since =>
    cases hlease
    exact find?_invalidate e c h.id
  | _ => cases hlease

variable [PooledError ε]

/-! ## The end of a cancelled execution -/

/-- An execution that has been cancelled can see that at once, and ends. -/
theorem step_of_cancelled (hfind : b.call? call.no = some call) (hexecutes : call.point.executes = true)
    (hgone : b.isCancelled call.token = true) :
    b.step c (call.point.leaves call.no) =
      some ((b.withdraw c call.no call.point).finish call.no (.error CallError.cancelled)) := by
  cases hpoint : call.point with
  | fresh purpose =>
    rw [hpoint] at hexecutes
    cases purpose with
    | operation idempotent =>
      simp only [Point.leaves, step, hfind, Option.bind_eq_bind, Option.bind_some, hpoint, start, hgone]
      rfl
    | lease | closing => cases hexecutes
  | creating client a since | createPause client a since =>
    rw [hpoint] at hexecutes
    cases client with
    | attempt a' =>
      simp only [Point.leaves, step, hfind, Option.bind_eq_bind, Option.bind_some, hgone, if_true, noticed,
        hpoint]
      rfl
    | caller => cases hexecutes
  | operating a k since | pausing a k =>
    simp only [Point.leaves, step, hfind, Option.bind_eq_bind, Option.bind_some, hgone, if_true, noticed,
      hpoint]
    rfl
  | deleting | draining _ | settling =>
    rw [hpoint] at hexecutes
    cases hexecutes

omit [PooledError ε] in
/-- An execution that ends tells its result last. -/
theorem hasEnded_finish (e : Engine ε α) (no : TaskNo) (result : Except ε α) :
    (e.finish no result).HasEnded no ∧
      (e.finish no result).signals.getLast? = some (.executed no result) :=
  ⟨fun k hk => by simpa using (List.mem_filter.mp hk).2, List.getLast?_concat⟩

theorem endsCancelled_withdraw (h : b.Orderly) (hcall : call ∈ b.calls) (c : Setup) :
    EndsCancelled call b ((b.withdraw c call.no call.point).finish call.no (.error CallError.cancelled)) where
  now := now_withdraw b c call.no call.point
  ended := (hasEnded_finish _ call.no _).1
  told := (hasEnded_finish _ call.no _).2
  place := pending_withdraw h hcall c call.no
  untracked k hk := find?_withdraw b c call.no hk
  leases := by
    show (b.withdraw c call.no call.point).held ++
      Call.leases (Call.except call.no (b.withdraw c call.no call.point).calls) = _
    rw [held_withdraw, leases_withdraw]

/-- A cancelled execution makes no other move, unless it is dropped. -/
theorem leaves_of_cancelled (hb : b.Orderly) (hstep : b.step c m = some e) (hcall : call ∈ b.calls)
    (hexecutes : call.point.executes = true) (hgone : b.isCancelled call.token = true)
    (hmoves : m.call? = some call.no) : m = .abandon call.no ∨ m = call.point.leaves call.no := by
  -- each move of a call is made by the call of that number
  have hsame : ∀ {k : Call}, b.call? k.no = some k → some k.no = some call.no → k = call := by
    intro k hk hno
    rw [Option.some.inj hno, call?_of_mem hb.nodup hcall] at hk
    exact (Option.some.inj hk).symm
  cases makes_of_step hstep with
  | start k purpose hk hpoint =>
    obtain rfl := hsame hk hmoves
    exact Or.inr (by rw [hpoint]; rfl)
  | abandon k hk =>
    obtain rfl := hsame hk hmoves
    exact Or.inl rfl
  | created k _ _ _ _ hk _ hgo | createExpired k _ _ _ hk _ hgo _ | operated k _ _ _ _ _ hk _ hgo
  | createWoken k _ _ _ hk _ hgo _ | woken k _ _ hk _ hgo _ =>
    obtain rfl := hsame hk hmoves
    rw [hgone] at hgo
    cases hgo
  | creationNoticed k _ _ _ hk hpoint _ | createPauseNoticed k _ _ _ hk hpoint _
  | operationNoticed k _ _ _ hk hpoint _ | pauseNoticed k _ _ hk hpoint _ =>
    obtain rfl := hsame hk hmoves
    exact Or.inr (by rw [hpoint]; rfl)
  | proceed k hk hcloses =>
    obtain rfl := hsame hk hmoves
    rw [closes_of_executes hexecutes] at hcloses
    cases hcloses
  | _ => cases hmoves

/-! ## Answers that come in time -/

omit [PooledError ε] in
/-- No time passes when an operation cancels its call. -/
theorem now_cancel (e : Engine ε α) (cancels : Bool) (t : Token) :
    (if cancels then e.cancel t else e).now = e.now := by
  cases cancels with
  | false => rfl
  | true =>
    show (e.cancel t).now = e.now
    unfold cancel
    split <;> rfl

omit [PooledError ε] in
/-- No time passes while a failure is assessed and its session is parted from. -/
theorem now_parted (e : Engine ε α) (c : Setup) (f : Fault) (a : Attempt) (id : SessionId) (givesUp : Bool) :
    ((e.assess c .operation f a).2.partFrom c id givesUp).now = e.now :=
  calc ((e.assess c .operation f a).2.partFrom c id givesUp).now
      = (e.assess c .operation f a).2.now := congrArg Course.now (course_partFrom _ c id givesUp)
    _ = e.now := congrArg Course.now (course_assess e c f a)

/-- An answer that is passed on ends its execution, no time passes, and the caller is told the answer. -/
theorem operated_of_passesOn (e : Engine ε α) (c : Setup) (call : Call) {a : Attempt} (k : Handle)
    {result : Except ε α} (hpasses : c.operations.PassesOn a result) :
    (e.operated c call a k result).now = e.now ∧ (e.operated c call a k result).HasEnded call.no ∧
      (e.operated c call a k result).signals.getLast? = some (.executed call.no result) := by
  cases result with
  | ok v =>
    have hended := hasEnded_finish (e.giveBack c k.id) call.no (.ok v)
    exact ⟨congrArg Course.now (course_giveBack e c k.id), hended⟩
  | error error =>
    rw [operated_error, (c.operations.delay_eq_none_iff_passesOn a error e.generator).mpr hpasses]
    exact ⟨now_parted e c _ a k.id _, hasEnded_finish _ call.no (.error error)⟩

/-- An answer that comes before the cancellation is seen is passed on, even if the call is cancelled while it
is given. -/
theorem step_of_passesOn (hfind : b.call? call.no = some call) {a : Attempt} {k : Handle} {since : Nat}
    (hpoint : call.point = .operating a k since) (hgo : b.isCancelled call.token = false) (cancels : Bool)
    {result : Except ε α} (hpasses : c.operations.PassesOn a result) :
    ∃ e, b.step c (.operated call.no cancels result) = some e ∧ e.now = b.now ∧ e.HasEnded call.no ∧
      e.signals.getLast? = some (.executed call.no result) := by
  obtain ⟨hnow, hended⟩ :=
    operated_of_passesOn (if cancels then b.cancel call.token else b) c call k hpasses
  refine ⟨_, ?_, hnow.trans (now_cancel b cancels call.token), hended⟩
  simp only [step, hfind, Option.bind_eq_bind, Option.bind_some, hpoint, hgo, Bool.false_eq_true, if_false]

/-! ## Answers that come too late -/

/-- An execution that goes on cancels nothing, and so it is not cancelled by that. -/
theorem cancelled_reject (e : Engine ε α) (no : TaskNo) (client : Client) (p : PoolError) :
    (e.reject no client p).cancelled = e.cancelled := by
  cases client <;> rfl

theorem cancelled_followCreation (e : Engine ε α) (c : Setup) (no : TaskNo) (client : Client)
    (next : Loop.Next RpcError) : (e.followCreation c no client next).cancelled = e.cancelled := by
  cases next with
  | attempt a | pause a wake => rfl
  | fail error => cases error <;> exact cancelled_reject _ no client _

theorem cancelled_acquireFor (e : Engine ε α) (c : Setup) (no : TaskNo) (token : Token) (client : Client) :
    (e.acquireFor c no token client).cancelled = e.cancelled := by
  have hsearched : (e.searched c).cancelled = e.cancelled := cancelled_of_course (course_searched e c)
  have hlease : ∀ (e : Engine ε α) (h : Handle), (e.lease no client h).cancelled = e.cancelled := by
    intro e h
    cases client <;> rfl
  by_cases hclosed : e.pool.closed = true
  · rw [acquireFor_closed hclosed, cancelled_reject]
  · rw [acquireFor_open (by simpa using hclosed)]
    cases e.search.leased with
    | some x => exact (hlease _ _).trans hsearched
    | none =>
      dsimp only
      split
      · exact (cancelled_followCreation _ c no client _).trans hsearched
      · exact (cancelled_reject _ no client _).trans hsearched

theorem cancelled_follow (e : Engine ε α) (c : Setup) (no : TaskNo) (token : Token) (next : Loop.Next ε) :
    (e.follow c no token next).cancelled = e.cancelled := by
  cases next with
  | attempt a => exact cancelled_acquireFor e c no token (.attempt a)
  | pause a wake | fail error => rfl

/-- A failure that would be followed by another attempt ends its execution as cancelled, if the call has been
cancelled when it has been assessed. -/
theorem operated_of_cancelled (e : Engine ε α) (c : Setup) (call : Call) {a : Attempt} (k : Handle)
    {error : ε} (hretried : ¬ c.operations.PassesOn a (.error error : Except ε α))
    (hgone : (e.operated c call a k (.error error)).isCancelled call.token = true) :
    (e.operated c call a k (.error error)).now = e.now ∧
      (e.operated c call a k (.error error)).HasEnded call.no ∧
      (e.operated c call a k (.error error)).signals.getLast? =
        some (.executed call.no (.error CallError.cancelled)) := by
  obtain ⟨d, hdelay⟩ := Option.ne_none_iff_exists'.mp
    (mt (c.operations.delay_eq_none_iff_passesOn a error e.generator).mp hretried)
  -- the token is cancelled when the failure has been assessed, for what follows cancels nothing
  rw [operated_error, hdelay] at hgone ⊢
  rw [isCancelled, cancelled_follow] at hgone
  rw [show Engine.isCancelled _ call.token = true from hgone]
  exact ⟨now_parted e c _ a k.id _, hasEnded_finish _ call.no (.error CallError.cancelled)⟩

/-- After a failure of the operation that would be followed by another attempt, a call that has been
cancelled meanwhile has ended. -/
theorem ended_of_operated_of_cancelled (hfind : b.call? call.no = some call) {a : Attempt} {k : Handle}
    {since : Nat} (hpoint : call.point = .operating a k since) {cancels : Bool} {error : ε}
    (hretried : ¬ c.operations.PassesOn a (.error error : Except ε α))
    (hstep : b.step c (.operated call.no cancels (.error error)) = some e)
    (hgone : e.isCancelled call.token = true) :
    e.now = b.now ∧ e.HasEnded call.no ∧
      e.signals.getLast? = some (.executed call.no (.error CallError.cancelled)) := by
  simp only [step, hfind, Option.bind_eq_bind, Option.bind_some, hpoint] at hstep
  split at hstep
  · cases hstep
  · cases hstep
    obtain ⟨hnow, hended⟩ := operated_of_cancelled _ c call k hretried hgone
    exact ⟨hnow.trans (now_cancel b cancels call.token), hended⟩

end Engine

/-! ## Turns -/

/-- In a world an execution that has been cancelled has a turn to take, so the clock stands still until it has
ended. -/
theorem World.turn_of_cancelled {w : World} {call : Call} (hfind : w.engine.call? call.no = some call)
    (hexecutes : call.point.executes = true) (hgone : w.engine.isCancelled call.token = true) :
    (w.turn call.no).isSome = true := by
  have hstep := Engine.step_of_cancelled (c := w.setup) hfind hexecutes hgone
  have hmove : (w.move (call.point.leaves call.no)).isSome = true := by
    rw [move, hstep]
    rfl
  have hturn : w.turn call.no = w.turnCall call := by
    unfold turn
    rw [hfind]
  rw [hturn, turnCall]
  cases hpoint : call.point with
  | fresh purpose =>
    rw [hpoint] at hmove
    cases w.move (.noticed call.no) with
    | none => exact hmove
    | some w' => rfl
  | _ =>
    rw [hpoint] at hmove
    obtain ⟨w', hw'⟩ := Option.isSome_iff_exists.mp hmove
    rw [show w.move (.noticed call.no) = some w' from hw']
    rfl

namespace Engine

/-! ## Every moment -/

variable {c : Setup} {b e : Engine ε α}

/-- What becomes of an execution at every moment of a run at which it has not ended.  From the moment at
which its token is cancelled it asks for nothing any more.  It can see that at once, then it ends as
cancelled with all that it had given back, and it can do nothing else but be dropped.  An answer that comes
before is passed on as it is, unless the operation would have to be called again. -/
structure Cancellable [PooledError ε] (c : Setup) (b : Engine ε α) (call : Call) : Prop where
  /-- After a move in which it has been cancelled, or before which it was, the call asks for nothing. -/
  hushed : ∀ x e, b.stepAt c x = some e → e.isCancelled call.token = true →
    ∀ ys e', e.run c ys = some e' → e'.asked call.no = b.asked call.no
  /-- A cancelled call can end at once. -/
  ends : b.isCancelled call.token = true → ∀ place, ∃ e,
    b.stepAt c (place, call.point.leaves call.no) = some e ∧ EndsCancelled call b e
  /-- A cancelled call can do nothing else. -/
  only : b.isCancelled call.token = true → ∀ x e, b.stepAt c x = some e → x.2.call? = some call.no →
    x.2 = .abandon call.no ∨ x.2 = call.point.leaves call.no
  /-- An answer that comes in time is passed on. -/
  answers : b.isCancelled call.token = false → ∀ a h since, call.point = .operating a h since →
    ∀ place cancels result, c.operations.PassesOn a result → ∃ e,
      b.stepAt c (place, .operated call.no cancels result) = some e ∧ e.now = b.now ∧
        e.HasEnded call.no ∧ e.signals.getLast? = some (.executed call.no result)
  /-- If the operation fails, would be called again and the call has been cancelled meanwhile, the call ends
  at once as cancelled. -/
  seen : ∀ a h since, call.point = .operating a h since → ∀ place cancels error e,
    ¬ c.operations.PassesOn a (.error error : Except ε α) →
    b.stepAt c (place, .operated call.no cancels (.error error)) = some e →
    e.isCancelled call.token = true → e.now = b.now ∧ e.HasEnded call.no ∧
      e.signals.getLast? = some (.executed call.no (.error CallError.cancelled))

theorem cancellable_of_orderly [PooledError ε] (hb : b.Orderly) (c : Setup) {call : Call}
    (hcall : call ∈ b.calls) (hexecutes : call.point.executes = true) : Cancellable c b call where
  hushed := by
    intro x e hstep hgone ys e' hrun
    have hplace := hb.withBackground x.1
    -- no other call has this number, so every call that has it is cancelled
    have hseen : ∀ k ∈ b.calls, k.no = call.no → e.isCancelled k.token = true := by
      intro k hk hno
      rwa [List.inj_on_of_nodup_map hb.nodup hk hcall hno]
    have hasked := asked_of_step hplace hstep hseen
    have hhushed := hushed_of_cancelled hplace hstep (hb.no_lt call hcall) hseen
    exact (hushed_of_run (orderly_of_step hplace hstep) hhushed hrun).2.trans hasked
  ends := by
    intro hgone place
    have hfind := call?_of_mem hb.nodup hcall
    have hended := endsCancelled_withdraw (hb.withBackground place) hcall c
    exact ⟨_, step_of_cancelled (b := { b with background := place }) hfind hexecutes hgone,
      ⟨hended.now, hended.ended, hended.told, hended.place, hended.untracked, hended.leases⟩⟩
  only := by
    intro hgone x e hstep hmoves
    exact leaves_of_cancelled (hb.withBackground x.1) hstep hcall hexecutes hgone hmoves
  answers := by
    intro hgo a h since hpoint place cancels result hpasses
    have hfind := call?_of_mem hb.nodup hcall
    exact step_of_passesOn (b := { b with background := place }) hfind hpoint hgo cancels hpasses
  seen := by
    intro a h since hpoint place cancels error e hretried hstep hgone
    have hfind := call?_of_mem hb.nodup hcall
    exact ended_of_operated_of_cancelled (b := { b with background := place }) hfind hpoint hretried hstep
      hgone

/-- Cancellation stops a call of the plain retry loop at every moment (`Executor.Cancellable`), and an
execution of every pool at every moment of every run (`Engine.Cancellable`).  In a world, whose clock stands
still as long as anybody has a turn to take, a cancelled execution has one until it has ended. -/
theorem cancellation_stops_calls [PooledError ε] :
    (∀ (x : Executor) (idempotent : Bool) (op : Nat → Reply ε α) (s : Surroundings) (g : Generator),
      x.Cancellable idempotent op s g) ∧
    (∀ (c : Setup) (g : Generator) (xs : List (Bool × Move ε α)) (b : Engine ε α),
      (fresh g).run c xs = some b → ∀ call ∈ b.calls, call.point.executes = true →
        Cancellable c b call) ∧
    ∀ (w : World) (call : Call), w.engine.call? call.no = some call → call.point.executes = true →
      w.engine.isCancelled call.token = true → (w.turn call.no).isSome = true := by
  refine ⟨fun x idempotent op s g => x.cancellable idempotent op s g, ?_, ?_⟩
  · intro c g xs b hrun call hcall hexecutes
    exact cancellable_of_orderly (orderly_of_run (orderly_fresh g) hrun) c hcall hexecutes
  · intro w call hfind hexecutes hgone
    exact World.turn_of_cancelled hfind hexecutes hgone

/-- An execution waits for its operation when its token is cancelled, and a plain call for the delay after
its first attempt: both end at once, and the session of the operation is not tracked any more. -/
theorem cancellation_stops_calls_of_waiting :
    (∃ b e, (fresh ⟨1⟩).run (.ofConfig {} .standard none)
        (executing ++ [(true, .cancel (.unnamed 0))]) = some b ∧
      b.stepAt (.ofConfig {} .standard none) (true, .noticed 0) = some e ∧
      (b.pool.find? ⟨"a"⟩).isSome = true ∧ e.pool.find? ⟨"a"⟩ = none ∧
      e.signals.getLast? = some (.executed 0 (.error CallError.cancelled))) ∧
    ∀ first, ((⟨.ofConfig {}, .standard⟩ : Executor).run false Executor.flaky
      ((Surroundings.calm 0).cancelledAt 1 first) ⟨1⟩).elapsed = 1 := by
  constructor
  · obtain ⟨b, hrun, hcalls, hgone, htracked⟩ : ∃ b, (fresh ⟨1⟩).run (.ofConfig {} .standard none)
        (executing ++ [(true, .cancel (.unnamed 0))]) = some b ∧
        b.calls = [⟨0, .unnamed 0, 1, .operating (.first false) ⟨⟨"a"⟩, 1, 1⟩ 0⟩] ∧
        b.isCancelled (.unnamed 0) = true ∧ (b.pool.find? ⟨"a"⟩).isSome = true := ⟨_, rfl, rfl, rfl, rfl⟩
    obtain ⟨e, hstep, hends⟩ := (cancellation_stops_calls.2.1 _ _ _ b hrun
      ⟨0, .unnamed 0, 1, .operating (.first false) ⟨⟨"a"⟩, 1, 1⟩ 0⟩
      (by rw [hcalls]; exact List.mem_singleton_self _) rfl).ends hgone true
    exact ⟨b, e, hrun, hstep, htracked, hends.untracked ⟨⟨"a"⟩, 1, 1⟩ rfl, hends.told⟩
  · intro first
    have hlater : max 0 1 < ((⟨.ofConfig {}, .standard⟩ : Executor).run false Executor.flaky
        (Surroundings.calm 0).undisturbed ⟨1⟩).elapsed := by decide +kernel
    exact (((cancellation_stops_calls.1 ⟨.ofConfig {}, .standard⟩ false Executor.flaky (.calm 0) ⟨1⟩).cut
      1 first).cancelled (Surroundings.lastUnseen_le.trans_lt hlater)).2.1

end Engine

end PooledSessions
