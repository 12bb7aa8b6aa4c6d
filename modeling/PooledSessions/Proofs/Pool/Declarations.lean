import PooledSessions.Proofs.Retry.Extension
import PooledSessions.Proofs.Pool.Itinerary
/-!
# What is declared of operations

Whoever has the pool execute an operation declares whether it is safe to repeat.  The declaration goes with
the attempts of the call and is told in the events about them, and nothing else in a running pool knows of
it.  So a pool in which everything is declared safe (`Engine.asSafe`) moves as the pool itself does, as long
as no operation fails with an unknown outcome (`Engine.step_asSafe`).
-/

namespace PooledSessions

variable {ε α : Type}

/-! ## Declaring everything safe -/

/-- An attempt that is declared safe to repeat. -/
def Attempt.asSafe (a : Attempt) : Attempt := { a with idempotent := true }

/-- For whom a session is acquired: for an attempt that is declared safe. -/
def Client.asSafe : Client → Client
  | .caller => .caller
  | .attempt a => .attempt a.asSafe

/-- What a call is for: an operation that is declared safe. -/
def Purpose.asSafe : Purpose → Purpose
  | .operation _ => .operation true
  | p => p

/-- Where a call waits whose operation is declared safe.  What is known of its creations stays. -/
def Point.asSafe : Point → Point
  | .fresh purpose => .fresh purpose.asSafe
  | .creating client a since => .creating client.asSafe a since
  | .createPause client a wake => .createPause client.asSafe a wake
  | .operating a h since => .operating a.asSafe h since
  | .pausing a wake => .pausing a.asSafe wake
  | p => p

/-- A call whose operation is declared safe. -/
def Call.asSafe (k : Call) : Call := { k with point := k.point.asSafe }

/-- How the retry loop goes on with an operation that is declared safe. -/
def Loop.Next.asSafe : Loop.Next ε → Loop.Next ε
  | .attempt a => .attempt a.asSafe
  | .pause a wake => .pause a.asSafe wake
  | .fail error => .fail error

/-- What is told of an attempt that is declared safe.  Other events say nothing of it. -/
def Event.asSafe (e : Event) : Event :=
  match e.topic with
  | .repetition =>
    { e with fields := e.fields.map fun (name, value) =>
        if name = "idempotent" then (name, .plain (toString true)) else (name, value) }
  | _ => e

/-- What the pool tells when everything is declared safe. -/
def Signal.asSafe : Signal ε α → Signal ε α
  | .event e => .event e.asSafe
  | s => s

/-- The same move, with an operation that is declared safe. -/
def Move.asSafe : Move ε α → Move ε α
  | .call purpose token => .call purpose.asSafe token
  | m => m

/-- A pool in which everything is declared safe. -/
def Engine.asSafe (e : Engine ε α) : Engine ε α :=
  { e with calls := e.calls.map Call.asSafe, signals := e.signals.map Signal.asSafe }

/-- A call that waits at the point makes attempts at creations only that are safe to repeat. -/
def Point.CreatesSafely : Point → Prop
  | .creating _ a _ => a.idempotent = true
  | .createPause _ a _ => a.idempotent = true
  | _ => True

/-- All attempts at creations are safe to repeat. -/
def Engine.CreatesSafely (e : Engine ε α) : Prop := ∀ k ∈ e.calls, k.point.CreatesSafely

/-- An operation that fails in the move does not leave its outcome unknown. -/
def Move.Determined [CallError ε] (c : Setup) : Move ε α → Prop
  | .operated _ _ (.error error) =>
    (c.operations.classifier.classify (CallError.toFault error)).failureClass ≠ .undetermined
  | _ => True

/-- The executor that assesses the attempts of a role. -/
def Setup.executor (c : Setup) : Role → Executor
  | .creation => c.creation
  | .operation => c.operations

/-- What is told of an assessment. -/
def Assessment.signals (x : Assessment) (role : Role) : List (Signal ε α) :=
  x.events.map Signal.event ++ [.record role x.record]

theorem Engine.assess_eq (e : Engine ε α) (c : Setup) (role : Role) (f : Fault) (a : Attempt) :
    e.assess c role f a = (((c.executor role).assess f a e.generator).record,
      ({ e with
        generator := ((c.executor role).assess f a e.generator).generator
        signals := e.signals ++ ((c.executor role).assess f a e.generator).signals role } :
          Engine ε α).observe c role) := by
  unfold Assessment.signals
  rw [← List.append_assoc]
  cases role <;> rfl

/-! ## The retry loop -/

theorem Attempt.asSafe_of_idempotent {a : Attempt} (ha : a.idempotent = true) : a.asSafe = a := by
  cases a
  cases ha
  rfl

theorem attemptEvent_asSafe (f : Fault) (a : Attempt) (r : AttemptRecord) :
    (Executor.attemptEvent f a r).asSafe = Executor.attemptEvent f a.asSafe r := by
  unfold Executor.attemptEvent
  dsimp only
  cases r.delay <;> simp [Event.asSafe, Attempt.asSafe]

theorem asSafe_of_mem_classifyEvents {c : Classifier} {f : Fault} {e : Event}
    (he : e ∈ c.classifyEvents f) : e.asSafe = e := by
  unfold Classifier.classifyEvents at he
  split at he <;> simp only [List.mem_nil_iff, List.mem_singleton] at he
  subst he
  rfl

/-- What is told of a classification says nothing of the attempt. -/
theorem classifyEvents_asSafe (c : Classifier) (f : Fault) :
    ((c.classifyEvents f).map (Signal.event : Event → Signal ε α)).map Signal.asSafe =
      (c.classifyEvents f).map Signal.event := by
  rw [List.map_map]
  exact List.map_congr_left fun e he => congrArg Signal.event (asSafe_of_mem_classifyEvents he)

section Loop

variable [CallError ε]

theorem Loop.start_asSafe (a : Attempt) (cancelled : Bool) :
    (Loop.start a cancelled : Loop.Next ε).asSafe = Loop.start a.asSafe cancelled := by
  unfold Loop.start
  split <;> rfl

theorem Loop.afterFailure_asSafe (a : Attempt) (e : ε) (delay : Option Span) (cancelled : Bool) (now : Nat) :
    (Loop.afterFailure a e delay cancelled now).asSafe =
      Loop.afterFailure a.asSafe e delay cancelled now := by
  unfold Loop.afterFailure
  cases delay with
  | none => rfl
  | some d =>
    dsimp only
    split
    · rfl
    · split <;> rfl

end Loop

namespace Engine

variable {e : Engine ε α}

/-! ## What the pool does in one go -/

@[simp] theorem pool_asSafe (e : Engine ε α) : e.asSafe.pool = e.pool := rfl

@[simp] theorem now_asSafe (e : Engine ε α) : e.asSafe.now = e.now := rfl

@[simp] theorem isAlive_asSafe (e : Engine ε α) : e.asSafe.isAlive = e.isAlive := rfl

@[simp] theorem isCancelled_asSafe (e : Engine ε α) (t : Token) :
    e.asSafe.isCancelled t = e.isCancelled t := rfl

theorem asSafe_tell (e : Engine ε α) (s : Signal ε α) : (e.tell s).asSafe = e.asSafe.tell s.asSafe := by
  simp [asSafe, tell]

/-- What is not told of attempts is told in the same words. -/
theorem asSafe_report (e : Engine ε α) {topic : Topic} (htopic : topic ≠ .repetition) (level : Level)
    (message : String) (fields : List (String × Detail)) :
    (e.report topic level message fields).asSafe = e.asSafe.report topic level message fields := by
  rw [report, asSafe_tell]
  cases topic <;> first | exact absurd rfl htopic | rfl

theorem asSafe_cancel (e : Engine ε α) (t : Token) : (e.cancel t).asSafe = e.asSafe.cancel t := by
  unfold cancel
  rw [isCancelled_asSafe]
  split <;> rfl

theorem call?_asSafe (e : Engine ε α) (no : TaskNo) : e.asSafe.call? no = (e.call? no).map Call.asSafe := by
  unfold call?
  exact List.find?_map

theorem asSafe_moveTo (e : Engine ε α) (no : TaskNo) (p : Point) :
    (e.moveTo no p).asSafe = e.asSafe.moveTo no p.asSafe := by
  unfold moveTo asSafe
  dsimp only
  rw [List.map_map, List.map_map]
  congr 1
  refine List.map_congr_left fun k _ => ?_
  by_cases hno : k.no = no <;> simp [Call.asSafe, hno]

theorem asSafe_countStart (e : Engine ε α) (no : TaskNo) :
    (e.countStart no).asSafe = e.asSafe.countStart no := by
  unfold countStart asSafe
  dsimp only
  rw [List.map_map, List.map_map]
  congr 1
  refine List.map_congr_left fun k _ => ?_
  by_cases hno : k.no = no <;> simp [Call.asSafe, hno]

theorem asSafe_endCall (e : Engine ε α) (no : TaskNo) : (e.endCall no).asSafe = e.asSafe.endCall no := by
  unfold endCall asSafe
  dsimp only
  rw [List.filter_map]
  rfl

theorem asSafe_addCall (e : Engine ε α) (purpose : Purpose) (token : Token) :
    (e.addCall purpose token).asSafe = e.asSafe.addCall purpose.asSafe token := by
  simp [addCall, asSafe, Call.asSafe, Point.asSafe]

theorem asSafe_stopMonitor (e : Engine ε α) (flag : FlagNo) :
    (e.stopMonitor flag).asSafe = e.asSafe.stopMonitor flag := rfl

theorem asSafe_startDeletion (e : Engine ε α) (c : Setup) (id : SessionId) (closer : Option TaskNo) :
    (e.startDeletion c id closer).asSafe = e.asSafe.startDeletion c id closer := by
  simp [startDeletion, asSafe, tell, Signal.asSafe]

theorem asSafe_deleteInBackground (e : Engine ε α) (c : Setup) (id : SessionId) :
    (e.deleteInBackground c id).asSafe = e.asSafe.deleteInBackground c id := by
  unfold deleteInBackground
  rw [show e.asSafe.background = e.background from rfl]
  split
  · exact asSafe_startDeletion e c id none
  · exact asSafe_report e (by simp) _ _ _

theorem asSafe_retire (e : Engine ε α) (c : Setup) (id : SessionId) (t : Tracked) (reason : String) :
    (e.retire c id t reason).asSafe = e.asSafe.retire c id t reason := by
  rw [retire, asSafe_deleteInBackground, asSafe_report _ (by simp), asSafe_stopMonitor]
  rfl

theorem asSafe_retireAll (c : Setup) (reason : String) (gone : List (SessionId × Tracked))
    (e : Engine ε α) : (e.retireAll c reason gone).asSafe = e.asSafe.retireAll c reason gone := by
  induction gone generalizing e with
  | nil => rfl
  | cons x gone ih => rw [retireAll_cons, retireAll_cons, ih, asSafe_retire]

theorem asSafe_withPool (e : Engine ε α) (p : Pool) :
    (e.withPool p).asSafe = e.asSafe.withPool p := rfl

@[simp] theorem search_asSafe (e : Engine ε α) : e.asSafe.search = e.search := rfl

theorem asSafe_searched (e : Engine ε α) (c : Setup) : (e.searched c).asSafe = e.asSafe.searched c := by
  rw [searched, asSafe_withPool, asSafe_retireAll]
  rfl

theorem asSafe_reserved (e : Engine ε α) : e.reserved.asSafe = e.asSafe.reserved := rfl

theorem asSafe_invalidate (e : Engine ε α) (c : Setup) (id : SessionId) :
    (e.invalidate c id).asSafe = e.asSafe.invalidate c id := by
  unfold invalidate
  rw [pool_asSafe]
  split
  · exact asSafe_retire _ c id _ _
  · rfl

theorem asSafe_giveBack (e : Engine ε α) (c : Setup) (id : SessionId) :
    (e.giveBack c id).asSafe = e.asSafe.giveBack c id := by
  unfold giveBack
  rw [pool_asSafe, isAlive_asSafe, now_asSafe]
  split
  · exact asSafe_retire _ c id _ _
  · rfl

theorem asSafe_loseLease (e : Engine ε α) (c : Setup) (id : SessionId) :
    (e.loseLease c id).asSafe = e.asSafe.loseLease c id := by
  rw [loseLease, asSafe_invalidate, asSafe_report _ (by simp)]
  rfl

theorem asSafe_releasePending (e : Engine ε α) : e.releasePending.asSafe = e.asSafe.releasePending := by
  unfold releasePending asSafe
  dsimp only
  split
  · congr 1
    rw [List.map_map, List.map_map]
    refine List.map_congr_left fun k _ => ?_
    obtain ⟨no, token, started, point⟩ := k
    cases point <;> rfl
  · rfl

theorem asSafe_observe (e : Engine ε α) (c : Setup) (role : Role) :
    (e.observe c role).asSafe = e.asSafe.observe c role := by
  unfold observe
  rcases c.observer with _ | o
  · rfl
  · cases role
    all_goals
      dsimp only
      rw [show e.asSafe.records = e.records from rfl]
      split
      · exact asSafe_cancel _ _
      · rfl

/-- A failure that is assessed alike is told in the same words. -/
theorem asSafe_assess (e : Engine ε α) (c : Setup) (role : Role) (f : Fault) (a : Attempt)
    (hrecord : ((c.executor role).assess f a.asSafe e.generator).record =
      ((c.executor role).assess f a e.generator).record) :
    e.asSafe.assess c role f a.asSafe = ((e.assess c role f a).1, (e.assess c role f a).2.asSafe) := by
  have hsignals : (((c.executor role).assess f a.asSafe e.generator).signals role : List (Signal ε α)) =
      (((c.executor role).assess f a e.generator).signals role).map Signal.asSafe := by
    unfold Assessment.signals
    rw [Executor.assess_events, Executor.assess_events, hrecord]
    simp only [List.map_append, List.map_cons, List.map_nil, classifyEvents_asSafe, List.append_assoc]
    simp [Signal.asSafe, attemptEvent_asSafe]
  have hgenerator : ((c.executor role).assess f a.asSafe e.generator).generator =
      ((c.executor role).assess f a e.generator).generator := by
    rw [Executor.assess_generator, Executor.assess_generator]
  rw [assess_eq, assess_eq, show e.asSafe.generator = e.generator from rfl]
  -- the assessments are only named here: what they draw at random must not be computed
  generalize (c.executor role).assess f a.asSafe e.generator = safe at *
  generalize (c.executor role).assess f a e.generator = assessed at *
  rw [hrecord, hsignals, hgenerator, asSafe_observe]
  congr 2
  simp [asSafe]

/-! ## Calls that go on -/

/-- A pool that has given a number away. -/
def numbered (e : Engine ε α) : Engine ε α := { e with nextNo := e.nextNo + 1 }

/-- A pool that tracks a new session.  Its monitor has to attach to it. -/
def enrolled (e : Engine ε α) (s : SessionInfo) (flag : FlagNo) : Engine ε α :=
  { e with
    pool := e.pool.register s flag e.now
    monitors := e.monitors ++ [⟨flag, s.id, .attaching⟩] }

theorem asSafe_numbered (e : Engine ε α) : e.numbered.asSafe = e.asSafe.numbered := rfl

theorem asSafe_enrolled (e : Engine ε α) (s : SessionInfo) (flag : FlagNo) :
    (e.enrolled s flag).asSafe = e.asSafe.enrolled s flag := rfl

theorem asSafe_finish (e : Engine ε α) (no : TaskNo) (result : Except ε α) :
    (e.finish no result).asSafe = e.asSafe.finish no result := by
  rw [finish, asSafe_tell, asSafe_endCall]
  rfl

theorem asSafe_lease (e : Engine ε α) (no : TaskNo) (client : Client) (h : Handle) :
    (e.lease no client h).asSafe = e.asSafe.lease no client.asSafe h := by
  cases client with
  | caller =>
    unfold lease
    dsimp only [Client.asSafe]
    rw [asSafe_tell]
    have hended : ({ e.endCall no with held := e.held ++ [h] } : Engine ε α).asSafe =
        { (e.endCall no).asSafe with held := e.held ++ [h] } := rfl
    rw [hended, asSafe_endCall]
    rfl
  | attempt a =>
    unfold lease
    dsimp only [Client.asSafe]
    rw [asSafe_tell, asSafe_moveTo, asSafe_countStart]
    rfl

theorem asSafe_settle (e : Engine ε α) (no : TaskNo) : (e.settle no).asSafe = e.asSafe.settle no := by
  unfold settle
  rw [pool_asSafe, show e.asSafe.deletions = e.deletions from rfl]
  split
  · exact asSafe_moveTo e no _
  · split
    · exact asSafe_moveTo e no _
    · rw [asSafe_tell, asSafe_endCall]
      rfl

theorem asSafe_dismissAll (c : Setup) (no : TaskNo) (gone : List (SessionId × Tracked)) (e : Engine ε α) :
    (e.dismissAll c no gone).asSafe = e.asSafe.dismissAll c no gone := by
  induction gone generalizing e with
  | nil => rfl
  | cons x gone ih =>
    rw [dismissAll_cons, dismissAll_cons, ih, asSafe_startDeletion]
    rfl

theorem asSafe_beginClose (e : Engine ε α) (c : Setup) (no : TaskNo) :
    (e.beginClose c no).asSafe = e.asSafe.beginClose c no := by
  have hannounced : e.announceClosing.asSafe = e.asSafe.announceClosing := by
    unfold announceClosing
    rw [pool_asSafe]
    split
    · rfl
    · exact asSafe_report _ (by simp) _ _ _
  rw [beginClose_eq, beginClose_eq, asSafe_moveTo, asSafe_withPool, asSafe_dismissAll, hannounced]
  rfl

@[simp] theorem monitor?_asSafe (e : Engine ε α) (no : TaskNo) : e.asSafe.monitor? no = e.monitor? no := rfl

@[simp] theorem deletion?_asSafe (e : Engine ε α) (no : TaskNo) :
    e.asSafe.deletion? no = e.deletion? no := rfl

theorem asSafe_endDeletion (e : Engine ε α) (no : TaskNo) :
    (e.endDeletion no).asSafe = e.asSafe.endDeletion no := rfl

theorem asSafe_condemn (e : Engine ε α) (m : Monitor) (reason : String) :
    (e.condemn m reason).asSafe = e.asSafe.condemn m reason := by
  unfold condemn
  rw [show e.asSafe.flags = e.flags from rfl]
  rcases e.flags.markDead m.no with ⟨seen, flags⟩
  dsimp only
  split
  · exact asSafe_report _ (by simp) _ _ _
  · rfl

theorem asSafe_attached (e : Engine ε α) (m : Monitor) (result : Except RpcError Nat) :
    (e.attached m result).asSafe = e.asSafe.attached m result := by
  cases result with
  | ok stream => rfl
  | error error => exact asSafe_condemn e m _

theorem asSafe_heard (e : Engine ε α) (m : Monitor) (message : Except RpcError SessionStatus) :
    (e.heard m message).asSafe = e.asSafe.heard m message := by
  rcases message with error | _ | code
  · exact asSafe_condemn e m _
  · rfl
  · exact asSafe_condemn e m _

theorem asSafe_deleted (e : Engine ε α) (d : Deletion) (result : Except RpcError Unit) :
    (e.deleted d result).asSafe = e.asSafe.deleted d result := by
  cases result with
  | ok _ => exact asSafe_report _ (by simp) _ _ _
  | error error => exact asSafe_report _ (by simp) _ _ _

theorem asSafe_abandon (e : Engine ε α) (c : Setup) (call : Call) :
    (e.abandon c call).asSafe = e.asSafe.abandon c call.asSafe := by
  obtain ⟨no, token, started, point⟩ := call
  have hended := asSafe_endCall e no
  unfold abandon
  dsimp only [Call.asSafe]
  rw [← hended]
  cases point with
  | creating client a since =>
    dsimp only [Point.asSafe]
    rw [asSafe_releasePending, asSafe_tell]
    rfl
  | createPause client a wake => exact asSafe_releasePending _
  | operating a h since => exact asSafe_loseLease _ c h.id
  | _ => rfl

theorem asSafe_proceed (e : Engine ε α) (call : Call) :
    (e.proceed call).map asSafe = e.asSafe.proceed call.asSafe := by
  obtain ⟨no, token, started, point⟩ := call
  have hsettled : ∀ waits : Bool, (if waits then none else some (e.settle no)).map asSafe =
      if waits then none else some (e.asSafe.settle no) := by
    intro waits
    cases waits with
    | true => rfl
    | false => exact congrArg some (asSafe_settle e no)
  cases point with
  | deleting => exact hsettled _
  | draining woken =>
    cases woken with
    | true => exact hsettled false
    | false => rfl
  | settling => exact hsettled _
  | _ => rfl

variable [PooledError ε]

theorem register_eq (e : Engine ε α) (c : Setup) (no : TaskNo) (client : Client) (s : SessionInfo) :
    e.register c no client s =
      if e.pool.closed then
        (e.numbered.deleteInBackground c s.id).releasePending.reject no client .closed
      else
        ((e.numbered.releasePending.enrolled s e.nextNo).report .pool .debug "session created"
          [("session_id", s.id.text), ("node_id", toString s.node)]).lease no client
            ⟨s.id, s.node, e.nextNo⟩ := rfl

theorem asSafe_reject (e : Engine ε α) (no : TaskNo) (client : Client) (p : PoolError) :
    (e.reject no client p).asSafe = e.asSafe.reject no client.asSafe p := by
  cases client with
  | caller =>
    unfold reject
    dsimp only [Client.asSafe]
    rw [asSafe_tell, asSafe_endCall]
    rfl
  | attempt a => exact asSafe_finish e no _

theorem asSafe_followCreation (e : Engine ε α) (c : Setup) (no : TaskNo) (client : Client)
    (next : Loop.Next RpcError) :
    (e.followCreation c no client next).asSafe = e.asSafe.followCreation c no client.asSafe next := by
  have htold : ∀ error : RpcError,
      ({ e with signals := e.signals ++
        (c.creation.classifier.classifyEvents (.rpc error)).map Signal.event } : Engine ε α).asSafe =
      { e.asSafe with signals := e.asSafe.signals ++
        (c.creation.classifier.classifyEvents (.rpc error)).map Signal.event } := by
    intro error
    unfold asSafe
    rw [List.map_append, classifyEvents_asSafe]
  -- whatever the error is, the same is reported and the client is told the same
  have hfailed : ∀ (error : RpcError) (fields : List (String × Detail)) (p : PoolError),
      ((({ e with signals := e.signals ++
          (c.creation.classifier.classifyEvents (.rpc error)).map Signal.event } : Engine ε α).report
        .pool .warn "session creation failed" fields).releasePending.reject no client p).asSafe =
      ((({ e.asSafe with signals := e.asSafe.signals ++
          (c.creation.classifier.classifyEvents (.rpc error)).map Signal.event } : Engine ε α).report
        .pool .warn "session creation failed" fields).releasePending.reject no client.asSafe p) := by
    intro error fields p
    rw [asSafe_reject, asSafe_releasePending, asSafe_report _ (by simp), htold]
  cases next with
  | attempt a =>
    unfold followCreation
    dsimp only
    rw [asSafe_tell, asSafe_moveTo]
    rfl
  | pause a wake => exact asSafe_moveTo e no _
  | fail error =>
    cases error with
    | cancelled =>
      unfold followCreation
      dsimp only
      rw [asSafe_reject, asSafe_releasePending]
    | transport code message => exact hfailed _ _ _
    | status code message => exact hfailed _ _ _

theorem asSafe_acquireFor (e : Engine ε α) (c : Setup) (no : TaskNo) (token : Token) (client : Client) :
    (e.acquireFor c no token client).asSafe = e.asSafe.acquireFor c no token client.asSafe := by
  by_cases hclosed : e.pool.closed = true
  · rw [acquireFor_closed hclosed, acquireFor_closed (e := e.asSafe) hclosed, asSafe_reject]
  · have hopen : e.pool.closed = false := by simpa using hclosed
    rw [acquireFor_open hopen, acquireFor_open (e := e.asSafe) hopen, search_asSafe, ← asSafe_searched]
    rcases e.search.leased with _ | ⟨id, t⟩
    · dsimp only
      rw [pool_asSafe, isCancelled_asSafe]
      split
      · rw [asSafe_followCreation, asSafe_reserved]
      · rw [asSafe_reject]
    · exact asSafe_lease _ no client _

theorem asSafe_register (e : Engine ε α) (c : Setup) (no : TaskNo) (client : Client) (s : SessionInfo) :
    (e.register c no client s).asSafe = e.asSafe.register c no client.asSafe s := by
  rw [register_eq, register_eq, pool_asSafe]
  split
  · rw [asSafe_reject, asSafe_releasePending, asSafe_deleteInBackground, asSafe_numbered]
  · rw [asSafe_lease, asSafe_report _ (by simp), asSafe_enrolled, asSafe_releasePending, asSafe_numbered]
    rfl

theorem asSafe_follow (e : Engine ε α) (c : Setup) (no : TaskNo) (token : Token) (next : Loop.Next ε) :
    (e.follow c no token next).asSafe = e.asSafe.follow c no token next.asSafe := by
  cases next with
  | attempt a => exact asSafe_acquireFor e c no token _
  | pause a wake => exact asSafe_moveTo e no _
  | fail error => exact asSafe_finish e no _

/-! ## The moves -/

theorem asSafe_start (e : Engine ε α) (c : Setup) (call : Call) (purpose : Purpose) :
    (e.start c call purpose).asSafe = e.asSafe.start c call.asSafe purpose.asSafe := by
  cases purpose with
  | lease => exact asSafe_acquireFor e c _ _ _
  | operation idempotent =>
    have hnext := Loop.start_asSafe (ε := ε) (.first idempotent) (e.isCancelled call.token)
    show (e.follow c call.no call.token _).asSafe = e.asSafe.follow c call.no call.token _
    rw [asSafe_follow, hnext]
    rfl
  | closing => exact asSafe_beginClose e c _

/-- A failed attempt at a creation is safe to repeat anyway. -/
theorem asSafe_created (e : Engine ε α) (c : Setup) (call : Call) (client : Client) {a : Attempt}
    (ha : a.idempotent = true) (result : Except RpcError SessionInfo) :
    (e.created c call client a result).asSafe =
      e.asSafe.created c call.asSafe client.asSafe a result := by
  cases result with
  | ok s => exact asSafe_register e c call.no client s
  | error error =>
    have hassess := asSafe_assess e c .creation (.rpc error) a
      (by rw [Attempt.asSafe_of_idempotent ha])
    rw [Attempt.asSafe_of_idempotent ha] at hassess
    unfold created
    dsimp only
    rw [hassess, asSafe_followCreation]
    rfl

theorem asSafe_operated (e : Engine ε α) (c : Setup) (call : Call) (a : Attempt) (h : Handle)
    {result : Except ε α} (hdet : ∀ error, result = .error error →
      (c.operations.classifier.classify (CallError.toFault error)).failureClass ≠ .undetermined) :
    (e.operated c call a h result).asSafe = e.asSafe.operated c call.asSafe a.asSafe h result := by
  cases result with
  | ok v =>
    show ((e.giveBack c h.id).finish call.no (.ok v)).asSafe = _
    rw [asSafe_finish, asSafe_giveBack]
    rfl
  | error error =>
    have hassess := asSafe_assess e c .operation (CallError.toFault error) a
      (c.operations.assess_of_determined (show a.asSafe.number = a.number from rfl) (hdet error rfl)
        e.generator)
    unfold operated
    dsimp only
    rw [hassess]
    rcases e.assess c .operation (CallError.toFault error) a with ⟨record, e'⟩
    dsimp only
    rw [asSafe_follow, Loop.afterFailure_asSafe]
    split
    · rw [asSafe_invalidate, ← asSafe_invalidate]
      rfl
    · rw [asSafe_giveBack, ← asSafe_giveBack]
      rfl

theorem asSafe_noticed (e : Engine ε α) (c : Setup) (call : Call) :
    (e.noticed c call).map asSafe = e.asSafe.noticed c call.asSafe := by
  obtain ⟨no, token, started, point⟩ := call
  cases point with
  | creating client a since =>
    refine congrArg some ?_
    rw [asSafe_followCreation, asSafe_tell]
    rfl
  | createPause client a wake => exact congrArg some (asSafe_followCreation e c no client _)
  | operating a h since =>
    refine congrArg some ?_
    rw [asSafe_finish, asSafe_invalidate]
    rfl
  | pausing a wake => exact congrArg some (asSafe_finish e no _)
  | _ => rfl

theorem asSafe_woken (e : Engine ε α) (c : Setup) (call : Call) :
    (e.woken c call).map asSafe = e.asSafe.woken c call.asSafe := by
  obtain ⟨no, token, started, point⟩ := call
  cases point with
  | createPause client a wake =>
    unfold woken
    dsimp only [Call.asSafe, Point.asSafe]
    rw [now_asSafe, isCancelled_asSafe]
    split
    · exact congrArg some (asSafe_followCreation e c no client _)
    · rfl
  | pausing a wake =>
    unfold woken
    dsimp only [Call.asSafe, Point.asSafe]
    rw [now_asSafe, isCancelled_asSafe]
    split
    · refine congrArg some ?_
      rw [asSafe_follow, Loop.start_asSafe]
      rfl
    · rfl
  | _ => rfl

omit [PooledError ε] in
/-- Monitors, deletions and leases are those of the pool itself. -/
theorem bind_asSafe {β : Type} (found : Option β) {next next' : β → Option (Engine ε α)}
    (hnext : ∀ x, next' x = (next x).map asSafe) :
    found.bind next' = (found.bind next).map asSafe := by
  cases found with
  | none => rfl
  | some x => exact hnext x

omit [PooledError ε] in
theorem map_asSafe {β : Type} (found : Option β) {next next' : β → Engine ε α}
    (hnext : ∀ x, (next x).asSafe = next' x) : found.map next' = (found.map next).map asSafe := by
  cases found with
  | none => rfl
  | some x => exact congrArg some (hnext x).symm

omit [PooledError ε] in
/-- A call that moves is found under the same number. -/
theorem bind_call?_asSafe {no : TaskNo} {next next' : Call → Option (Engine ε α)}
    (hnext : ∀ call, e.call? no = some call → next' call.asSafe = (next call).map asSafe) :
    (e.asSafe.call? no).bind next' = ((e.call? no).bind next).map asSafe := by
  rw [call?_asSafe]
  cases hcall : e.call? no with
  | none => rfl
  | some call => exact hnext call hcall

/-- The pool in which everything is declared safe makes the moves of the pool itself. -/
theorem step_asSafe (hcreates : e.CreatesSafely) {m : Move ε α} (hdet : m.Determined c) :
    e.asSafe.step c m.asSafe = (e.step c m).map asSafe := by
  -- creations are declared safe in any case, so their failures are assessed alike
  have hcreating : ∀ {no call client a since}, e.call? no = some call →
      call.point = .creating client a since → a.idempotent = true := by
    intro no call client a since hcall hpoint
    have hsafe := hcreates call (mem_of_call? hcall).1
    rw [hpoint] at hsafe
    exact hsafe
  cases m with
  | call purpose token => exact congrArg some (asSafe_addCall e purpose token).symm
  | start no =>
    refine bind_call?_asSafe fun call hcall => ?_
    obtain ⟨no', token, started, point⟩ := call
    cases point with
    | fresh purpose => exact congrArg some (asSafe_start e c _ purpose).symm
    | _ => rfl
  | abandon no =>
    show (e.asSafe.call? no).map _ = ((e.call? no).map _).map asSafe
    rw [call?_asSafe]
    cases e.call? no with
    | none => rfl
    | some call => exact congrArg some (asSafe_abandon e c call).symm
  | created no result =>
    refine bind_call?_asSafe fun call hcall => ?_
    obtain ⟨no', token, started, point⟩ := call
    cases point with
    | creating client a since =>
      have hcreated := asSafe_created e c ⟨no', token, started, .creating client a since⟩ client
        (hcreating hcall rfl) result
      cases hgo : e.isCancelled token <;> simp [Call.asSafe, Point.asSafe, hgo, hcreated]
    | _ => rfl
  | createExpired no =>
    refine bind_call?_asSafe fun call hcall => ?_
    obtain ⟨no', token, started, point⟩ := call
    cases point with
    | creating client a since =>
      have hcreated := asSafe_created (e.tell (.createAbandoned no)) c
        ⟨no', token, started, .creating client a since⟩ client (hcreating hcall rfl) (.error creationTimeout)
      rw [asSafe_tell, show (Signal.createAbandoned no : Signal ε α).asSafe = .createAbandoned no from rfl]
        at hcreated
      by_cases hgo : e.isCancelled token ∨ e.now < since + c.createTimeout.waitMillis
      · simp [Call.asSafe, Point.asSafe, hgo]
      · simpa [Call.asSafe, Point.asSafe, hgo] using hcreated.symm
    | _ => rfl
  | operated no cancels result =>
    refine bind_call?_asSafe fun call hcall => ?_
    obtain ⟨no', token, started, point⟩ := call
    cases point with
    | operating a h since =>
      have hresult : ∀ error, result = .error error →
          (c.operations.classifier.classify (CallError.toFault error)).failureClass ≠ .undetermined := by
        rintro error rfl
        exact hdet
      have hoperated := fun e : Engine ε α =>
        asSafe_operated e c ⟨no', token, started, .operating a h since⟩ a h hresult
      cases hgo : e.isCancelled token with
      | true => simp [Call.asSafe, Point.asSafe, hgo]
      | false => cases cancels <;> simp [Call.asSafe, Point.asSafe, hgo, hoperated, asSafe_cancel]
    | _ => rfl
  | woken no =>
    refine bind_call?_asSafe fun call hcall => ?_
    cases hgo : e.isCancelled call.token <;> simp [Call.asSafe, hgo, asSafe_woken]
  | noticed no =>
    refine bind_call?_asSafe fun call hcall => ?_
    cases hgo : e.isCancelled call.token <;> simp [Call.asSafe, hgo, asSafe_noticed]
  | proceed no => exact bind_call?_asSafe fun call _ => (asSafe_proceed e call).symm
  | attached no result =>
    refine bind_asSafe (e.monitor? no) fun m => ?_
    cases m.watch <;> simp [asSafe_attached]
  | heard no message =>
    refine bind_asSafe (e.monitor? no) fun m => ?_
    cases m.watch <;> simp [asSafe_heard]
  | streamEnded no =>
    refine bind_asSafe (e.monitor? no) fun m => ?_
    cases m.watch <;> simp [asSafe_condemn]
  | deleted no result =>
    refine map_asSafe (e.deletion? no) fun d => asSafe_deleted e d result
  | deletionExpired no =>
    refine bind_asSafe (e.deletion? no) fun d => ?_
    by_cases hdue : e.now < d.deadline
    · simp [hdue]
    · simp [hdue, asSafe_report, asSafe_endDeletion]
  | release flag => exact map_asSafe (e.held? flag) fun h => asSafe_giveBack (e.part flag) c h.id
  | invalidate flag => exact map_asSafe (e.held? flag) fun h => asSafe_invalidate (e.part flag) c h.id
  | drop flag => exact map_asSafe (e.held? flag) fun h => asSafe_loseLease (e.part flag) c h.id
  | invalidateId id => exact congrArg some (asSafe_invalidate e c id).symm
  | cancel token => exact congrArg some (asSafe_cancel e token).symm
  | advance millis => rfl

end Engine

/-! ## Creations -/

@[simp] theorem Point.createsSafely_roused (p : Point) : p.roused.CreatesSafely ↔ p.CreatesSafely := by
  cases p <;> rfl

theorem Leases.createsSafely {now : Nat} {client : Client} {asked : List Request} {p : Point}
    (h : Leases now client asked (some p)) : p.CreatesSafely := by
  cases h
  trivial

theorem Acquires.createsSafely {now : Nat} {client : Client} {asked : List Request} {p : Point}
    (h : Acquires now client asked (some p)) : p.CreatesSafely := by
  cases h with
  | leases h => exact h.createsSafely
  | creates => rfl

theorem Retries.createsSafely {c : Setup} {now : Nat} {client : Client} {a : Attempt} {asked : List Request}
    {p : Point} (h : Retries c now client a asked (some p)) (ha : a.idempotent = true) :
    p.CreatesSafely := by
  cases h <;> exact ha

/-- The first attempt at a creation is safe to repeat, and so is the next after one that is. -/
theorem Leg.createsSafely {c : Setup} {now : Nat} {answered : Bool} {p p' : Point} {asked : List Request}
    (h : Leg c now answered p asked (some p')) (hp : p.CreatesSafely) : p'.CreatesSafely := by
  cases h with
  | acquires h => exact h.createsSafely
  | executes _ h => exact h.createsSafely
  | closes _ hp' => cases p' <;> trivial
  | created _ _ _ h => exact h.createsSafely
  | refused _ _ _ h => exact h.createsSafely hp
  | givesUp _ _ _ h => exact h.createsSafely hp
  | recreates => exact hp
  | repeats _ _ _ _ h => exact h.createsSafely
  | pauses => trivial
  | resumes _ _ h => exact h.createsSafely

namespace Engine

variable {c : Setup} {b e : Engine ε α}

theorem createsSafely_iff : e.CreatesSafely ↔ ∀ x ∈ e.itinerary.stops, x.2.CreatesSafely := by
  simp [CreatesSafely, itinerary]

/-- No move makes an attempt at a creation that is not safe to repeat. -/
theorem createsSafely_of_step [PooledError ε] {m : Move ε α} (h : b.CreatesSafely)
    (hstep : b.step c m = some e) : e.CreatesSafely := by
  rw [createsSafely_iff] at h ⊢
  cases travels_of_step hstep with
  | stays hm hi =>
    rw [hi]
    exact h
  | comes purpose token hm hi =>
    rw [hi]
    intro x hx
    rcases List.mem_append.mp hx with hx | hx
    · exact h x hx
    · rw [List.mem_singleton.mp hx]
      trivial
  | goes call hcall hm asked p hleg hi =>
    rw [hi]
    intro x hx
    obtain ⟨y, hy, hyx⟩ := List.mem_filterMap.mp hx
    split at hyx
    · obtain ⟨p', rfl, rfl⟩ := Option.map_eq_some_iff.mp hyx
      rw [Point.createsSafely_roused]
      refine hleg.createsSafely ?_
      exact createsSafely_iff.mpr h call (mem_of_call? hcall).1
    · rw [← Option.some.inj hyx]
      exact h y hy

end Engine

end PooledSessions
