import PooledSessions.Proofs.Pool.Runs
import PooledSessions.Proofs.Pool.SoleCall
import PooledSessions.Proofs.Retry.Attempts
/-!
# Executions in a pool that nobody else uses

The pooled retry loop leases a session for each attempt and parts from it afterwards; otherwise it is
meant to do what the plain loop does.  Here an execution is followed in a pool that nobody else uses
(`Execution`), with its monitors, the deletions of sessions and the clock going on between its moves
(`Execution.Alone`).  The state of the call says how many attempts it has made (`Execution.Going`), and
each of them has been told, recorded and timed as the plain loop does it.  A move leads from one such
state to another or to the end, so the two loops agree about everything but the sessions.
-/

namespace PooledSessions

variable {ε α : Type}

/-! ## What is told about an execution -/

/-- The session on which an operation of the call is started. -/
def Signal.startOf? (no : TaskNo) : Signal ε α → Option SessionInfo
  | .operationStarted call s => if call = no then some s else none
  | _ => none

/-- The record of an operation. -/
def Signal.operationRecord? : Signal ε α → Option AttemptRecord
  | .record .operation r => some r
  | _ => none

/-- The result with which the call ends. -/
def Signal.resultOf? (no : TaskNo) : Signal ε α → Option (Except ε α)
  | .executed call result => if call = no then some result else none
  | _ => none

namespace Engine

variable {e e' : Engine ε α}

/-- The sessions on which operations of a call have been started. -/
def startsOf (e : Engine ε α) (no : TaskNo) : List SessionInfo :=
  e.signals.filterMap (Signal.startOf? no)

/-- The records of operations. -/
def operationRecords (e : Engine ε α) : List AttemptRecord :=
  e.signals.filterMap Signal.operationRecord?

/-- The results with which a call has ended. -/
def resultsOf (e : Engine ε α) (no : TaskNo) : List (Except ε α) :=
  e.signals.filterMap (Signal.resultOf? no)

/-- What has been told since shows in each of the lists. -/
theorem told_since {more : List (Signal ε α)} (h : e'.course.told = e.course.told ++ more)
    (no : TaskNo) :
    e'.startsOf no = e.startsOf no ++ more.filterMap (Signal.startOf? no) ∧
      e'.operationRecords = e.operationRecords ++ more.filterMap Signal.operationRecord? ∧
      e'.resultsOf no = e.resultsOf no ++ more.filterMap (Signal.resultOf? no) := by
  have hsince : ∀ {β : Type} (f : Signal ε α → Option β), (∀ s, s.ofCall = false → f s = none) →
      e'.signals.filterMap f = e.signals.filterMap f ++ more.filterMap f := by
    intro β f hf
    rw [filterMap_signals hf, h, List.filterMap_append, filterMap_signals hf]
  refine ⟨hsince _ fun s hs => ?_, hsince _ fun s hs => ?_, hsince _ fun s hs => ?_⟩
  all_goals
    cases s
    all_goals first | rfl | cases hs

/-- An open pool that nobody uses: no call, no lease and no creation, and each tracked session lies on
the idle stack, under a flag that has been given away. -/
structure Quiet (e : Engine ε α) : Prop where
  /-- There are no calls. -/
  calls : e.calls = []
  /-- No caller holds a lease. -/
  held : e.held = []
  /-- No session is leased or created. -/
  unleased : e.pool.Unleased
  /-- The next number is the flag of no session. -/
  flag_lt : ∀ id t, e.pool.find? id = some t → t.flag < e.nextNo

/-- After every run in which the server names no session twice, an open pool without calls and leases is
quiet. -/
theorem quiet_of_run [PooledError ε] {c : Setup} {g : Generator} {xs : List (Bool × Move ε α)}
    (hnames : (named xs).Nodup) (hrun : (fresh g).run c xs = some e) (hopen : e.pool.closed = false)
    (hcalls : e.calls = []) (hheld : e.held = []) : e.Quiet := by
  have hrest := atRest_run (atRest_fresh c.limit g) hrun hnames (by simp)
  have hleases : e.held ++ Call.leases e.calls = [] := by
    rw [hheld, hcalls]
    rfl
  refine ⟨hcalls, hheld, ⟨hopen, ?_, fun id t ht => ?_⟩, fun id t ht => ?_⟩
  · rw [show e.pool.pending = Call.creations e.calls from hrest.pending, hcalls]
    rfl
  · have huse : t.use = .idle := by
      cases huse : t.use with
      | idle => rfl
      | leased =>
        obtain ⟨k, hk, -⟩ := hrest.lent.exists_lease id t ht huse
        rw [show e.ledger.held ++ Call.leases e.ledger.calls = e.held ++ Call.leases e.calls from rfl,
          hleases] at hk
        cases hk
    exact ⟨huse, (hrest.tables.mem_idle id).mpr ⟨t, ht, huse⟩⟩
  · exact hrest.flag_lt id t.flag (Or.inl ⟨t, ht, rfl⟩)

end Engine

/-! ## An execution and its surroundings -/

/-- An execution of an operation by a pool that nobody else uses. -/
structure Execution (ε α : Type) where
  /-- The pool. -/
  setup : Setup
  /-- The pool has room for a session. -/
  limit_pos : 1 ≤ setup.limit
  /-- How the operation behaves on each attempt. -/
  op : Nat → Reply ε α
  /-- The operation does not cancel its call. -/
  calm : ∀ i, (op i).cancels = false
  /-- Whether the operation may be repeated safely. -/
  idempotent : Bool
  /-- The token by which the call can be cancelled. -/
  token : Token
  /-- The pool before the call is set up. -/
  origin : Engine ε α
  /-- Nobody uses the pool. -/
  quiet : origin.Quiet

namespace Execution

/-- The number of the call. -/
def no (x : Execution ε α) : TaskNo := x.origin.nextNo

/-- The pool when the call has been set up. -/
def entered (x : Execution ε α) : Engine ε α := x.origin.addCall (.operation x.idempotent) x.token

/-- The attempt that follows `n` others. -/
def attempt (x : Execution ε α) (n : Nat) : Attempt := ⟨n + 1, x.idempotent⟩

/-- How often the operation has been started. -/
def startedOf (x : Execution ε α) (e : Engine ε α) : Nat :=
  ((e.call? x.no).map Call.started).getD 0

/-- How the attempt that was started last behaves. -/
def reply (x : Execution ε α) (e : Engine ε α) : Reply ε α := x.op (x.startedOf e - 1)

/-- Until when the call waits for its operation or for the end of a delay.  It waits for nothing else. -/
def due (x : Execution ε α) (e : Engine ε α) : Nat :=
  match (e.call? x.no).map Call.point with
  | some (.operating _ _ since) => since + boundedWait (x.reply e).work
  | some (.pausing _ wake) => wake
  | _ => e.now

/-- The moves of the call when each session that it asks for is created at once and its operation works as
it does, and the moves in which monitors, deletions and tokens go on meanwhile.  The clock goes on only
while the call waits. -/
def Alone (x : Execution ε α) (e : Engine ε α) : Move ε α → Prop
  | .start _ => True
  | .woken _ => True
  | .created _ result => result.isOk = true
  | .operated _ cancels result => cancels = false ∧ result = (x.reply e).result ∧ x.due e ≤ e.now
  | m => ∃ millis, m.passes? = some millis ∧ (millis = 0 ∨ e.now + millis ≤ x.due e)

/-- The lease on which an attempt is started in a move, with the liveness flags at that moment. -/
def begun (x : Execution ε α) (e e' : Engine ε α) : Option (Handle × Flags) :=
  (e'.call? x.no).bind fun call =>
    if call.started = x.startedOf e then none else call.point.lease?.map fun k => (k, e'.flags)

section Runs

variable [PooledError ε]

/-- What the plain retry loop does with the operation. -/
def plain (x : Execution ε α) : Run ε α :=
  x.setup.operations.run x.idempotent x.op (.atStart false none none) x.origin.generator

/-- All moves of a run are made by the call alone, or beside it. -/
def AllAlone (x : Execution ε α) : Engine ε α → List (Bool × Move ε α) → Prop
  | _, [] => True
  | e, y :: ys => x.Alone e y.2 ∧ ∀ e', e.stepAt x.setup y = some e' → x.AllAlone e' ys

/-- The leases on which the attempts of a run are started, each with the liveness flags at that
moment. -/
def leases (x : Execution ε α) : Engine ε α → List (Bool × Move ε α) → List (Handle × Flags)
  | _, [] => []
  | e, y :: ys =>
    match e.stepAt x.setup y with
    | some e' => (x.begun e e').toList ++ x.leases e' ys
    | none => []

/-- The plain run goes no further than its attempt `k`. -/
def Stops (x : Execution ε α) (k : Nat) : Prop := x.setup.operations.Stops x.idempotent x.op k

/-- The record of attempt `k` of the plain run, if it fails. -/
def record? (x : Execution ε α) (k : Nat) : Option AttemptRecord :=
  x.setup.operations.record? x.idempotent x.op x.origin.generator k

/-- The records of the first `n` attempts of the plain run. -/
def records (x : Execution ε α) (n : Nat) : List AttemptRecord :=
  x.setup.operations.firstRecords x.idempotent x.op x.origin.generator n

/-- What the clock shows when the plain run, begun with the call, starts its attempt `n + 1`. -/
def clock (x : Execution ε α) (n : Nat) : Nat :=
  x.origin.now + x.setup.operations.startMillis x.idempotent x.op x.origin.generator n

end Runs

variable {x : Execution ε α} {e e' : Engine ε α} {call : Call}

theorem startedOf_of_calls (hcalls : e.calls = [call]) (hno : call.no = x.no) :
    x.startedOf e = call.started := by
  rw [startedOf, ← hno, Engine.call?_of_calls hcalls]
  rfl

theorem due_of_calls (hcalls : e.calls = [call]) (hno : call.no = x.no) :
    x.due e = match call.point with
      | .operating _ _ since => since + boundedWait (x.op (call.started - 1)).work
      | .pausing _ wake => wake
      | _ => e.now := by
  unfold due reply
  rw [startedOf_of_calls hcalls hno, ← hno, Engine.call?_of_calls hcalls, Option.map_some]
  cases call.point <;> rfl

theorem begun_of_calls (hcalls : e'.calls = [call]) (hno : call.no = x.no) :
    x.begun e e' =
      if call.started = x.startedOf e then none else call.point.lease?.map fun k => (k, e'.flags) := by
  rw [begun, ← hno, Engine.call?_of_calls hcalls]
  rfl

theorem begun_of_ended (hcalls : e'.calls = []) : x.begun e e' = none := by
  rw [begun, Engine.call?, hcalls]
  rfl

/-! ## What has been told, recorded and leased -/

/-- The server has named a session: before the call, or since. -/
def Known (x : Execution ε α) (told : List SessionId) (id : SessionId) : Prop :=
  (∃ t, x.origin.pool.find? id = some t) ∨ id ∈ told

/-- The server has named no session twice since the call was set up, and none that was tracked then. -/
def Novel (x : Execution ε α) (told : List SessionId) : Prop :=
  told.Nodup ∧ ∀ id ∈ told, x.origin.pool.find? id = none

theorem Novel.of_append {told more : List SessionId} (h : x.Novel (told ++ more)) : x.Novel told :=
  ⟨(List.nodup_append.mp h.1).1, fun id hid => h.2 id (List.mem_append_left _ hid)⟩

theorem Known.append {told : List SessionId} {id : SessionId} (h : x.Known told id)
    (more : List SessionId) : x.Known (told ++ more) id :=
  h.imp_right (List.mem_append_left more)

/-- A session that the server names newly is none that it has named before. -/
theorem Novel.ne_of_known {told : List SessionId} {id fresh : SessionId} (h : x.Novel (told ++ [fresh]))
    (hknown : x.Known told id) : fresh ≠ id := by
  rintro rfl
  rcases hknown with ⟨t, ht⟩ | hin
  · rw [h.2 fresh (List.mem_append_right _ (List.mem_singleton_self _))] at ht
    cases ht
  · exact (List.nodup_append.mp h.1).2.2 fresh hin fresh (List.mem_singleton_self _) rfl

/-- An attempt runs on the session of the attempt before exactly if the record of that one does not blame
the session and the session is still alive. -/
structure Linked (x : Execution ε α) (told : List SessionId) (r : AttemptRecord)
    (l l' : Handle × Flags) : Prop where
  /-- When the lease is the same. -/
  same_iff : l'.1 = l.1 ↔ r.invalidatesSession = false ∧ l'.2.isAlive l.1.flag = true
  /-- Another lease is on another session. -/
  id_ne : x.Novel told → l'.1 ≠ l.1 → l'.1.id ≠ l.1.id

theorem Linked.append {told : List SessionId} {r : AttemptRecord} {l l' : Handle × Flags}
    (h : x.Linked told r l l') (more : List SessionId) : x.Linked (told ++ more) r l l' :=
  ⟨h.same_iff, fun hnovel => h.id_ne hnovel.of_append⟩

variable [PooledError ε]

/-- What has been told when `n` attempts have ended and one has been started on each of the leases
`L`. -/
structure Logged (x : Execution ε α) (n : Nat) (L : List (Handle × Flags)) (told : List SessionId)
    (e : Engine ε α) : Prop where
  /-- The operation has been started on the sessions of the leases. -/
  starts : e.startsOf x.no = x.origin.startsOf x.no ++ L.map fun l => l.1.info
  /-- The attempts that have ended have the records of the plain run. -/
  records : e.operationRecords = x.origin.operationRecords ++ x.records n
  /-- Each attempt but the first one runs on the session that the attempt before leaves to it. -/
  linked : ∀ i l l', L[i]? = some l → L[i + 1]? = some l' →
    ∃ r, x.record? (i + 1) = some r ∧ x.Linked told r l l'

/-- The call when `n` attempts have ended and one has been started on each of the leases `L`. -/
structure Midway (x : Execution ε α) (n : Nat) (L : List (Handle × Flags)) (told : List SessionId)
    (call : Call) (e : Engine ε α) : Prop where
  /-- There is no other call. -/
  calls : e.calls = [call]
  /-- No caller holds a lease. -/
  held : e.held = []
  /-- The call has its number. -/
  no : call.no = x.no
  /-- The call has its token. -/
  token : call.token = x.token
  /-- Its operation has been started on each of the leases. -/
  started : call.started = L.length
  /-- The plain run goes on after the attempts that have ended. -/
  goes : ∀ j, 1 ≤ j → j ≤ n → ¬ x.Stops j
  /-- A delay has been decided on after each of these attempts. -/
  generator : e.generator = x.origin.generator.afterDecisions n
  /-- What has been told. -/
  log : x.Logged n L told e
  /-- The call has not ended. -/
  results : e.resultsOf x.no = x.origin.resultsOf x.no

theorem Midway.call?_eq {n : Nat} {L : List (Handle × Flags)} {told : List SessionId}
    (h : x.Midway n L told call e) : e.call? x.no = some call :=
  h.no ▸ Engine.call?_of_calls h.calls

/-- The operation of an attempt behaves as it does on that attempt. -/
theorem Midway.reply_eq {n : Nat} {L : List (Handle × Flags)} {told : List SessionId}
    (h : x.Midway n L told call e) (hlength : L.length = n + 1) : x.reply e = x.op n := by
  rw [reply, startedOf_of_calls h.calls h.no, h.started, hlength, Nat.add_sub_cancel]

/-- A call that waits for its operation waits as long as the operation works. -/
theorem Midway.due_of_operating {n : Nat} {L : List (Handle × Flags)} {told : List SessionId}
    (h : x.Midway n L told call e) (hlength : L.length = n + 1) {a : Attempt} {k : Handle} {since : Nat}
    (hpoint : call.point = .operating a k since) : x.due e = since + boundedWait (x.op n).work := by
  rw [due_of_calls h.calls h.no, hpoint, h.started, hlength, Nat.add_sub_cancel]

/-- Sessions that are tracked and sessions that have been leased have flags that have been given away, and
the server has named them. -/
structure Placed (x : Execution ε α) (L : List (Handle × Flags)) (told : List SessionId)
    (e : Engine ε α) : Prop where
  /-- The tracked sessions. -/
  tracked : ∀ id t, e.pool.find? id = some t → t.flag < e.nextNo ∧ x.Known told id
  /-- The sessions of the leases. -/
  leased : ∀ l ∈ L, l.1.flag < e.nextNo ∧ x.Known told l.1.id

/-- Where the call stands when the server has named the sessions `told` since it was set up and the call
has made `spent` moves. -/
inductive Going (x : Execution ε α) (L : List (Handle × Flags)) (told : List SessionId) (spent : Nat)
    (e : Engine ε α) : Prop
  /-- The call has not been started. -/
  | entered (call : Call) (h : x.Midway 0 L told call e) (hlength : L.length = 0)
      (hpoint : call.point = .fresh (.operation x.idempotent)) (hpool : e.pool.Unleased)
      (hnow : e.now = x.clock 0) (hspent : spent = 0)
  /-- The call waits for a session, where no other one is left. -/
  | creating (n : Nat) (call : Call) (since : Nat) (h : x.Midway n L told call e)
      (hlength : L.length = n)
      (hpoint : call.point = .creating (.attempt (x.attempt n)) (.first true) since)
      (hpool : e.pool = ⟨[], [], 1, false⟩)
      (hlast : ∀ l ∈ L.getLast?, ∃ r, x.record? n = some r ∧ e.Apart r l.1)
      (hnow : e.now = x.clock n) (hspent : spent ≤ 3 * n + 1)
  /-- The call waits for its operation. -/
  | operating (n : Nat) (call : Call) (k : Handle) (flags : Flags) (h : x.Midway n L told call e)
      (hlength : L.length = n + 1) (hlast : L.getLast? = some (k, flags))
      (hpoint : call.point = .operating (x.attempt n) k (x.clock n)) (hpool : e.pool.Lends k)
      (hnow : e.now ≤ x.clock n + boundedWait (x.op n).work) (hspent : spent ≤ 3 * n + 2)
  /-- The call waits for the end of a delay. -/
  | pausing (n : Nat) (call : Call) (h : x.Midway (n + 1) L told call e) (hlength : L.length = n + 1)
      (hpoint : call.point = .pausing (x.attempt n) (x.clock (n + 1))) (hpool : e.pool.Unleased)
      (hlast : ∀ l ∈ L.getLast?, ∃ r, x.record? (n + 1) = some r ∧ e.Rests r l.1)
      (hnow : e.now ≤ x.clock (n + 1)) (hspent : spent ≤ 3 * (n + 1))

/-- The call has ended with its attempt `n + 1`. -/
structure Ended (x : Execution ε α) (n : Nat) (L : List (Handle × Flags)) (told : List SessionId)
    (spent : Nat) (e : Engine ε α) : Prop where
  /-- There are no calls. -/
  calls : e.calls = []
  /-- No caller holds a lease. -/
  held : e.held = []
  /-- Each attempt was started on a lease. -/
  length : L.length = n + 1
  /-- The plain run goes on after the attempts before. -/
  goes : ∀ j, 1 ≤ j → j ≤ n → ¬ x.Stops j
  /-- The plain run stops at the attempt. -/
  stops : x.Stops (n + 1)
  /-- What has been told. -/
  log : x.Logged (n + 1) L told e
  /-- The call has ended with the result of the attempt. -/
  results : e.resultsOf x.no = x.origin.resultsOf x.no ++ [(x.op n).result]
  /-- The clock shows the end of the attempt. -/
  now : e.now = x.clock n + boundedWait (x.op n).work
  /-- No session is leased. -/
  pool : e.pool.Unleased
  /-- How many moves the call has made. -/
  spent : spent ≤ 3 * (n + 1)

/-- The call goes on, or has ended. -/
def Stands (x : Execution ε α) (L : List (Handle × Flags)) (told : List SessionId) (spent : Nat)
    (e : Engine ε α) : Prop :=
  x.Going L told spent e ∨ ∃ n, x.Ended n L told spent e

variable {L : List (Handle × Flags)} {told : List SessionId} {n spent : Nat}

/-! ## Moves beside the call -/

omit [PooledError ε] in
theorem passes_of_alone {m : Move ε α} {millis : Nat} (h : x.Alone e m)
    (hpasses : m.passes? = some millis) : millis = 0 ∨ e.now + millis ≤ x.due e := by
  cases m with
  | advance _ =>
    obtain ⟨_, hsame, hdue⟩ := h
    cases hpasses
    cases hsame
    exact hdue
  | attached _ _ | heard _ _ | streamEnded _ | deleted _ _ | deletionExpired _ | cancel _ =>
    cases hpasses
    exact Or.inl rfl
  | _ => cases hpasses

/-- Where nothing is told about calls, the log stays as it is. -/
theorem Logged.of_told (h : x.Logged n L told e) (htold : e'.course.told = e.course.told) :
    x.Logged n L told e' ∧ e'.resultsOf x.no = e.resultsOf x.no := by
  have hnothing : e'.course.told = e.course.told ++ [] := by
    rw [htold, List.append_nil]
  obtain ⟨hstarts, hrecords, hresults⟩ := Engine.told_since hnothing x.no
  simp only [List.filterMap_nil, List.append_nil] at hstarts hrecords hresults
  exact ⟨⟨hstarts.trans h.starts, hrecords.trans h.records, h.linked⟩, hresults⟩

theorem Logged.aside {millis : Nat} (h : x.Logged n L told e) (haside : Engine.Aside millis e e') :
    x.Logged n L told e' ∧ e'.resultsOf x.no = e.resultsOf x.no := by
  refine h.of_told ?_
  rw [haside.course]

theorem Midway.aside {millis : Nat} (h : x.Midway n L told call e)
    (haside : Engine.Aside millis e e') : x.Midway n L told call e' where
  calls := (congrArg Course.calls haside.course).trans h.calls
  held := (congrArg Course.held haside.course).trans h.held
  no := h.no
  token := h.token
  started := h.started
  goes := h.goes
  generator := (congrArg Course.generator haside.course).trans h.generator
  log := (h.log.aside haside).1
  results := (h.log.aside haside).2.trans h.results

omit [PooledError ε] in
theorem apart_aside {millis : Nat} (haside : Engine.Aside millis e e') {r : AttemptRecord} {k : Handle}
    (h : e.Apart r k) : e'.Apart r k :=
  h.imp_right (haside.dead k.flag)

omit [PooledError ε] in
theorem rests_aside {millis : Nat} (haside : Engine.Aside millis e e') {r : AttemptRecord} {k : Handle}
    (h : e.Rests r k) : e'.Rests r k := by
  unfold Engine.Rests
  rw [haside.pool]
  exact h.imp_right (And.imp_right (apart_aside haside))

/-- Whatever happens beside the call, it stands where it stood. -/
theorem Going.aside {millis : Nat} (h : x.Going L told spent e) (haside : Engine.Aside millis e e')
    (hdue : millis = 0 ∨ e.now + millis ≤ x.due e) :
    x.Going L told spent e' ∧ x.begun e e' = none := by
  have hnow' : e'.now = e.now + millis := congrArg Course.now haside.course
  -- nothing that happens beside the call starts its operation
  have hbegun : ∀ {n : Nat} {call : Call}, x.Midway n L told call e → x.begun e e' = none := by
    intro n call h
    have hstarted := startedOf_of_calls h.calls h.no
    rw [begun_of_calls (h.aside haside).calls h.no, if_pos hstarted.symm]
  cases h with
  | entered call h hlength hpoint hpool hnow hspent =>
    rw [due_of_calls h.calls h.no, hpoint] at hdue
    refine ⟨.entered call (h.aside haside) hlength hpoint (haside.pool ▸ hpool) ?_ hspent, hbegun h⟩
    simp only at hdue
    omega
  | creating n call since h hlength hpoint hpool hlast hnow hspent =>
    rw [due_of_calls h.calls h.no, hpoint] at hdue
    refine ⟨.creating n call since (h.aside haside) hlength hpoint (haside.pool.trans hpool)
      (fun l hl => ?_) ?_ hspent, hbegun h⟩
    · obtain ⟨r, hr, hapart⟩ := hlast l hl
      exact ⟨r, hr, apart_aside haside hapart⟩
    · simp only at hdue
      omega
  | operating n call k flags h hlength hlast hpoint hpool hnow hspent =>
    rw [h.due_of_operating hlength hpoint] at hdue
    refine ⟨.operating n call k flags (h.aside haside) hlength hlast hpoint (haside.pool ▸ hpool) ?_
      hspent, hbegun h⟩
    omega
  | pausing n call h hlength hpoint hpool hlast hnow hspent =>
    rw [due_of_calls h.calls h.no, hpoint] at hdue
    refine ⟨.pausing n call (h.aside haside) hlength hpoint (haside.pool ▸ hpool) (fun l hl => ?_) ?_
      hspent, hbegun h⟩
    · obtain ⟨r, hr, hrests⟩ := hlast l hl
      exact ⟨r, hr, rests_aside haside hrests⟩
    · simp only at hdue
      omega

/-- A call that has ended stays so, and the clock shows when it has ended. -/
theorem Ended.aside {millis : Nat} (h : x.Ended n L told spent e) (haside : Engine.Aside millis e e')
    (hdue : millis = 0 ∨ e.now + millis ≤ x.due e) :
    x.Ended n L told spent e' ∧ x.begun e e' = none := by
  obtain ⟨hlog, hresults⟩ := h.log.aside haside
  have hcalls : e'.calls = [] := (congrArg Course.calls haside.course).trans h.calls
  have hnow : e'.now = e.now := by
    have hpassed : e'.now = e.now + millis := congrArg Course.now haside.course
    rw [due, Engine.call?, h.calls] at hdue
    simp only [List.find?_nil, Option.map_none] at hdue
    omega
  refine ⟨{ h with
    calls := hcalls
    held := (congrArg Course.held haside.course).trans h.held
    log := hlog
    results := hresults.trans h.results
    now := hnow.trans h.now
    pool := haside.pool ▸ h.pool }, begun_of_ended hcalls⟩

end Execution

end PooledSessions
