import PooledSessions.Proofs.Pool.Execution.Basic
/-!
# The attempts of an execution

An attempt is started on a lease, which it gets from the idle stack or by a creation, and it ends with
its operation.  If the operation fails, the attempt is recorded and parts from its session, and the call
ends or goes on with the next attempt.  Each of these moves leads from one state of the call to another.
-/

namespace PooledSessions

namespace Execution

variable {ε α : Type} [PooledError ε] {x : Execution ε α} {e e' : Engine ε α} {call : Call}
  {L : List (Handle × Flags)} {told : List SessionId} {n spent : Nat}

/-! ## An attempt is started -/

/-- The sessions stay placed, and so is the one that the server names. -/
theorem Placed.step {m : Move ε α} (h : x.Placed L told e)
    (hstep : e.step x.setup m = some e')
    (hfresh : ∀ id ∈ m.named?, ∀ t, e'.pool.find? id = some t → t.flag < e'.nextNo) :
    x.Placed L (told ++ m.named?.toList) e' := by
  have hnextNo : e.nextNo ≤ e'.nextNo := by
    rcases Engine.onward_step hstep with honward | ⟨_, _, _, _, _, _, _, rfl⟩
    · exact honward.nextNo_le
    · exact Nat.le_refl _
  constructor
  · intro id t ht
    rcases (Engine.leadsTo_of_step hstep).descends.tables id t ht with hnamed | ⟨t₀, ht₀, hflag, -⟩
    · exact ⟨hfresh id hnamed t ht,
        Or.inr (List.mem_append_right _ (Option.mem_toList.mpr hnamed))⟩
    · obtain ⟨hlt, hknown⟩ := h.tracked id t₀ ht₀
      exact ⟨hflag ▸ hlt.trans_le hnextNo, hknown.append _⟩
  · intro l hl
    obtain ⟨hlt, hknown⟩ := h.leased l hl
    exact ⟨hlt.trans_le hnextNo, hknown.append _⟩

/-- Only a call that waits for its operation has just started it. -/
theorem Going.lends_of_begun (h : x.Going L told spent e') {l : Handle × Flags}
    (hbegun : x.begun e e' = some l) : e'.pool.Lends l.1 := by
  obtain ⟨call', hcall', hlease⟩ := Option.bind_eq_some_iff.mp hbegun
  split at hlease
  · cases hlease
  · obtain ⟨k', hk', rfl⟩ := Option.map_eq_some_iff.mp hlease
    have hnone : ∀ {n : Nat} {call : Call}, x.Midway n L told call e' → call.point.lease? = none →
        False := by
      intro n call h hpoint
      rw [Engine.eq_of_call? h.calls hcall', hpoint] at hk'
      cases hk'
    cases h with
    | entered call h hlength hpoint => exact (hnone h (by rw [hpoint]; rfl)).elim
    | creating n call since h hlength hpoint => exact (hnone h (by rw [hpoint]; rfl)).elim
    | pausing n call h hlength hpoint => exact (hnone h (by rw [hpoint]; rfl)).elim
    | operating n call k flags h hlength hlast hpoint hpool =>
      rw [Engine.eq_of_call? h.calls hcall', hpoint] at hk'
      cases hk'
      exact hpool

theorem Placed.begun (h : x.Placed L told e')
    (hstands : x.Stands (L ++ (x.begun e e').toList) told spent e') :
    x.Placed (L ++ (x.begun e e').toList) told e' := by
  refine ⟨h.tracked, fun l hl => ?_⟩
  rcases List.mem_append.mp hl with hl | hl
  · exact h.leased l hl
  · have hbegun := Option.mem_toList.mp hl
    rcases hstands with hgoing | ⟨n, hended⟩
    · obtain ⟨t, ht, -, hflag, -⟩ := (hgoing.lends_of_begun hbegun).leased
      exact hflag ▸ h.tracked _ t ht
    · rw [begun_of_ended hended.calls] at hbegun
      cases hbegun

/-- One more lease is linked to the last one. -/
theorem linked_append {l₁ : Handle × Flags}
    (h : ∀ i l l', L[i]? = some l → L[i + 1]? = some l' →
      ∃ r, x.record? (i + 1) = some r ∧ x.Linked told r l l')
    (hlast : ∀ l ∈ L.getLast?, ∃ r, x.record? L.length = some r ∧ x.Linked told r l l₁) :
    ∀ i l l', (L ++ [l₁])[i]? = some l → (L ++ [l₁])[i + 1]? = some l' →
      ∃ r, x.record? (i + 1) = some r ∧ x.Linked told r l l' := by
  intro i l l' hl hl'
  rcases Nat.lt_trichotomy (i + 1) L.length with hlt | heq | hgt
  · rw [List.getElem?_append_left (by omega)] at hl hl'
    exact h i l l' hl hl'
  · rw [List.getElem?_append_left (by omega)] at hl
    rw [heq, List.getElem?_concat_length, Option.some.injEq] at hl'
    subst hl'
    have hl_last : l ∈ L.getLast? := by
      rw [List.getLast?_eq_getElem?, ← heq, Nat.add_sub_cancel]
      exact hl
    exact heq ▸ hlast l hl_last
  · rw [List.getElem?_eq_none (by simp; omega)] at hl'
    cases hl'

/-- An attempt is started on a lease. -/
theorem Midway.lease (h : x.Midway n L told call e) (hlength : L.length = n) {k : Handle}
    {s : SessionInfo} (hs : k.info = s)
    (hcourse : e'.course = { e.course with
      calls := [{ call with started := call.started + 1, point := .operating (x.attempt n) k e.now }]
      told := e.course.told ++ [.operationStarted call.no s] }) {more : List SessionId}
    (hlast : ∀ l ∈ L.getLast?, ∃ r, x.record? n = some r ∧ x.Linked (told ++ more) r l (k, e'.flags))
    (hlends : e'.pool.Lends k) (hnow : e.now = x.clock n) (hspent : spent ≤ 3 * n + 2) {e₀ : Engine ε α}
    (hstarted : x.startedOf e₀ = L.length) :
    x.Going (L ++ (x.begun e₀ e').toList) (told ++ more) spent e' := by
  have htold : e'.course.told = e.course.told ++ _ := congrArg Course.told hcourse
  obtain ⟨hstarts, hrecords, hresults⟩ := Engine.told_since htold x.no
  simp only [List.filterMap_cons, List.filterMap_nil, Signal.startOf?, Signal.operationRecord?,
    Signal.resultOf?, h.no, if_true, List.append_nil] at hstarts hrecords hresults
  -- one more start is in the log, and the lease is linked to the one before it
  have hlog : x.Logged n (L ++ [(k, e'.flags)]) (told ++ more) e' := by
    refine ⟨?_, hrecords.trans h.log.records, ?_⟩
    · rw [hstarts, h.log.starts, List.map_append, List.append_assoc, List.map_singleton, hs]
    · refine linked_append (fun i l l' hl hl' => ?_) (hlength.symm ▸ hlast)
      obtain ⟨r, hr, hlinked⟩ := h.log.linked i l l' hl hl'
      exact ⟨r, hr, hlinked.append more⟩
  have hmidway : x.Midway n (L ++ [(k, e'.flags)]) (told ++ more)
      { call with started := call.started + 1, point := .operating (x.attempt n) k e.now } e' :=
    { calls := congrArg Course.calls hcourse
      held := (congrArg Course.held hcourse).trans h.held
      no := h.no
      token := h.token
      started := by simp [h.started]
      goes := h.goes
      generator := (congrArg Course.generator hcourse).trans h.generator
      log := hlog
      results := hresults.trans h.results }
  have hbegun : x.begun e₀ e' = some (k, e'.flags) := by
    rw [begun_of_calls hmidway.calls hmidway.no, hstarted, if_neg (by simp [h.started])]
    rfl
  rw [hbegun, Option.toList_some]
  refine .operating n _ k _ hmidway (by simp [hlength]) List.getLast?_concat ?_ hlends ?_ hspent
  · rw [hnow]
  · rw [show e'.now = e.now from congrArg Course.now hcourse, hnow]
    exact Nat.le_add_right _ _

/-- The call waits at another point without starting its operation. -/
theorem Midway.wait (h : x.Midway n L told call e) {p : Point} {more : List (Signal ε α)}
    (hmore : more = [] ∨ more = [.createBegun call.no])
    (hcourse : e'.course = { e.course with
      calls := [{ call with point := p }]
      told := e.course.told ++ more }) {e₀ : Engine ε α} (hstarted : x.startedOf e₀ = L.length) :
    x.Midway n L told { call with point := p } e' ∧ x.begun e₀ e' = none := by
  have hnothing : more.filterMap (Signal.startOf? x.no) = [] ∧
      more.filterMap Signal.operationRecord? = [] ∧ more.filterMap (Signal.resultOf? x.no) = [] := by
    rcases hmore with rfl | rfl <;> exact ⟨rfl, rfl, rfl⟩
  have htold : e'.course.told = e.course.told ++ _ := congrArg Course.told hcourse
  obtain ⟨hstarts, hrecords, hresults⟩ := Engine.told_since htold x.no
  rw [hnothing.1, List.append_nil] at hstarts
  rw [hnothing.2.1, List.append_nil] at hrecords
  rw [hnothing.2.2, List.append_nil] at hresults
  have hcalls : e'.calls = [{ call with point := p }] := congrArg Course.calls hcourse
  refine
    ⟨{ calls := hcalls
       held := (congrArg Course.held hcourse).trans h.held
       no := h.no
       token := h.token
       started := h.started
       goes := h.goes
       generator := (congrArg Course.generator hcourse).trans h.generator
       log := ⟨hstarts.trans h.log.starts, hrecords.trans h.log.records, h.log.linked⟩
       results := hresults.trans h.results }, ?_⟩
  rw [begun_of_calls hcalls h.no, hstarted, if_pos h.started]

/-! ## Moves of the call -/

/-- The next attempt asks for a session, and is started on the one that lies on top of the idle stack if
that is still alive. -/
theorem Midway.acquire (h : x.Midway n L told call e) (hlength : L.length = n)
    (hpool : e.pool.Unleased)
    (hlast : ∀ l ∈ L.getLast?, ∃ r, x.record? n = some r ∧ e.Rests r l.1)
    (hgo : e.isCancelled x.token = false) (hnow : e.now = x.clock n) (hspent : spent ≤ 3 * n + 1)
    {e₀ : Engine ε α} (hstarted : x.startedOf e₀ = L.length) {e' : Engine ε α}
    (heq : e' = e.acquireFor x.setup call.no call.token (.attempt (x.attempt n))) :
    x.Going (L ++ (x.begun e₀ e').toList) told spent e' := by
  have hacquired := Engine.acquireFor_of_unleased h.calls hpool x.limit_pos (h.token ▸ hgo) (x.attempt n)
  dsimp only at hacquired
  rw [← heq] at hacquired
  rcases hacquired with ⟨k, hfound, hlends, hcourse⟩ | ⟨hnone, hempty, hcourse⟩
  · have hflags : e'.flags = e.flags := congrArg Course.flags hcourse
    -- the session on top of the stack is that of the last lease, if it was returned alive
    have hlinked : ∀ l ∈ L.getLast?, ∃ r, x.record? n = some r ∧
        x.Linked (told ++ []) r l (k, e'.flags) := by
      intro l hl
      obtain ⟨r, hr, hrests⟩ := hlast l hl
      obtain ⟨hsame, hne⟩ := Engine.eq_iff_of_search hrests hfound
      exact ⟨r, hr, hflags ▸ hsame, fun _ => hne⟩
    have hgoing := h.lease hlength rfl hcourse hlinked hlends hnow (Nat.le_succ_of_le hspent) hstarted
    rwa [List.append_nil] at hgoing
  · obtain ⟨hmidway, hbegun⟩ := h.wait (Or.inr rfl) hcourse hstarted
    rw [hbegun, Option.toList_none, List.append_nil]
    refine .creating n _ e.now hmidway hlength rfl hempty (fun l hl => ?_)
      ((congrArg Course.now hcourse).trans hnow) hspent
    obtain ⟨r, hr, hrests⟩ := hlast l hl
    refine ⟨r, hr, ?_⟩
    rw [Engine.Apart, Engine.isAlive, show e'.flags = e.flags from congrArg Course.flags hcourse]
    exact Engine.apart_of_search hrests hnone

/-- A delay has to pass before the next attempt. -/
theorem Midway.pause (h : x.Midway (n + 1) L told call e) (hlength : L.length = n + 1)
    (hpool : e.pool.Unleased)
    (hlast : ∀ l ∈ L.getLast?, ∃ r, x.record? (n + 1) = some r ∧ e.Rests r l.1)
    (hnow : e.now ≤ x.clock (n + 1)) (hspent : spent ≤ 3 * (n + 1)) {e₀ : Engine ε α}
    (hstarted : x.startedOf e₀ = L.length) {e' : Engine ε α}
    (heq : e' = e.moveTo call.no (.pausing (x.attempt n) (x.clock (n + 1)))) :
    x.Going (L ++ (x.begun e₀ e').toList) told spent e' := by
  have hcourse := Engine.course_moveTo h.calls (.pausing (x.attempt n) (x.clock (n + 1)))
  obtain ⟨hmidway, hbegun⟩ := h.wait (Or.inl rfl)
    (show e'.course = _ by rw [heq, hcourse, List.append_nil]) hstarted
  rw [hbegun, Option.toList_none, List.append_nil]
  refine .pausing n _ hmidway hlength rfl ?_ ?_ ?_ hspent
  · rw [heq]
    exact hpool
  · rw [heq]
    exact hlast
  · rw [heq]
    exact hnow

/-- The session that a waiting attempt has asked for is created. -/
theorem Midway.created (h : x.Midway n L told call e) (hplaced : x.Placed L told e)
    (hlength : L.length = n) {since : Nat}
    (hpoint : call.point = .creating (.attempt (x.attempt n)) (.first true) since)
    (hpool : e.pool = ⟨[], [], 1, false⟩)
    (hlast : ∀ l ∈ L.getLast?, ∃ r, x.record? n = some r ∧ e.Apart r l.1)
    (hnow : e.now = x.clock n) (hspent : spent ≤ 3 * n + 1) (s : SessionInfo) {e' : Engine ε α}
    (heq : e' = e.register x.setup call.no (.attempt (x.attempt n)) s) :
    x.Going (L ++ (x.begun e e').toList) (told ++ [s.id]) (spent + 1) e' ∧
      ∀ t, e'.pool.find? s.id = some t → t.flag < e'.nextNo := by
  obtain ⟨hlends, hnextNo, hcourse⟩ :=
    Engine.register_of_empty h.calls hpoint hpool x.setup (x.attempt n) s
  rw [← heq] at hlends hnextNo hcourse
  have hflags : e'.flags = e.flags := congrArg Course.flags hcourse
  have hlinked : ∀ l ∈ L.getLast?, ∃ r, x.record? n = some r ∧
      x.Linked (told ++ [s.id]) r l (⟨s.id, s.node, e.nextNo⟩, e'.flags) := by
    intro l hl
    obtain ⟨r, hr, hapart⟩ := hlast l hl
    obtain ⟨hlt, hknown⟩ := hplaced.leased l (List.mem_of_getLast? hl)
    -- the new session has a new flag, so it is another one even if its name is not new
    have hne : (⟨s.id, s.node, e.nextNo⟩ : Handle) ≠ l.1 := fun hsame =>
      Nat.lt_irrefl _ ((congrArg Handle.flag hsame).symm ▸ hlt)
    refine ⟨r, hr, ⟨fun hsame => absurd hsame hne, fun ⟨hkept, halive⟩ => ?_⟩, fun hnovel _ =>
      hnovel.ne_of_known hknown⟩
    rw [hflags] at halive
    rcases hapart with hblamed | hdead
    · rw [hkept] at hblamed
      cases hblamed
    · rw [show e.flags.isAlive l.1.flag = e.isAlive l.1.flag from rfl, hdead] at halive
      cases halive
  constructor
  · exact h.lease hlength rfl hcourse hlinked hlends hnow (by omega)
      ((startedOf_of_calls h.calls h.no).trans h.started)
  · intro t ht
    obtain ⟨t', ht', -, hflag, -⟩ := hlends.leased
    rw [show e'.pool.find? s.id = some t' from ht', Option.some.injEq] at ht
    rw [← ht, hflag, hnextNo]
    exact Nat.lt_succ_self _

theorem records_succ_of_error {error : ε} (hresult : (x.op n).result = .error error) :
    x.records (n + 1) = x.records n ++ [(x.setup.operations.assess (CallError.toFault error)
      (x.attempt n) (x.origin.generator.afterDecisions n)).record] := by
  rw [records, Executor.firstRecords_succ, Executor.record?_of_error hresult, Option.toList_some]
  rfl

theorem clock_succ {r : AttemptRecord} {d : Span} (hrecord : x.record? (n + 1) = some r)
    (hdelay : r.delay = some d) :
    x.clock (n + 1) = x.clock n + boundedWait (x.op n).work + d.waitMillis := by
  rw [clock, Executor.startMillis_succ hrecord hdelay, clock]
  omega

/-- A call that has made its last attempt ends with the result of that attempt. -/
theorem Logged.finish (h : x.Logged (n + 1) L told e) (hcalls : e.calls = [call]) (hno : call.no = x.no)
    (hheld : e.held = []) (hresults : e.resultsOf x.no = x.origin.resultsOf x.no)
    (hlength : L.length = n + 1) (hgoes : ∀ j, 1 ≤ j → j ≤ n → ¬ x.Stops j) (hstop : x.Stops (n + 1))
    (hnow : e.now = x.clock n + boundedWait (x.op n).work) (hpool : e.pool.Unleased)
    (hspent : spent ≤ 3 * n + 2) :
    x.Ended n L told (spent + 1) (e.finish call.no (x.op n).result) := by
  have hcourse := Engine.course_finish hcalls (x.op n).result
  obtain ⟨hstarts, hrecords, hended⟩ := Engine.told_since (congrArg Course.told hcourse) x.no
  simp only [List.filterMap_cons, List.filterMap_nil, Signal.startOf?, Signal.operationRecord?,
    Signal.resultOf?, hno, if_true, List.append_nil] at hstarts hrecords hended
  exact
    { calls := congrArg Course.calls hcourse
      held := (congrArg Course.held hcourse).trans hheld
      length := hlength
      goes := hgoes
      stops := hstop
      log := ⟨hno ▸ hstarts.trans h.starts, hno ▸ hrecords.trans h.records, h.linked⟩
      results := by rw [hno, hended, hresults]
      now := (congrArg Course.now hcourse).trans hnow
      pool := hpool
      spent := by omega }

/-- The operation succeeds, and the call ends. -/
theorem Midway.succeeded (h : x.Midway n L told call e) (hlength : L.length = n + 1) {k : Handle}
    (hpool : e.pool.Lends k) (hnow : e.now = x.clock n + boundedWait (x.op n).work)
    (hspent : spent ≤ 3 * n + 2) {v : α} (hresult : (x.op n).result = .ok v) {e' : Engine ε α}
    (heq : e' = (e.giveBack x.setup k.id).finish call.no (.ok v)) :
    x.Ended n L told (spent + 1) e' := by
  have hback := Engine.course_giveBack e x.setup k.id
  obtain ⟨hlog, hresults⟩ := h.log.of_told (congrArg Course.told hback)
  have hsame : x.records (n + 1) = x.records n := by
    rw [records, Executor.firstRecords_succ, Executor.record?_of_ok hresult]
    exact List.append_nil _
  have hlog' : x.Logged (n + 1) L told (e.giveBack x.setup k.id) :=
    ⟨hlog.starts, hsame ▸ hlog.records, hlog.linked⟩
  rw [heq, ← hresult]
  exact hlog'.finish ((Engine.calls_of_course hback).trans h.calls) h.no
    ((Engine.held_of_course hback).trans h.held) (hresults.trans h.results) hlength h.goes
    (Or.inl ⟨v, hresult⟩) ((congrArg Course.now hback).trans hnow) (Engine.unleased_giveBack hpool) hspent

/-- The pool when attempt `n + 1` has failed with the record `r` and has parted from its session. -/
structure Parted (x : Execution ε α) (n : Nat) (L : List (Handle × Flags)) (told : List SessionId)
    (call : Call) (k : Handle) (r : AttemptRecord) (e : Engine ε α) : Prop where
  /-- There is no other call. -/
  calls : e.calls = [call]
  /-- No caller holds a lease. -/
  held : e.held = []
  /-- A delay has been decided on. -/
  generator : e.generator = x.origin.generator.afterDecisions (n + 1)
  /-- The attempt has just ended. -/
  now : e.now = x.clock n + boundedWait (x.op n).work
  /-- The attempt has been recorded. -/
  log : x.Logged (n + 1) L told e
  /-- The call has not ended. -/
  results : e.resultsOf x.no = x.origin.resultsOf x.no
  /-- No session is leased. -/
  unleased : e.pool.Unleased
  /-- The session of the attempt is left as the record says. -/
  rests : e.Rests r k

/-- An attempt that fails is recorded and parts from its session, before the call goes on as its record
says. -/
theorem Midway.parted (h : x.Midway n L told call e) {k : Handle} (hpool : e.pool.Lends k)
    (hnow : e.now = x.clock n + boundedWait (x.op n).work) {error : ε}
    (hresult : (x.op n).result = .error error) {e' : Engine ε α}
    (heq : e' = e.operated x.setup call (x.attempt n) k (.error error)) :
    ∃ r parted, x.record? (n + 1) = some r ∧
      (x.setup.operations.assess (CallError.toFault error) (x.attempt n) e.generator).record = r ∧
      x.Parted n L told call k r parted ∧
      e' = parted.follow x.setup call.no call.token (Loop.afterFailure (x.attempt n) error r.delay
        (parted.isCancelled call.token) parted.now) := by
  obtain ⟨r, hrecord, hassessed, hsucc⟩ : ∃ r, x.record? (n + 1) = some r ∧
      (x.setup.operations.assess (CallError.toFault error) (x.attempt n) e.generator).record = r ∧
      x.records (n + 1) = x.records n ++ [r] := by
    rw [h.generator]
    exact ⟨_, Executor.record?_of_error hresult, rfl, records_succ_of_error hresult⟩
  have hgenerator : (x.setup.operations.assess (CallError.toFault error) (x.attempt n)
      e.generator).generator = x.origin.generator.afterDecisions (n + 1) := by
    rw [h.generator, Generator.afterDecisions_succ]
    rfl
  have hoperated := Engine.operated_error e x.setup call (x.attempt n) k error
  have hassess := Engine.course_assess e x.setup (CallError.toFault error) (x.attempt n)
  have hlends : (e.assess x.setup .operation (CallError.toFault error) (x.attempt n)).2.pool.Lends k := by
    rw [show (e.assess x.setup .operation (CallError.toFault error) (x.attempt n)).2.pool = e.pool from
      congrArg Ledger.pool (Engine.ledger_assess e x.setup .operation _ _)]
    exact hpool
  have hrests := Engine.rests_partFrom (c := x.setup) hlends r
  have hparted := Engine.course_partFrom
    (e.assess x.setup .operation (CallError.toFault error) (x.attempt n)).2 x.setup k.id
    r.invalidatesSession
  dsimp only at hoperated
  rw [hassessed] at hoperated hassess
  rw [hassess] at hparted
  -- from here on it does not matter how the attempt has parted from its session
  generalize (e.assess x.setup .operation (CallError.toFault error) (x.attempt n)).2.partFrom x.setup
    k.id r.invalidatesSession = parted at hoperated hparted hrests
  have htold : parted.course.told = e.course.told ++ _ := congrArg Course.told hparted
  obtain ⟨hstarts, hrecords, hresults⟩ := Engine.told_since htold x.no
  simp only [List.filterMap_cons, List.filterMap_nil, Signal.startOf?, Signal.operationRecord?,
    Signal.resultOf?, List.append_nil] at hstarts hrecords hresults
  refine ⟨r, parted, hrecord, hassessed, ?_, heq.trans hoperated⟩
  exact
    { calls := (congrArg Course.calls hparted).trans h.calls
      held := (congrArg Course.held hparted).trans h.held
      generator := (congrArg Course.generator hparted).trans hgenerator
      now := (congrArg Course.now hparted).trans hnow
      log := ⟨hstarts.trans h.log.starts, by rw [hrecords, h.log.records, hsucc, List.append_assoc],
        h.log.linked⟩
      results := hresults.trans h.results
      unleased := hrests.1
      rests := hrests.2 }

/-- The call goes on with the next attempt, at once or after a delay. -/
theorem Parted.goes_on {k : Handle} {flags : Flags} {r : AttemptRecord} {parted : Engine ε α}
    (h : x.Parted n L told call k r parted) (hmidway : x.Midway n L told call e)
    (hrecord : x.record? (n + 1) = some r) (hlength : L.length = n + 1)
    (hlast : L.getLast? = some (k, flags)) (hgoes : ¬ x.Stops (n + 1)) (hspent : spent ≤ 3 * n + 2)
    {error : ε} {d : Span} (hdelay : r.delay = some d) (hgo : parted.isCancelled x.token = false)
    {e' : Engine ε α}
    (heq : e' = parted.follow x.setup call.no call.token
      (Loop.afterFailure (x.attempt n) error (some d) false parted.now)) :
    x.Going (L ++ (x.begun e e').toList) told (spent + 1) e' := by
  have hclock : parted.now + d.waitMillis = x.clock (n + 1) := by
    rw [clock_succ hrecord hdelay, h.now]
  -- the attempt that has failed is not the last one, so the next one is midway
  have hnext : x.Midway (n + 1) L told call parted :=
    { calls := h.calls
      held := h.held
      no := hmidway.no
      token := hmidway.token
      started := hmidway.started
      goes := fun j hj hle => by
        rcases Nat.lt_or_ge n j with hlt | hge
        · exact (show j = n + 1 by omega) ▸ hgoes
        · exact hmidway.goes j hj hge
      generator := h.generator
      log := h.log
      results := h.results }
  have hrests : ∀ l ∈ L.getLast?, ∃ r, x.record? (n + 1) = some r ∧ parted.Rests r l.1 := by
    intro l hl
    rw [hlast, Option.mem_some_iff] at hl
    exact ⟨r, hrecord, hl ▸ h.rests⟩
  have hstarted : x.startedOf e = L.length :=
    (startedOf_of_calls hmidway.calls hmidway.no).trans hmidway.started
  by_cases hzero : d.isZero = true
  · rw [Loop.afterFailure, if_neg (by simp), if_pos hzero,
      show (x.attempt n).next = x.attempt (n + 1) from Executor.next_of_not_stops hgoes] at heq
    rw [Span.waitMillis_of_isZero hzero, Nat.add_zero] at hclock
    exact hnext.acquire hlength h.unleased hrests hgo hclock (by omega) hstarted heq
  · rw [Loop.afterFailure, if_neg (by simp), if_neg hzero, hclock] at heq
    exact hnext.pause hlength h.unleased hrests
      (hclock ▸ Nat.le_add_right _ _) (by omega) hstarted heq

/-- The operation that the call has waited for ends. -/
theorem Midway.operated (h : x.Midway n L told call e) (hlength : L.length = n + 1) {k : Handle}
    {flags : Flags} (hlast : L.getLast? = some (k, flags)) (hpool : e.pool.Lends k)
    (hnow : e.now = x.clock n + boundedWait (x.op n).work) (hspent : spent ≤ 3 * n + 2) {e' : Engine ε α}
    (heq : e' = e.operated x.setup call (x.attempt n) k (x.op n).result)
    (hgo : e'.isCancelled x.token = false) :
    x.Stands (L ++ (x.begun e e').toList) told (spent + 1) e' := by
  cases hresult : (x.op n).result with
  | ok v =>
    rw [hresult] at heq
    have hended := h.succeeded hlength hpool hnow hspent hresult heq
    rw [begun_of_ended hended.calls, Option.toList_none, List.append_nil]
    exact Or.inr ⟨n, hended⟩
  | error error =>
    rw [hresult] at heq
    obtain ⟨r, parted, hrecord, hassessed, hparted, hfollow⟩ := h.parted hpool hnow hresult heq
    by_cases hstop : x.Stops (n + 1)
    · have hdelay : r.delay = none :=
        hassessed ▸ Executor.delay_eq_none_of_stops hresult hstop e.generator
      rw [hdelay] at hfollow
      have hended := hparted.log.finish hparted.calls h.no hparted.held hparted.results hlength h.goes
        hstop hparted.now hparted.unleased hspent
      rw [hresult, show parted.finish call.no (.error error) = e' from hfollow.symm] at hended
      rw [begun_of_ended hended.calls, Option.toList_none, List.append_nil]
      exact Or.inr ⟨n, hended⟩
    · obtain ⟨error', d, hsame, hdelay⟩ := Executor.exists_delay_of_not_stops hstop e.generator
      cases hresult.symm.trans hsame
      rw [show x.setup.operations.assess (CallError.toFault error) ⟨n + 1, x.idempotent⟩ e.generator =
        x.setup.operations.assess (CallError.toFault error) (x.attempt n) e.generator from rfl,
        hassessed] at hdelay
      -- nobody has cancelled the call when the attempt is assessed, as nobody has at the end
      have hgo' : parted.isCancelled x.token = false := by
        rw [hfollow] at hgo
        exact (Engine.Descends.rfl.follow x.setup call.no call.token _ :
          Engine.Descends none parted _).isCancelled hgo
      rw [hdelay, h.token, hgo', ← h.token] at hfollow
      exact Or.inl (hparted.goes_on h hrecord hlength hlast hstop hspent hdelay hgo' hfollow)

end Execution

end PooledSessions
