import PooledSessions.Proofs.Pool.Cancellation
import PooledSessions.Proofs.Pool.Deadlines
import PooledSessions.Proofs.Pool.Declarations
import PooledSessions.Proofs.Pool.Refusals
import PooledSessions.Proofs.Retry.Attempts
/-!
# Answers to the creation of a session

A call for which a session is created asks the server, and asks again as the policy for creations says.  The
answers alone decide after which attempt it asks no more (`Setup.Concludes`).

The pool classifies the last error a second time to tell its client whether only the budget of attempts was
used up.  The two classifications agree: the error says so exactly if every attempt that the policy allows
has failed in a way that is tried again (`Setup.usedUp_iff`).

What becomes of the call with an answer is seen from where it waits, what is told of it, and the tables
(`Engine.GoesOn`).
-/

namespace PooledSessions

variable {ε α : Type}

/-! ## Answers and attempts -/

/-- How a creation of the call is answered in the move.  One that takes too long is answered with the error
of its time limit. -/
def Move.answer? (no : TaskNo) : Move ε α → Option (Except RpcError SessionInfo)
  | .created mover result => if mover = no then some result else none
  | .createExpired mover => if mover = no then some (.error Engine.creationTimeout) else none
  | _ => none

theorem Move.answer?_of_other {m : Move ε α} {no : TaskNo} (h : m.call? ≠ some no) :
    m.answer? no = none := by
  cases m with
  | created mover result =>
    have hne : mover ≠ no := fun heq => h (congrArg some heq)
    exact if_neg hne
  | createExpired mover =>
    have hne : mover ≠ no := fun heq => h (congrArg some heq)
    exact if_neg hne
  | _ => rfl

/-- The creations that are answered as in `o`, as attempts of a retry loop. -/
def creationsOf (o : Nat → Except RpcError SessionInfo) (i : Nat) : Reply RpcError SessionInfo :=
  ⟨false, 0, o i⟩

namespace Setup

variable {c : Setup} {o : Nat → Except RpcError SessionInfo} {k n : Nat}

/-- Whether attempt `k`, counted from one, is one after which no session is asked for any more: it succeeds,
its error is final, or it is the last one that the policy allows. -/
def Concludes (c : Setup) (o : Nat → Except RpcError SessionInfo) (k : Nat) : Prop :=
  (∃ s, o (k - 1) = .ok s) ∨
    (∃ error, o (k - 1) = .error error ∧ c.creation.classOf error = .nonRetryable) ∨
    k = c.creation.policy.maxAttempts

/-- The retry loop stops with attempt `k`, counted from one.  A creation may always be repeated. -/
def StopsAt (c : Setup) (o : Nat → Except RpcError SessionInfo) (k : Nat) : Prop :=
  c.creation.Stops true (creationsOf o) k

/-- The retry loop goes on after each of its first `n` attempts. -/
def GoesPast (c : Setup) (o : Nat → Except RpcError SessionInfo) (n : Nat) : Prop :=
  ∀ j, 1 ≤ j → j ≤ n → ¬ c.StopsAt o j

theorem stopsAt_iff : c.StopsAt o k ↔ (∃ s, o (k - 1) = .ok s) ∨ c.creation.policy.maxAttempts ≤ k ∨
    ∃ error, o (k - 1) = .error error ∧ c.creation.classOf error = .nonRetryable := by
  simp [StopsAt, Executor.Stops, creationsOf]

/-- Attempts go on up to the first one that concludes. -/
theorem isLeast_concludes (h : IsLeast {k | 1 ≤ k ∧ c.StopsAt o k} k) :
    IsLeast {k | 1 ≤ k ∧ c.Concludes o k} k := by
  obtain ⟨⟨hpos, hstops⟩, hleast⟩ := h
  have hmax : k ≤ c.creation.policy.maxAttempts :=
    hleast ⟨c.creation.policy.one_le_maxAttempts, Or.inr (Or.inl (Nat.le_refl _))⟩
  refine ⟨⟨hpos, ?_⟩, fun k' hk' => hleast ⟨hk'.1, stopsAt_iff.mpr ?_⟩⟩
  · rcases stopsAt_iff.mp hstops with hok | hlast | hfinal
    · exact Or.inl hok
    · exact Or.inr (Or.inr (Nat.le_antisymm hmax hlast))
    · exact Or.inr (Or.inl hfinal)
  · rcases hk'.2 with hok | hfinal | hlast
    · exact Or.inl hok
    · exact Or.inr (Or.inr hfinal)
    · exact Or.inr (Or.inl hlast.ge)

/-- Whether the error with which creations end is one that only the budget of attempts made the last one. -/
def usedUp (c : Setup) (error : RpcError) : Bool := c.creation.classOf error ≠ .nonRetryable

/-- An attempt after which another one is made has failed with an error that is not final. -/
theorem error_of_not_stops (hgo : ¬ c.StopsAt o (n + 1)) :
    n + 1 < c.creation.policy.maxAttempts ∧
      ∃ error, o n = .error error ∧ c.creation.classOf error ≠ .nonRetryable := by
  rw [stopsAt_iff, not_or, not_or, Nat.add_sub_cancel] at hgo
  obtain ⟨hok, hmore, hfinal⟩ := hgo
  refine ⟨Nat.lt_of_not_le hmore, ?_⟩
  cases hanswer : o n with
  | ok s => exact absurd ⟨s, hanswer⟩ hok
  | error error => exact ⟨error, rfl, fun hclass => hfinal ⟨error, hanswer, hclass⟩⟩

/-- As long as attempts go on, there is one left. -/
theorem lt_maxAttempts (hgo : c.GoesPast o n) : n < c.creation.policy.maxAttempts := by
  cases n with
  | zero => exact c.creation.policy.one_le_maxAttempts
  | succ n => exact (error_of_not_stops (hgo (n + 1) (Nat.succ_pos n) (Nat.le_refl _))).1

/-- The number of an attempt that is followed by another one is not the largest one. -/
theorem next_of_goesPast (hgo : c.GoesPast o n) : (⟨n, true⟩ : Attempt).next = ⟨n + 1, true⟩ := by
  have := lt_maxAttempts hgo
  have := c.creation.policy.maxAttempts_le
  simp only [Attempt.next, Attempt.mk.injEq, and_true]
  omega

/-- When creations end with the error of attempt `n + 1`, the error tells that the budget of attempts was used
up exactly if it was, and all failures, the last one included, were ones that are tried again. -/
theorem usedUp_iff (hgo : c.GoesPast o n) (hlast : c.StopsAt o (n + 1)) {error : RpcError}
    (herror : o n = .error error) :
    c.usedUp error = true ↔ n + 1 = c.creation.policy.maxAttempts ∧
      ∀ i < c.creation.policy.maxAttempts, ∃ error, o i = .error error ∧
        c.creation.classOf error ≠ .nonRetryable := by
  have hfailed : ∀ i < n, ∃ error, o i = .error error ∧ c.creation.classOf error ≠ .nonRetryable :=
    fun i hi => (error_of_not_stops (hgo (i + 1) (Nat.succ_pos i) hi)).2
  have hmax : n + 1 ≤ c.creation.policy.maxAttempts := lt_maxAttempts hgo
  rw [usedUp, decide_eq_true_eq]
  constructor
  · intro hclass
    -- the last error would be tried again, so only the number of attempts can have ended the loop
    have hlast' : n + 1 = c.creation.policy.maxAttempts := by
      rcases stopsAt_iff.mp hlast with ⟨s, hok⟩ | hle | ⟨error', herror', hfinal⟩
      · rw [Nat.add_sub_cancel, herror] at hok
        cases hok
      · exact Nat.le_antisymm hmax hle
      · rw [Nat.add_sub_cancel, herror] at herror'
        cases herror'
        exact absurd hfinal hclass
    refine ⟨hlast', fun i hi => ?_⟩
    rcases Nat.lt_succ_iff_lt_or_eq.mp (hlast' ▸ hi) with hlt | rfl
    · exact hfailed i hlt
    · exact ⟨error, herror, hclass⟩
  · rintro ⟨hlast', hall⟩
    obtain ⟨error', herror', hclass⟩ := hall n (by omega)
    rw [herror] at herror'
    cases herror'
    exact hclass

end Setup

/-! ## What is told of one call -/

/-- Whether the signal tells what the call asks for or how it ends. -/
def Signal.tellsOf (no : TaskNo) : Signal ε α → Bool
  | .createBegun call => call = no
  | .operationStarted call _ => call = no
  | .acquired call _ => call = no
  | .executed call _ => call = no
  | .closed call => call = no
  | _ => false

theorem Signal.tellsOf_of_isAside {s : Signal ε α} (h : s.isAside = true) (no : TaskNo) :
    s.tellsOf no = false := by
  cases s <;> first | rfl | cases h

namespace Engine

/-- The answers to the creations of the call in a run. -/
def answersTo (no : TaskNo) (ys : List (Bool × Move ε α)) : List (Except RpcError SessionInfo) :=
  ys.filterMap (·.2.answer? no)

/-- What has been told of the call so far: what it has asked for and how it has ended. -/
def toldOf (e : Engine ε α) (no : TaskNo) : List (Signal ε α) := e.signals.filter (Signal.tellsOf no)

/-- How the client of an acquisition is told of his lease. -/
def grant (no : TaskNo) (client : Client) (h : Handle) : Signal ε α :=
  match client with
  | .caller => .acquired no (.ok h)
  | .attempt _ => .operationStarted no h.info

variable {c : Setup} {b e e' : Engine ε α} {m : Move ε α} {call : Call} {no : TaskNo}

theorem answersTo_cons (no : TaskNo) (y : Bool × Move ε α) (ys : List (Bool × Move ε α)) :
    answersTo no (y :: ys) = (y.2.answer? no).toList ++ answersTo no ys := by
  cases h : y.2.answer? no <;> simp [answersTo, h]

theorem toldOf_tell {s : Signal ε α} (hs : s.tellsOf no = true) (e : Engine ε α) :
    (e.tell s).toldOf no = e.toldOf no ++ [s] := by
  simp [toldOf, tell, hs]

theorem toldOf_eq (e : Engine ε α) (no : TaskNo) :
    e.toldOf no = e.course.told.filter (Signal.tellsOf no) := by
  rw [toldOf, course, List.filter_filter]
  refine List.filter_congr fun s _ => ?_
  cases s <;> simp [Signal.tellsOf, Signal.ofCall]

/-- What stands aside tells of no call. -/
theorem toldOf_of_aside {more : List (Signal ε α)} (htold : e'.course.told = e.course.told ++ more)
    (hmore : ∀ s ∈ more, s.isAside = true) (no : TaskNo) : e'.toldOf no = e.toldOf no := by
  have hnone : more.filter (Signal.tellsOf no) = [] :=
    List.filter_eq_nil_iff.mpr fun s hs => by simp [Signal.tellsOf_of_isAside (hmore s hs)]
  rw [toldOf_eq, htold, List.filter_append, hnone, List.append_nil, ← toldOf_eq]

theorem tellsOf_grant (no : TaskNo) (client : Client) (h : Handle) :
    (grant no client h : Signal ε α).tellsOf no = true := by
  cases client <;> simp [grant, Signal.tellsOf]

variable [PooledError ε]

theorem tellsOf_refusal (no : TaskNo) (client : Client) (p : PoolError) :
    (refusal no client p : Signal ε α).tellsOf no = true := by
  cases client <;> simp [refusal, Signal.tellsOf]

/-- Nothing is told of a call in a move that it does not make. -/
theorem toldOf_of_other (hb : b.Orderly) (hstep : b.step c m = some e) (hother : m.call? ≠ some no) :
    e.toldOf no = b.toldOf no := by
  rcases outcome_of_step hb hstep with ⟨purpose, token, rfl, rfl⟩ | houtcome
  · rfl
  · cases houtcome with
    | silent hsettles _ =>
      obtain ⟨more, htold, hmore⟩ := hsettles.told
      exact toldOf_of_aside htold hmore no
    | @telling e₁ s call hmover hsettles hsays =>
      obtain ⟨more, htold, hmore⟩ := hsettles.told
      have hne : call.no ≠ no := fun heq => hother (heq ▸ hmover.moves)
      have hs : s.tellsOf no = false := by
        cases hsays <;> simp [Signal.tellsOf, hne]
      rw [← toldOf_of_aside htold hmore no]
      simp [toldOf, tell, hs]

/-! ## A creation that goes on -/

/-- From the pool `b` the call has gone on to the pool `e`: it waits at the point now or has ended, something
more has been told of it, and these are the tables. -/
structure GoesOn (no : TaskNo) (b e : Engine ε α) (p : Option Point) (more : List (Signal ε α))
    (tables : Pool) : Prop where
  /-- Where the call waits. -/
  stop : e.itinerary.stop? no = p
  /-- What has been told of it. -/
  told : e.toldOf no = b.toldOf no ++ more
  /-- The tables. -/
  pool : e.pool = tables

/-- The pool `e` comes from the pool `b` by a part of a move that leaves the calls and the tables alone. -/
structure StandsBy (no : TaskNo) (b e : Engine ε α) : Prop where
  /-- The calls wait where they waited. -/
  itinerary : e.itinerary.stop? no = b.itinerary.stop? no
  /-- Nothing has been told of the call. -/
  told : e.toldOf no = b.toldOf no
  /-- The tables are the same. -/
  pool : e.pool = b.pool
  /-- So is the clock. -/
  now : e.now = b.now

section

variable {q : Point} {client : Client} {a : Attempt} {error : RpcError}

omit [PooledError ε] in
theorem standsBy_tellAll {more : List (Signal ε α)} (hmore : ∀ s ∈ more, s.ofCall = false) (no : TaskNo)
    (e : Engine ε α) : StandsBy no e { e with signals := e.signals ++ more } := by
  have hcourse := course_tellAll hmore e
  refine ⟨by rw [itinerary_of_course hcourse], ?_, rfl, rfl⟩
  rw [toldOf_eq, hcourse, ← toldOf_eq]

omit [PooledError ε] in
theorem standsBy_abandoned (no : TaskNo) (e : Engine ε α) : StandsBy no e (e.tell (.createAbandoned no)) where
  itinerary := by rw [itinerary_ask rfl]; rfl
  told := by simp [toldOf, tell, Signal.tellsOf]
  pool := rfl
  now := rfl

omit [PooledError ε] in
theorem standsBy_assess (no : TaskNo) (e : Engine ε α) (c : Setup) (f : Fault) (a : Attempt) :
    StandsBy no e (e.assess c .creation f a).2 where
  itinerary := by rw [itinerary_assess]
  told := by
    have hkept : ∀ e : Engine ε α, (e.observe c .creation).toldOf no = e.toldOf no := by
      intro e
      rw [toldOf_eq, course_observe, ← toldOf_eq]
    have hnone : ∀ x : Assessment,
        (x.signals .creation : List (Signal ε α)).filter (Signal.tellsOf no) = [] := by
      intro x
      refine List.filter_eq_nil_iff.mpr fun s hs => ?_
      rcases List.mem_append.mp hs with hs | hs
      · obtain ⟨event, -, rfl⟩ := List.mem_map.mp hs
        exact Bool.false_ne_true
      · rw [List.mem_singleton.mp hs]
        exact Bool.false_ne_true
    rw [assess_eq, hkept, toldOf, List.filter_append, hnone, List.append_nil]
    rfl
  pool := congrArg Ledger.pool (ledger_assess e c .creation f a)
  now := congrArg Itinerary.now (itinerary_assess e c .creation f a)

/-- Another attempt is made at once. -/
theorem goesOn_attempt (hstop : e.itinerary.stop? no = some q) (c : Setup) (client : Client) (a : Attempt) :
    GoesOn no e (e.followCreation c no client (.attempt a)) (some (.creating client a e.now))
      [.createBegun no] e.pool where
  stop := by
    rw [followCreation, itinerary_ask rfl, itinerary_moveTo]
    exact Itinerary.stop?_go hstop [] _
  told := toldOf_tell (by simp [Signal.tellsOf]) (e.moveTo no (.creating client a e.now))
  pool := rfl

/-- Another attempt is made after a delay. -/
theorem goesOn_pause (hstop : e.itinerary.stop? no = some q) (c : Setup) (client : Client) (a : Attempt)
    (wake : Nat) : GoesOn no e (e.followCreation c no client (.pause a wake))
      (some (.createPause client a wake)) [] e.pool where
  stop := by
    rw [followCreation, itinerary_moveTo]
    exact Itinerary.stop?_go hstop [] _
  told := (List.append_nil _).symm
  pool := rfl

/-- The last error is passed on, and the place is given back. -/
theorem goesOn_fail (hstop : e.itinerary.stop? no = some q) (c : Setup) (client : Client)
    (hne : error ≠ .cancelled) : GoesOn no e (e.followCreation c no client (.fail error)) none
      [refusal no client (.creationFailed error (c.usedUp error))] e.pool.releasePending := by
  -- the events are reported first, and then the client is refused
  let told : List (Signal ε α) := (c.creation.classifier.classifyEvents (.rpc error)).map .event ++
    [.event ⟨.pool, .warn, "session creation failed", [("error", error.message),
      ("class", (c.creation.classOf error).name)]⟩]
  have htold : ∀ s ∈ told, s.ofCall = false := by
    intro s hs
    rcases List.mem_append.mp hs with hs | hs
    · obtain ⟨event, -, rfl⟩ := List.mem_map.mp hs
      rfl
    · rw [List.mem_singleton.mp hs]
      rfl
  have heq : e.followCreation c no client (.fail error) =
      ((({ e with signals := e.signals ++ told } : Engine ε α).releasePending.endCall no).tell
        (refusal no client (.creationFailed error (c.usedUp error)))) := by
    rw [← reject_eq]
    simp only [told, ← List.append_assoc]
    cases error with
    | cancelled => exact absurd rfl hne
    | transport code message | status code message => rfl
  have hstands := standsBy_tellAll htold no e
  rw [heq]
  refine ⟨?_, ?_, rfl⟩
  · rw [← reject_eq, itinerary_reject, itinerary_releasePending]
    exact Itinerary.stop?_go (hstands.itinerary.trans hstop) [] none
  · rw [toldOf_tell (tellsOf_refusal no client _)]
    exact congrArg (· ++ _) hstands.told

omit [PooledError ε] in
theorem GoesOn.after {p : Option Point} {more : List (Signal ε α)} {tables : Pool}
    (h : GoesOn no e e' p more tables) (hstands : StandsBy no b e) : GoesOn no b e' p more tables :=
  ⟨h.stop, by rw [h.told, hstands.told], h.pool⟩

variable {o : Nat → Except RpcError SessionInfo} {n : Nat}

/-- A failed attempt is assessed, and followed as the loop says. -/
theorem created_error (e : Engine ε α) (c : Setup) (call : Call) (client : Client) (a : Attempt)
    (error : RpcError) : e.created c call client a (.error error) =
      (e.assess c .creation (.rpc error) a).2.followCreation c call.no client
        (Loop.afterFailure a error (c.creation.assess (.rpc error) a e.generator).record.delay
          ((e.assess c .creation (.rpc error) a).2.isCancelled call.token)
          (e.assess c .creation (.rpc error) a).2.now) := rfl

/-- A failed attempt is the last one if the loop stops there, and is followed by another one otherwise. -/
theorem goesOn_created_error (hstop : b.itinerary.stop? call.no = some q) (client : Client)
    (herror : o n = .error error) (hne : error ≠ .cancelled)
    (hgo : (b.created c call client ⟨n + 1, true⟩ (.error error)).isCancelled call.token = false) :
    let e := b.created c call client ⟨n + 1, true⟩ (.error error)
    (c.StopsAt o (n + 1) ∧ GoesOn call.no b e none
      [refusal call.no client (.creationFailed error (c.usedUp error))] b.pool.releasePending) ∨
    (¬ c.StopsAt o (n + 1) ∧
      (GoesOn call.no b e (some (.creating client ⟨n + 1 + 1, true⟩ b.now)) [.createBegun call.no] b.pool ∨
        ∃ wake, GoesOn call.no b e (some (.createPause client ⟨n + 1, true⟩ wake)) [] b.pool)) := by
  have heq := created_error b c call client ⟨n + 1, true⟩ error
  have hstands := standsBy_assess call.no b c (.rpc error) ⟨n + 1, true⟩
  have hresult : (creationsOf o n).result = .error error := herror
  rw [isCancelled, heq, cancelled_followCreation] at hgo
  -- what the assessment reports concerns no call
  generalize (b.assess c .creation (.rpc error) ⟨n + 1, true⟩).2 = e₁ at hstands heq hgo
  have hwaits := hstands.itinerary.trans hstop
  rw [show e₁.isCancelled call.token = false from hgo, hstands.now] at heq
  dsimp only
  rw [heq]
  by_cases hlast : c.StopsAt o (n + 1)
  · have hnone : (c.creation.assess (.rpc error) ⟨n + 1, true⟩ b.generator).record.delay = none :=
      Executor.delay_eq_none_of_stops hresult hlast b.generator
    rw [hnone]
    have hfailed := (goesOn_fail hwaits c client hne).after hstands
    rw [hstands.pool] at hfailed
    exact Or.inl ⟨hlast, hfailed⟩
  · obtain ⟨d, hdelay⟩ : ∃ d, (c.creation.assess (.rpc error) ⟨n + 1, true⟩ b.generator).record.delay =
        some d := Option.isSome_iff_exists.mp ((Executor.delay_isSome_iff_of_error hresult b.generator).mpr hlast)
    rw [hdelay]
    refine Or.inr ⟨hlast, ?_⟩
    have hnext := Executor.next_of_not_stops hlast
    by_cases hzero : d.isZero = true
    · have hagain := (goesOn_attempt hwaits c client ⟨n + 1 + 1, true⟩).after hstands
      rw [hstands.pool, hstands.now] at hagain
      simp only [Loop.afterFailure, Bool.false_eq_true, if_false, if_pos hzero, hnext]
      exact Or.inl hagain
    · have hpause := (goesOn_pause hwaits c client ⟨n + 1, true⟩ (b.now + d.waitMillis)).after hstands
      rw [hstands.pool] at hpause
      simp only [Loop.afterFailure, Bool.false_eq_true, if_false, if_neg hzero]
      exact Or.inr ⟨_, hpause⟩

omit [PooledError ε] in
/-- A lease is told to the client, and leaves the tables alone. -/
theorem signals_lease (e : Engine ε α) (no : TaskNo) (client : Client) (h : Handle) :
    (e.lease no client h).signals = e.signals ++ [grant no client h] ∧ (e.lease no client h).pool = e.pool := by
  cases client <;> exact ⟨rfl, rfl⟩

/-- A session that is created in an open pool is leased to the client. -/
theorem goesOn_created_ok (hstop : b.itinerary.stop? call.no = some q) (hopen : b.pool.closed = false)
    (c : Setup) (client : Client) (a : Attempt) (s : SessionInfo) :
    ∃ p, (∀ point ∈ p, point.isOperating = true) ∧
      GoesOn call.no b (b.created c call client a (.ok s)) p [grant call.no client ⟨s.id, s.node, b.nextNo⟩]
        (b.pool.releasePending.register s b.nextNo b.now) := by
  have heq : b.register c call.no client s =
      ((b.numbered.releasePending.enrolled s b.nextNo).report .pool .debug "session created"
        [("session_id", s.id.text), ("node_id", toString s.node)]).lease call.no client
          ⟨s.id, s.node, b.nextNo⟩ := by
    rw [register_eq, hopen, if_neg Bool.false_ne_true]
  -- the report on the new session is not told to the call; the grant is
  let told : List (Signal ε α) := [.event ⟨.pool, .debug, "session created", [("session_id", s.id.text),
    ("node_id", toString s.node)]⟩]
  have hofNone : ∀ s ∈ told, s.ofCall = false := by simp [told, Signal.ofCall]
  have hreported := standsBy_tellAll hofNone call.no (b.numbered.releasePending.enrolled s b.nextNo)
  obtain ⟨asked, p, hleases, hi⟩ := goes_register (e := b) rfl c call.no client s
  refine ⟨p.map Point.roused, ?_, ?_, ?_, ?_⟩
  · intro point hpoint
    cases hleases with
    | ends => cases hpoint
    | operates a h =>
      cases hpoint
      rfl
  · exact (congrArg (Itinerary.stop? · call.no) hi).trans (Itinerary.stop?_go hstop asked p)
  · show ((b.register c call.no client s).signals).filter _ = _
    rw [heq, (signals_lease _ call.no client _).1, List.filter_append,
      List.filter_cons_of_pos (tellsOf_grant call.no client _), List.filter_nil]
    exact congrArg (· ++ _) hreported.told
  · show (b.register c call.no client s).pool = _
    rw [heq, (signals_lease _ call.no client _).2]
    rfl

end

end Engine

end PooledSessions
