import PooledSessions.Proofs.Retry.Delays
import PooledSessions.Proofs.Pool.Outcome
/-!
# The itinerary of the calls

The itinerary of a running pool (`Engine.itinerary`) says where its calls wait, what was asked of the
server and of the operations for them, and what the clock shows.  In one move at most one call travels
on: from the point where it waited it goes one leg (`Leg`), on which it asks for a few things, and waits
at its next point or has ended.  What the legs can be depends on nothing but the budgets of the two
policies and their longest delays.

Each operation of the pool is followed once; the last theorem says what a move does to the itinerary
(`Engine.travels_of_step`).
-/

namespace PooledSessions

variable {ε α : Type}

/-! ## Legs -/

/-- What is asked for a call. -/
inductive Request
  /-- The server is to create a session. -/
  | create
  /-- The creation is given up. -/
  | giveUp
  /-- The operation is started. -/
  | operate
  deriving DecidableEq

/-- Whether a call that waits at the point waits for the server to create a session. -/
def Point.isCreating : Point → Bool
  | .creating .. => true
  | _ => false

/-- What an acquisition leads to that has got a lease for the client. -/
inductive Leases (now : Nat) : Client → List Request → Option Point → Prop
  /-- The caller has his lease, or the client is refused one. -/
  | ends (client : Client) : Leases now client [] none
  /-- The operation is started. -/
  | operates (a : Attempt) (h : Handle) : Leases now (.attempt a) [.operate] (some (.operating a h now))

/-- What it leads to that a session is asked for at the tables. -/
inductive Acquires (now : Nat) (client : Client) : List Request → Option Point → Prop
  /-- No session has to be created. -/
  | leases {asked : List Request} {p : Option Point} (h : Leases now client asked p) :
      Acquires now client asked p
  /-- The first attempt to create one is made. -/
  | creates : Acquires now client [.create] (some (.creating client (.first true) now))

/-- What the failure of an attempt to create a session leads to. -/
inductive Retries (c : Setup) (now : Nat) (client : Client) (a : Attempt) :
    List Request → Option Point → Prop
  /-- It was the last one. -/
  | ends : Retries c now client a [] none
  /-- The next one is made at once. -/
  | again (h : a.number < c.creation.policy.maxAttempts) :
      Retries c now client a [.create] (some (.creating client a.next now))
  /-- The next one is made after a delay. -/
  | pauses (h : a.number < c.creation.policy.maxAttempts) (wake : Nat)
      (hwake : wake ≤ now + c.creation.policy.longestDelay) (hnow : now ≤ wake) :
      Retries c now client a [] (some (.createPause client a wake))

/-- A leg of the way of a call: from the point where it waits, with what is asked for it, to the point
where it waits next, if it does not end.  It is told apart whether an answer of the server to a creation
starts the leg. -/
inductive Leg (c : Setup) (now : Nat) : Bool → Point → List Request → Option Point → Prop
  /-- The call ends. -/
  | ends {p : Point} (hp : p.isCreating = false) : Leg c now false p [] none
  /-- An acquisition for the caller begins. -/
  | acquires {asked : List Request} {p : Option Point} (h : Acquires now .caller asked p) :
      Leg c now false (.fresh .lease) asked p
  /-- The first attempt at an operation begins. -/
  | executes (idempotent : Bool) {asked : List Request} {p : Option Point}
      (h : Acquires now (.attempt (.first idempotent)) asked p) :
      Leg c now false (.fresh (.operation idempotent)) asked p
  /-- A closing goes on. -/
  | closes {p p' : Point} (hp : p = .fresh .closing ∨ p.closes = true) (hp' : p'.closes = true) :
      Leg c now false p [] (some p')
  /-- The server has created a session. -/
  | created (client : Client) (a : Attempt) (since : Nat) {asked : List Request} {p : Option Point}
      (h : Leases now client asked p) : Leg c now true (.creating client a since) asked p
  /-- The server has failed to create a session. -/
  | refused (client : Client) (a : Attempt) (since : Nat) {asked : List Request} {p : Option Point}
      (h : Retries c now client a asked p) : Leg c now true (.creating client a since) asked p
  /-- The creation is given up. -/
  | givesUp (client : Client) (a : Attempt) (since : Nat) {asked : List Request} {p : Option Point}
      (h : Retries c now client a asked p) :
      Leg c now false (.creating client a since) (.giveUp :: asked) p
  /-- The delay between two attempts to create a session has passed. -/
  | recreates (client : Client) (a : Attempt) (wake : Nat) :
      Leg c now false (.createPause client a wake) [.create] (some (.creating client a.next now))
  /-- The operation has failed and is tried again at once. -/
  | repeats (a : Attempt) (k : Handle) (since : Nat) (ha : a.number < c.operations.policy.maxAttempts)
      {asked : List Request} {p : Option Point} (h : Acquires now (.attempt a.next) asked p) :
      Leg c now false (.operating a k since) asked p
  /-- The operation has failed and is tried again after a delay. -/
  | pauses (a : Attempt) (k : Handle) (since : Nat) (ha : a.number < c.operations.policy.maxAttempts)
      (wake : Nat) (hwake : wake ≤ now + c.operations.policy.longestDelay) (hnow : now ≤ wake) :
      Leg c now false (.operating a k since) [] (some (.pausing a wake))
  /-- The delay between two attempts at an operation has passed. -/
  | resumes (a : Attempt) (wake : Nat) {asked : List Request} {p : Option Point}
      (h : Acquires now (.attempt a.next) asked p) : Leg c now false (.pausing a wake) asked p

/-! ## Itineraries -/

/-- What the outside is asked for in a signal, with the call for which it is asked. -/
def Signal.request? : Signal ε α → Option (TaskNo × Request)
  | .createBegun no => some (no, .create)
  | .createAbandoned no => some (no, .giveUp)
  | .operationStarted no _ => some (no, .operate)
  | _ => none

/-- The point with the closings that wait for creations taken for woken, since they may be woken in any
move. -/
def Point.roused : Point → Point
  | .draining _ => .draining true
  | p => p

/-- Where calls wait, what was asked for them, and what the clock shows. -/
structure Itinerary where
  /-- The points where the calls wait. -/
  stops : List (TaskNo × Point)
  /-- What was asked for them. -/
  requests : List (TaskNo × Request)
  /-- What the clock shows. -/
  now : Nat

namespace Itinerary

/-- Something is asked for a call. -/
def ask (i : Itinerary) (no : TaskNo) (r : Request) : Itinerary :=
  { i with requests := i.requests ++ [(no, r)] }

/-- A call goes a leg, at the end of which it waits at a point or has ended. -/
def go (i : Itinerary) (no : TaskNo) (asked : List Request) (p : Option Point) : Itinerary :=
  { i with
    stops := i.stops.filterMap fun x => if x.1 = no then p.map fun p => (no, p.roused) else some x
    requests := i.requests ++ asked.map fun r => (no, r) }

theorem go_ask (i : Itinerary) (no : TaskNo) (r : Request) (asked : List Request) (p : Option Point) :
    (i.ask no r).go no asked p = i.go no (r :: asked) p := by
  simp [go, ask]

/-- Where all calls but one wait. -/
def others (i : Itinerary) (no : TaskNo) : List (TaskNo × Point) := i.stops.filter (·.1 ≠ no)

/-- A call waits at one point. -/
theorem perm_stops {i : Itinerary} {x : TaskNo × Point} (hnd : (i.stops.map (·.1)).Nodup)
    (hx : x ∈ i.stops) : i.stops.Perm (x :: i.others x.1) := by
  have hothers : i.others x.1 = i.stops.erase x := by
    rw [others, (List.Nodup.of_map _ hnd).erase_eq_filter]
    refine List.filter_congr fun y hy => ?_
    have hsame : y.1 = x.1 ↔ y = x := ⟨fun h => List.inj_on_of_nodup_map hnd hy hx h, fun h => by rw [h]⟩
    by_cases he : y = x <;> simp [hsame, he]
  rw [hothers]
  exact List.perm_cons_erase hx

/-- When a call goes a leg, the others stay where they wait. -/
theorem perm_go {i : Itinerary} {x : TaskNo × Point} (hnd : (i.stops.map (·.1)).Nodup)
    (hx : x ∈ i.stops) (asked : List Request) (p : Option Point) :
    (i.go x.1 asked p).stops.Perm
      ((p.map fun p => (x.1, p.roused)).toList ++ i.others x.1) := by
  let next : TaskNo × Point → Option (TaskNo × Point) := fun y =>
    if y.1 = x.1 then p.map fun p => (x.1, p.roused) else some y
  have hothers : (i.others x.1).filterMap next = i.others x.1 := by
    refine (List.filterMap_congr fun y hy => if_neg ?_).trans List.filterMap_some
    simpa [others] using (List.mem_filter.mp hy).2
  have hperm := (perm_stops hnd hx).filterMap next
  have hmover : next x = p.map fun p => (x.1, p.roused) := if_pos rfl
  refine hperm.trans (List.Perm.of_eq ?_)
  cases p with
  | none => rw [List.filterMap_cons_none (by rw [hmover]; rfl), hothers]; rfl
  | some p => rw [List.filterMap_cons_some (by rw [hmover]; rfl), hothers]; rfl

end Itinerary

namespace Engine

variable {c : Setup} {b e e' : Engine ε α} {no : TaskNo}

/-- The itinerary of the calls so far. -/
def itinerary (e : Engine ε α) : Itinerary :=
  { stops := e.calls.map fun k => (k.no, k.point.roused)
    requests := e.signals.filterMap Signal.request?
    now := e.now }

/-- The itinerary can be read off the course of the calls. -/
theorem itinerary_congr (hcalls : e'.calls = e.calls) (htold : e'.course.told = e.course.told)
    (hnow : e'.now = e.now) : e'.itinerary = e.itinerary := by
  have hrequests : ∀ e : Engine ε α, e.signals.filterMap Signal.request? =
      e.course.told.filterMap Signal.request? :=
    filterMap_signals fun s hs => by cases s <;> first | rfl | cases hs
  rw [itinerary, itinerary, hrequests, hrequests, htold, hcalls, hnow]

theorem itinerary_of_course (h : e'.course = e.course) : e'.itinerary = e.itinerary :=
  itinerary_congr (calls_of_course h) (congrArg Course.told h) (congrArg Course.now h)

/-! ### What a call does -/

theorem itinerary_tell {s : Signal ε α} (hs : s.request? = none) (e : Engine ε α) :
    (e.tell s).itinerary = e.itinerary := by
  simp [itinerary, tell, hs]

theorem itinerary_ask {s : Signal ε α} {r : Request} (hs : s.request? = some (no, r))
    (e : Engine ε α) : (e.tell s).itinerary = e.itinerary.ask no r := by
  simp [itinerary, tell, hs, Itinerary.ask]

/-- A call waits at its next point. -/
theorem itinerary_moveTo (e : Engine ε α) (no : TaskNo) (p : Point) :
    (e.moveTo no p).itinerary = e.itinerary.go no [] (some p) := by
  have hstops : ∀ k : Call, ((if k.no = no then { k with point := p } else k).no,
      (if k.no = no then { k with point := p } else k).point.roused) =
        if k.no = no then (no, p.roused) else (k.no, k.point.roused) := by
    intro k
    by_cases hk : k.no = no <;> simp [hk]
  have hsome : ∀ x : TaskNo × Point,
      (if x.1 = no then (some p).map fun p => (no, p.roused) else some x) =
        some (if x.1 = no then (no, p.roused) else x) := by
    intro x
    split <;> rfl
  simp only [itinerary, moveTo, Itinerary.go, List.map_map, Function.comp_def, hstops, hsome,
    List.filterMap_eq_map', List.map_nil, List.append_nil]

/-- A call has ended. -/
theorem itinerary_endCall (e : Engine ε α) (no : TaskNo) :
    (e.endCall no).itinerary = e.itinerary.go no [] none := by
  have hstops : (e.calls.filter (·.no ≠ no)).map (fun k => (k.no, k.point.roused)) =
      (e.calls.map fun k => (k.no, k.point.roused)).filter fun x => x.1 ≠ no := by
    rw [List.filter_map]
    rfl
  have hsome : ∀ x : TaskNo × Point,
      (if x.1 = no then (none : Option Point).map fun p => (no, p.roused) else some x) =
        Option.guard (fun x => x.1 ≠ no) x := by
    intro x
    by_cases hx : x.1 = no <;> simp [hx, Option.guard]
  simp only [itinerary, endCall, Itinerary.go, hstops, hsome, List.filterMap_eq_filter, List.map_nil,
    List.append_nil]

theorem itinerary_countStart (e : Engine ε α) (no : TaskNo) :
    (e.countStart no).itinerary = e.itinerary := by
  have hstops : ∀ k : Call, ((if k.no = no then { k with started := k.started + 1 } else k).no,
      (if k.no = no then { k with started := k.started + 1 } else k).point.roused) =
        (k.no, k.point.roused) := by
    intro k
    split <;> rfl
  simp only [itinerary, countStart, List.map_map, Function.comp_def, hstops]

/-- Whether closings are woken does not show. -/
theorem itinerary_releasePending (e : Engine ε α) : e.releasePending.itinerary = e.itinerary := by
  have hstops : ∀ k : Call, (k.wake.no, k.wake.point.roused) = (k.no, k.point.roused) := by
    intro k
    obtain ⟨no, token, started, point⟩ := k
    cases point <;> rfl
  have hcalls : e.releasePending.calls = e.ledger.callsAfterCreation := rfl
  have hmap : e.ledger.callsAfterCreation.map (fun k => (k.no, k.point.roused)) =
      e.calls.map fun k => (k.no, k.point.roused) := by
    unfold Ledger.callsAfterCreation
    split
    · rw [List.map_map]
      exact List.map_congr_left fun k _ => hstops k
    · rfl
  rw [itinerary, hcalls, hmap]
  rfl

theorem itinerary_cancel (e : Engine ε α) (t : Token) : (e.cancel t).itinerary = e.itinerary := by
  unfold cancel
  split <;> rfl

theorem itinerary_assess (e : Engine ε α) (c : Setup) (role : Role) (f : Fault) (a : Attempt) :
    (e.assess c role f a).2.itinerary = e.itinerary := by
  have hobserve : ∀ e : Engine ε α, (e.observe c role).itinerary = e.itinerary := by
    intro e
    have hcourse := course_observe e c role
    exact itinerary_congr (congrArg Course.calls hcourse) (by rw [hcourse]) (congrArg Course.now hcourse)
  unfold assess
  dsimp only
  -- the assessment is only named here: what it draws at random must not be computed
  generalize Executor.assess _ f a e.generator = assessed
  rw [hobserve]
  have hevents : (assessed.events.map (Signal.event (ε := ε) (α := α))).filterMap Signal.request? = [] := by
    rw [List.filterMap_map]
    exact List.filterMap_eq_nil_iff.mpr fun event _ => rfl
  simp [itinerary, List.filterMap_append, hevents, Signal.request?]

/-- The delay in a record is one that the policy may decide on. -/
theorem bounds_of_assess {x : Executor} {f : Fault} {a : Attempt} {g : Generator} {d : Span}
    (h : (x.assess f a g).record.delay = some d) :
    a.number < x.policy.maxAttempts ∧ d.waitMillis ≤ x.policy.longestDelay :=
  Policy.bounds_of_decideFresh (f := x.classifier.classify f) (g := g) h

theorem itinerary_finish (e : Engine ε α) (no : TaskNo) (result : Except ε α) :
    (e.finish no result).itinerary = e.itinerary.go no [] none := by
  rw [finish, itinerary_tell rfl, itinerary_endCall]

theorem itinerary_reject [PooledError ε] (e : Engine ε α) (no : TaskNo) (client : Client)
    (p : PoolError) : (e.reject no client p).itinerary = e.itinerary.go no [] none := by
  cases client with
  | caller => exact (itinerary_tell rfl _).trans (itinerary_endCall e no)
  | attempt a => exact itinerary_finish e no _

/-! ## How the retry loop goes on -/

theorem eq_of_start {δ : Type} [CallError δ] (a : Attempt) (cancelled : Bool) :
    Loop.start (ε := δ) a cancelled = .attempt a ∨
      Loop.start (ε := δ) a cancelled = .fail CallError.cancelled := by
  unfold Loop.start
  cases cancelled with
  | false => exact Or.inl rfl
  | true => exact Or.inr rfl

/-- After a failed attempt the loop ends, or goes on if a delay was given. -/
theorem afterFailure_cases {δ : Type} [CallError δ] (a : Attempt) (error : δ) (delay : Option Span)
    (cancelled : Bool) (now : Nat) :
    (∃ error', Loop.afterFailure a error delay cancelled now = .fail error') ∨
      ∃ d, delay = some d ∧ (Loop.afterFailure a error delay cancelled now = .attempt a.next ∨
        Loop.afterFailure a error delay cancelled now = .pause a (now + d.waitMillis)) := by
  unfold Loop.afterFailure
  cases delay with
  | none => exact Or.inl ⟨error, rfl⟩
  | some d =>
    cases cancelled with
    | true => exact Or.inl ⟨CallError.cancelled, rfl⟩
    | false =>
      refine Or.inr ⟨d, rfl, ?_⟩
      simp only [Bool.false_eq_true, if_false]
      split
      · exact Or.inl rfl
      · exact Or.inr rfl

/-! ## Legs of the pool's operations -/

/-- From the itinerary `i` the call `no` goes a leg of the given kind, which leads to the pool `e`. -/
def GoesBy (no : TaskNo) (Way : List Request → Option Point → Prop) (i : Itinerary) (e : Engine ε α) :
    Prop :=
  ∃ asked p, Way asked p ∧ e.itinerary = i.go no asked p

variable {Way Way' : List Request → Option Point → Prop} {i : Itinerary} {client : Client}

theorem GoesBy.mono (h : GoesBy no Way i e) (hway : ∀ asked p, Way asked p → Way' asked p) :
    GoesBy no Way' i e := by
  obtain ⟨asked, p, hp, heq⟩ := h
  exact ⟨asked, p, hway asked p hp, heq⟩

variable [PooledError ε]

omit [PooledError ε] in
theorem goes_finish (hi : e.itinerary = i) (hends : Way [] none) (result : Except ε α) :
    GoesBy no Way i (e.finish no result) :=
  ⟨[], none, hends, by rw [itinerary_finish, hi]⟩

theorem goes_reject (hi : e.itinerary = i) (hends : Way [] none) (client : Client) (p : PoolError) :
    GoesBy no Way i (e.reject no client p) :=
  ⟨[], none, hends, by rw [itinerary_reject, hi]⟩

omit [PooledError ε] in
theorem goes_moveTo (hi : e.itinerary = i) {p : Point} (hwaits : Way [] (some p)) :
    GoesBy no Way i (e.moveTo no p) :=
  ⟨[], some p, hwaits, by rw [itinerary_moveTo, hi]⟩

omit [PooledError ε] in
/-- A lease ends the call of a caller, and lets an operation be started. -/
theorem goes_lease (hi : e.itinerary = i) (no : TaskNo) (client : Client) (k : Handle) :
    GoesBy no (Leases i.now client) i (e.lease no client k) := by
  cases client with
  | caller =>
    refine ⟨[], none, .ends .caller, ?_⟩
    rw [← hi, ← itinerary_endCall]
    exact itinerary_tell rfl _
  | attempt a =>
    refine ⟨[.operate], some (.operating a k e.now), hi ▸ .operates a k, ?_⟩
    rw [lease, itinerary_ask rfl, itinerary_moveTo, itinerary_countStart, hi]
    simp [Itinerary.ask, Itinerary.go]

/-- A creation that has failed is told in events, and gives its place back. -/
theorem followCreation_fail (e : Engine ε α) (c : Setup) (no : TaskNo) (client : Client)
    (error : RpcError) :
    ∃ told p, (∀ s ∈ told, Signal.ofCall (ε := ε) (α := α) s = false) ∧
      e.followCreation c no client (.fail error) =
        ({ e with signals := e.signals ++ told } : Engine ε α).releasePending.reject no client p := by
  let failed := (c.creation.classifier.classify (.rpc error)).failureClass
  let events : List (Signal ε α) := (c.creation.classifier.classifyEvents (.rpc error)).map .event
  let report : Signal ε α := .event ⟨.pool, .warn, "session creation failed",
    [("error", error.message), ("class", failed.name)]⟩
  have htold : ∀ s ∈ events ++ [report], s.ofCall = false := by
    intro s hs
    rcases List.mem_append.mp hs with hs | hs
    · obtain ⟨event, -, rfl⟩ := List.mem_map.mp hs
      rfl
    · rw [List.mem_singleton.mp hs]
      rfl
  have happend : e.signals ++ events ++ [report] = e.signals ++ (events ++ [report]) :=
    List.append_assoc _ _ _
  cases error with
  | cancelled => exact ⟨[], .cancelled, by simp, by rw [List.append_nil]; rfl⟩
  | transport code message =>
    exact ⟨events ++ [report], .creationFailed (.transport code message) (failed ≠ .nonRetryable), htold,
      by rw [← happend]; rfl⟩
  | status code message =>
    exact ⟨events ++ [report], .creationFailed (.status code message) (failed ≠ .nonRetryable), htold,
      by rw [← happend]; rfl⟩

/-- A creation is begun, waits, or has failed. -/
theorem goes_followCreation (hi : e.itinerary = i) (c : Setup) {next : Loop.Next RpcError}
    (hends : Way [] none)
    (hattempt : ∀ a, next = .attempt a → Way [.create] (some (.creating client a i.now)))
    (hpause : ∀ a wake, next = .pause a wake → Way [] (some (.createPause client a wake))) :
    GoesBy no Way i (e.followCreation c no client next) := by
  have hnow : e.now = i.now := congrArg Itinerary.now hi
  cases next with
  | attempt a =>
    refine ⟨[.create], _, hattempt a rfl, ?_⟩
    rw [followCreation, itinerary_ask rfl, itinerary_moveTo, hi, hnow]
    simp [Itinerary.ask, Itinerary.go]
  | pause a wake => exact goes_moveTo hi (hpause a wake rfl)
  | fail error =>
    obtain ⟨told, p, htold, heq⟩ := e.followCreation_fail c no client error
    rw [heq]
    refine goes_reject ?_ hends client p
    rw [itinerary_releasePending, itinerary_of_course (course_tellAll htold e), hi]

/-- A session is leased, the first creation is begun, or the client is refused. -/
theorem goes_acquireFor (hi : e.itinerary = i) (c : Setup) (no : TaskNo) (token : Token)
    (client : Client) : GoesBy no (Acquires i.now client) i (e.acquireFor c no token client) := by
  have hsearched : (e.searched c).itinerary = i := (itinerary_of_course (course_searched e c)).trans hi
  have hends : Acquires i.now client [] none := .leases (.ends client)
  by_cases hclosed : e.pool.closed = true
  · rw [acquireFor_closed hclosed]
    exact goes_reject hi hends client .closed
  · rw [acquireFor_open (by simpa using hclosed)]
    cases hleased : e.search.leased with
    | some x => exact (goes_lease hsearched no client _).mono fun _ _ h => .leases h
    | none =>
      by_cases hroom : e.search.active.length + e.pool.pending < c.limit
      · simp only [if_pos hroom]
        have hstart := eq_of_start (δ := RpcError) (.first true) ((e.searched c).isCancelled token)
        refine goes_followCreation (e := (e.searched c).reserved) hsearched c hends (fun a ha => ?_)
          fun a wake hpause => ?_
        · rcases hstart with hstart | hstart
          · rw [hstart, Loop.Next.attempt.injEq] at ha
            exact ha ▸ .creates
          · rw [hstart] at ha
            cases ha
        · rcases hstart with hstart | hstart
          all_goals
            rw [hstart] at hpause
            cases hpause
      · simp only [if_neg hroom]
        exact goes_reject hsearched hends client _

/-- A session that was created is leased, or the client is refused because the pool was closed
meanwhile. -/
theorem goes_register (hi : e.itinerary = i) (c : Setup) (no : TaskNo) (client : Client)
    (s : SessionInfo) : GoesBy no (Leases i.now client) i (e.register c no client s) := by
  have hnumbered : ({ e with nextNo := e.nextNo + 1 } : Engine ε α).itinerary = i := hi
  unfold register
  by_cases hclosed : e.pool.closed = true
  · simp only [if_pos hclosed]
    refine goes_reject ?_ (.ends client) client .closed
    rw [itinerary_releasePending, itinerary_of_course (course_deleteInBackground _ c s.id), hnumbered]
  · simp only [if_neg hclosed]
    have hreleased := (itinerary_releasePending { e with nextNo := e.nextNo + 1 }).trans hnumbered
    refine goes_lease ?_ no client _
    rw [itinerary_of_course (course_report _ _ _ _ _)]
    exact hreleased

/-- After a failed creation another one is begun, if attempts are left. -/
theorem goes_retry (hi : e.itinerary = i) (c : Setup) (no : TaskNo) (client : Client) (a : Attempt)
    (error : RpcError) {delay : Option Span} (cancelled : Bool)
    (hdelay : ∀ d, delay = some d → a.number < c.creation.policy.maxAttempts ∧
      d.waitMillis ≤ c.creation.policy.longestDelay) :
    GoesBy no (Retries c i.now client a) i
      (e.followCreation c no client (Loop.afterFailure a error delay cancelled i.now)) := by
  refine goes_followCreation hi c .ends (fun a' hattempt => ?_) fun a' wake hpause => ?_
  · rcases afterFailure_cases a error delay cancelled i.now with ⟨error', hnext⟩ |
      ⟨d, hd, hnext | hnext⟩
    all_goals rw [hnext] at hattempt
    · cases hattempt
    · rw [← Loop.Next.attempt.inj hattempt]
      exact .again (hdelay d hd).1
    · cases hattempt
  · rcases afterFailure_cases a error delay cancelled i.now with ⟨error', hnext⟩ |
      ⟨d, hd, hnext | hnext⟩
    all_goals rw [hnext] at hpause
    · cases hpause
    · cases hpause
    · obtain ⟨rfl, rfl⟩ := Loop.Next.pause.inj hpause
      exact .pauses (hdelay d hd).1 _ (Nat.add_le_add_left (hdelay d hd).2 _) (Nat.le_add_right _ _)

/-- A creation ends with an error. -/
theorem goes_created_error (hi : e.itinerary = i) (c : Setup) (call : Call) (client : Client)
    (a : Attempt) (error : RpcError) :
    GoesBy call.no (Retries c i.now client a) i (e.created c call client a (.error error)) := by
  have hassessed := (itinerary_assess e c .creation (.rpc error) a).trans hi
  have hnow : (e.assess c .creation (.rpc error) a).2.now = i.now := congrArg Itinerary.now hassessed
  unfold created
  dsimp only
  rw [hnow]
  exact goes_retry hassessed c call.no client a error _ fun d hd => bounds_of_assess hd

/-- The operation is tried again, waits or ends. -/
theorem goes_follow (hi : e.itinerary = i) (c : Setup) (token : Token) {next : Loop.Next ε}
    (hends : Way [] none)
    (hattempt : ∀ a, next = .attempt a → ∀ asked p, Acquires i.now (.attempt a) asked p → Way asked p)
    (hpause : ∀ a wake, next = .pause a wake → Way [] (some (.pausing a wake))) :
    GoesBy no Way i (e.follow c no token next) := by
  cases next with
  | attempt a => exact (goes_acquireFor hi c no token (.attempt a)).mono (hattempt a rfl)
  | pause a wake => exact goes_moveTo hi (hpause a wake rfl)
  | fail error => exact goes_finish hi hends _

/-- The operation is started again after a delay, or for the first time. -/
theorem goes_restart (hi : e.itinerary = i) (c : Setup) (token : Token) (a : Attempt)
    (cancelled : Bool) (hends : Way [] none)
    (hattempt : ∀ asked p, Acquires i.now (.attempt a) asked p → Way asked p) :
    GoesBy no Way i (e.follow c no token (Loop.start a cancelled)) := by
  have hstart := eq_of_start (δ := ε) a cancelled
  refine goes_follow hi c token hends (fun a' ha => ?_) fun a' wake hpause => ?_
  · rcases hstart with hstart | hstart
    all_goals rw [hstart] at ha
    · rw [← Loop.Next.attempt.inj ha]
      exact hattempt
    · cases ha
  · rcases hstart with hstart | hstart
    all_goals
      rw [hstart] at hpause
      cases hpause

/-- An operation ends. -/
theorem goes_operated (hi : e.itinerary = i) (c : Setup) (call : Call) (a : Attempt) (k : Handle)
    (since : Nat) (result : Except ε α) :
    GoesBy call.no (Leg c i.now false (.operating a k since)) i (e.operated c call a k result) := by
  have hends : Leg c i.now false (.operating a k since) [] none := .ends rfl
  cases result with
  | ok v => exact goes_finish ((itinerary_of_course (course_giveBack e c k.id)).trans hi) hends _
  | error error =>
    rw [operated_error]
    generalize hrecord : (c.operations.assess (CallError.toFault error) a e.generator).record = record
    have hparted : ((e.assess c .operation (CallError.toFault error) a).2.partFrom c k.id
        record.invalidatesSession).itinerary = i := by
      rw [itinerary_of_course (course_partFrom _ c k.id _), itinerary_assess, hi]
    have hdelay : ∀ d, record.delay = some d → a.number < c.operations.policy.maxAttempts ∧
        d.waitMillis ≤ c.operations.policy.longestDelay :=
      fun d hd => bounds_of_assess (hrecord ▸ hd)
    rw [show ((e.assess c .operation (CallError.toFault error) a).2.partFrom c k.id
      record.invalidatesSession).now = i.now from congrArg Itinerary.now hparted]
    refine goes_follow hparted c call.token hends (fun a' hattempt asked p h => ?_)
      fun a' wake hpause => ?_
    · rcases afterFailure_cases a error record.delay _ i.now with ⟨error', hnext⟩ |
        ⟨d, hd, hnext | hnext⟩
      all_goals rw [hnext] at hattempt
      · cases hattempt
      · rw [← Loop.Next.attempt.inj hattempt] at h
        exact .repeats a k since (hdelay d hd).1 h
      · cases hattempt
    · rcases afterFailure_cases a error record.delay _ i.now with ⟨error', hnext⟩ |
        ⟨d, hd, hnext | hnext⟩
      all_goals rw [hnext] at hpause
      · cases hpause
      · cases hpause
      · obtain ⟨rfl, rfl⟩ := Loop.Next.pause.inj hpause
        exact .pauses a k since (hdelay d hd).1 _ (Nat.add_le_add_left (hdelay d hd).2 _)
          (Nat.le_add_right _ _)

omit [PooledError ε] in
/-- A closing goes on or ends. -/
theorem goes_settle (hi : e.itinerary = i) (c : Setup) {p : Point} (hp : p.closes = true) :
    GoesBy no (Leg c i.now false p) i (e.settle no) := by
  have hcloses : ∀ p' : Point, p'.closes = true → Leg c i.now false p [] (some p') :=
    fun p' hp' => .closes (Or.inr hp) hp'
  unfold settle
  split
  · exact goes_moveTo hi (hcloses (.draining false) rfl)
  · split
    · exact goes_moveTo hi (hcloses .settling rfl)
    · refine ⟨[], none, .ends ?_, ?_⟩
      · cases p <;> first | rfl | cases hp
      · rw [itinerary_tell rfl, itinerary_endCall, hi]

omit [PooledError ε] in
/-- A call that is dropped ends, and a creation of its is given up. -/
theorem goes_abandon (hi : e.itinerary = i) (c : Setup) (call : Call) :
    GoesBy call.no (Leg c i.now false call.point) i (e.abandon c call) := by
  have hended := itinerary_endCall e call.no
  unfold abandon
  cases hpoint : call.point with
  | creating client a since =>
    refine ⟨[.giveUp], none, .givesUp client a since .ends, ?_⟩
    rw [itinerary_releasePending, itinerary_ask rfl, hended, hi]
    simp [Itinerary.ask, Itinerary.go]
  | createPause client a wake =>
    exact ⟨[], none, .ends rfl, by rw [itinerary_releasePending, hended, hi]⟩
  | operating a k since =>
    exact ⟨[], none, .ends rfl, by rw [itinerary_of_course (course_loseLease _ c k.id), hended, hi]⟩
  | deleting => exact ⟨[], none, .ends rfl, hended.trans (by rw [hi])⟩
  | fresh _ | pausing _ _ | draining _ | settling =>
    exact ⟨[], none, .ends rfl, hended.trans (by rw [hi])⟩

/-- A call that is started. -/
theorem goes_start (hi : e.itinerary = i) (c : Setup) (call : Call) (purpose : Purpose) :
    GoesBy call.no (Leg c i.now false (.fresh purpose)) i (e.start c call purpose) := by
  cases purpose with
  | lease => exact (goes_acquireFor hi c call.no call.token .caller).mono fun _ _ h => .acquires h
  | operation idempotent =>
    exact goes_restart hi c call.token (.first idempotent) _ (.ends rfl) fun _ _ h =>
      .executes idempotent h
  | closing =>
    rw [start, beginClose_eq]
    refine goes_moveTo ?_ (.closes (Or.inl rfl) rfl)
    rw [itinerary_of_course, hi]
    rw [course_withPool, course_dismissAll, course_announceClosing]

end Engine

/-! ## Every move -/

/-- Whether a move is the server's answer to a creation. -/
def Move.isAnswer : Move ε α → Bool
  | .created _ _ => true
  | _ => false

/-- How far the clock goes on in a move. -/
def Move.millis : Move ε α → Nat
  | .advance millis => millis
  | _ => 0

namespace Engine

/-- What a move does to the itinerary. -/
inductive Travels (c : Setup) (m : Move ε α) (b e : Engine ε α) : Prop
  /-- No call moves. -/
  | stays (hm : m.call? = none) (hi : e.itinerary = { b.itinerary with now := b.now + m.millis })
  /-- A call is set up. -/
  | comes (purpose : Purpose) (token : Token) (hm : m = .call purpose token)
      (hi : e.itinerary = { b.itinerary with
        stops := b.itinerary.stops ++ [(b.nextNo, .fresh purpose)] })
  /-- A call goes a leg. -/
  | goes (call : Call) (hcall : b.call? call.no = some call) (hm : m.call? = some call.no)
      (asked : List Request) (p : Option Point) (hleg : Leg c b.now m.isAnswer call.point asked p)
      (hi : e.itinerary = b.itinerary.go call.no asked p)

variable {c : Setup} {b e : Engine ε α} {m : Move ε α} [PooledError ε]

/-- In every move at most one call goes a leg. -/
theorem travels_of_step (hstep : b.step c m = some e) : Travels c m b e := by
  have hgoes : ∀ {call : Call} {e : Engine ε α}, b.call? call.no = some call → m.call? = some call.no →
      GoesBy call.no (Leg c b.now m.isAnswer call.point) b.itinerary e → Travels c m b e := by
    intro call e hcall hm hleg
    obtain ⟨asked, p, hleg, hi⟩ := hleg
    exact .goes call hcall hm asked p hleg hi
  -- moves of the server and the clock, and those that part from a session, move no call
  have haside : ∀ millis, m.passes? = some millis → m.call? = none → m.millis = millis →
      Travels c m b e := by
    intro millis hpasses hm hmillis
    have hcourse := (aside_of_step hpasses hstep).course
    have hi : e.itinerary = ({ b with now := b.now + millis } : Engine ε α).itinerary :=
      itinerary_congr (congrArg Course.calls hcourse) (by rw [hcourse]; rfl) (congrArg Course.now hcourse)
    exact .stays hm (by rw [hi, hmillis]; rfl)
  have hparts : ∀ b₁ : Engine ε α, b₁.itinerary = b.itinerary → e.course = b₁.course →
      m.call? = none → m.millis = 0 → Travels c m b e := by
    intro b₁ hi hcourse hm hmillis
    exact .stays hm (by rw [itinerary_of_course hcourse, hi, hmillis]; rfl)
  cases makes_of_step hstep with
  | call purpose token =>
    exact .comes purpose token rfl (by simp [itinerary, addCall, Point.roused])
  | start call purpose hcall hpoint =>
    exact hgoes hcall rfl (hpoint ▸ goes_start rfl c call purpose)
  | abandon call hcall => exact hgoes hcall rfl (goes_abandon rfl c call)
  | created call client a since result hcall hpoint hgo =>
    refine hgoes hcall rfl ?_
    rw [hpoint]
    cases result with
    | ok s => exact (goes_register rfl c call.no client s).mono fun _ _ h => .created client a since h
    | error error =>
      exact (goes_created_error rfl c call client a error).mono fun _ _ h => .refused client a since h
  | createExpired call client a since hcall hpoint hgo hdue =>
    obtain ⟨asked, p, hway, hi⟩ := goes_created_error (e := b.tell (.createAbandoned call.no))
      (itinerary_ask rfl b) c call client a creationTimeout
    refine hgoes hcall rfl ⟨.giveUp :: asked, p, hpoint ▸ .givesUp client a since hway, ?_⟩
    rw [hi, Itinerary.go_ask]
  | operated call a k since cancels result hcall hpoint hgo =>
    refine hgoes hcall rfl ?_
    rw [hpoint]
    have hi : (if cancels then b.cancel call.token else b).itinerary = b.itinerary := by
      split
      · exact itinerary_cancel b call.token
      · rfl
    exact goes_operated hi c call a k since result
  | createWoken call client a wake hcall hpoint hgo hdue =>
    have hstart := eq_of_start (δ := RpcError) a.next (b.isCancelled call.token)
    refine hgoes hcall rfl (hpoint ▸ goes_followCreation rfl c (.ends rfl) (fun a' ha => ?_)
      fun a' wake' hpause => ?_)
    · rcases hstart with hstart | hstart
      all_goals rw [hstart] at ha
      · rw [← Loop.Next.attempt.inj ha]
        exact .recreates client a wake
      · cases ha
    · rcases hstart with hstart | hstart
      all_goals
        rw [hstart] at hpause
        cases hpause
  | woken call a wake hcall hpoint hgo hdue =>
    exact hgoes hcall rfl (hpoint ▸ goes_restart rfl c call.token a.next _ (.ends rfl)
      fun _ _ h => .resumes a wake h)
  | creationNoticed call client a since hcall hpoint hgone =>
    have hfailed : GoesBy call.no (Retries c b.now client a) (b.itinerary.ask call.no .giveUp)
        ((b.tell (.createAbandoned call.no)).followCreation c call.no client (.fail .cancelled)) :=
      goes_followCreation (itinerary_ask rfl b) c .ends (fun a' ha => by cases ha)
        fun a' wake ha => by cases ha
    obtain ⟨asked, p, hway, hi⟩ := hfailed
    refine hgoes hcall rfl ⟨.giveUp :: asked, p, hpoint ▸ .givesUp client a since hway, ?_⟩
    rw [hi, Itinerary.go_ask]
  | createPauseNoticed call client a wake hcall hpoint hgone =>
    exact hgoes hcall rfl (hpoint ▸ goes_followCreation rfl c (.ends rfl) (fun a' ha => by cases ha)
      fun a' wake' ha => by cases ha)
  | operationNoticed call a k since hcall hpoint hgone =>
    exact hgoes hcall rfl (hpoint ▸ goes_finish (itinerary_of_course (course_invalidate b c k.id))
      (.ends rfl) _)
  | pauseNoticed call a wake hcall hpoint hgone =>
    exact hgoes hcall rfl (hpoint ▸ goes_finish rfl (.ends rfl) _)
  | proceed call hcall hcloses => exact hgoes hcall rfl (goes_settle rfl c hcloses)
  | attached | heard | streamEnded | deleted | deletionExpired | cancel =>
    exact haside 0 rfl rfl rfl
  | advance millis => exact haside millis rfl rfl rfl
  | release k hk => exact hparts (b.part k.flag) rfl (course_giveBack _ c k.id) rfl rfl
  | invalidate k hk => exact hparts (b.part k.flag) rfl (course_invalidate _ c k.id) rfl rfl
  | drop k hk => exact hparts (b.part k.flag) rfl (course_loseLease _ c k.id) rfl rfl
  | invalidateId id => exact hparts b rfl (course_invalidate b c id) rfl rfl

end Engine

end PooledSessions
