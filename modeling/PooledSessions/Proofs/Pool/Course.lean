import PooledSessions.Proofs.Pool.Operations
/-!
# The course of the calls

What becomes of the calls of a running pool is seen from the calls themselves, the leases, tokens, flags,
the generator and the clock, and from what was told about calls (`Engine.course`).  Tables, monitors
and deletions do not belong to it: when sessions are taken back, given up, retired or searched for, the
course of the calls stays as it is.
-/

namespace PooledSessions

variable {ε α : Type}

/-- Whether a signal is about a call.  The others tell events and deletions. -/
def Signal.ofCall : Signal ε α → Bool
  | .event _ => false
  | .deleteBegun _ _ => false
  | _ => true

/-- What can be seen of the calls of a running pool. -/
structure Course (ε α : Type) where
  /-- The calls that have not ended. -/
  calls : List Call
  /-- The leases that callers hold. -/
  held : List Handle
  /-- The tokens that have been cancelled. -/
  cancelled : List Token
  /-- The liveness flags. -/
  flags : Flags
  /-- Seeds the draws of delays. -/
  generator : Generator
  /-- What the clock shows. -/
  now : Nat
  /-- What was told about calls. -/
  told : List (Signal ε α)

namespace Engine

variable {e e' : Engine ε α}

/-- The course of the calls so far. -/
def course (e : Engine ε α) : Course ε α :=
  ⟨e.calls, e.held, e.cancelled, e.flags, e.generator, e.now, e.signals.filter Signal.ofCall⟩

/-! ## What belongs to the course -/

theorem calls_of_course (h : e'.course = e.course) : e'.calls = e.calls := congrArg Course.calls h

theorem held_of_course (h : e'.course = e.course) : e'.held = e.held := congrArg Course.held h

theorem cancelled_of_course (h : e'.course = e.course) : e'.cancelled = e.cancelled :=
  congrArg Course.cancelled h

theorem flags_of_course (h : e'.course = e.course) : e'.flags = e.flags := congrArg Course.flags h

/-- What is told of calls alone can be read off their course. -/
theorem filterMap_signals {β : Type} {f : Signal ε α → Option β}
    (hf : ∀ s, s.ofCall = false → f s = none) (e : Engine ε α) :
    e.signals.filterMap f = e.course.told.filterMap f := by
  rw [course, List.filterMap_filter]
  refine List.filterMap_congr fun s _ => ?_
  cases hs : s.ofCall with
  | true => rfl
  | false => exact hf s hs

/-- Something is told about a call. -/
theorem course_tell {s : Signal ε α} (hs : s.ofCall = true) (e : Engine ε α) :
    (e.tell s).course = { e.course with told := e.course.told ++ [s] } := by
  simp [course, tell, List.filter_append, hs]

/-! ## What does not belong to it -/

/-- What is told about no call does not show in the course of the calls. -/
theorem course_tellAll {told : List (Signal ε α)} (htold : ∀ s ∈ told, s.ofCall = false)
    (e : Engine ε α) : ({ e with signals := e.signals ++ told } : Engine ε α).course = e.course := by
  have hnone : told.filter Signal.ofCall = [] :=
    List.filter_eq_nil_iff.mpr fun s hs => by simp [htold s hs]
  simp only [course, List.filter_append, hnone, List.append_nil]

@[simp] theorem course_report (e : Engine ε α) (topic : Topic) (level : Level) (message : String)
    (fields : List (String × Detail)) : (e.report topic level message fields).course = e.course :=
  course_tellAll (by simp [Signal.ofCall]) e

@[simp] theorem course_withPool (e : Engine ε α) (pool : Pool) :
    (e.withPool pool).course = e.course := rfl

@[simp] theorem course_stopMonitor (e : Engine ε α) (flag : FlagNo) :
    (e.stopMonitor flag).course = e.course := rfl

@[simp] theorem course_startDeletion (e : Engine ε α) (c : Setup) (id : SessionId)
    (closer : Option TaskNo) : (e.startDeletion c id closer).course = e.course :=
  course_tellAll (show ∀ s ∈ [Signal.deleteBegun e.nextNo id], s.ofCall = false by simp [Signal.ofCall]) e

@[simp] theorem course_deleteInBackground (e : Engine ε α) (c : Setup) (id : SessionId) :
    (e.deleteInBackground c id).course = e.course := by
  unfold deleteInBackground
  split
  · exact course_startDeletion e c id none
  · exact course_report e _ _ _ _

@[simp] theorem course_retire (e : Engine ε α) (c : Setup) (id : SessionId) (t : Tracked)
    (reason : String) : (e.retire c id t reason).course = e.course := by
  rw [retire, course_deleteInBackground, course_report, course_stopMonitor]

@[simp] theorem course_retireAll (c : Setup) (reason : String) (gone : List (SessionId × Tracked))
    (e : Engine ε α) : (e.retireAll c reason gone).course = e.course := by
  induction gone generalizing e with
  | nil => rfl
  | cons x gone ih => rw [retireAll_cons, ih, course_retire]

/-- Giving up a session leaves the calls as they are. -/
@[simp] theorem course_invalidate (e : Engine ε α) (c : Setup) (id : SessionId) :
    (e.invalidate c id).course = e.course := by
  cases ht : e.pool.find? id with
  | none => rw [invalidate_of_none ht]
  | some t => rw [invalidate_of_find? ht, course_retire, course_withPool]

@[simp] theorem course_loseLease (e : Engine ε α) (c : Setup) (id : SessionId) :
    (e.loseLease c id).course = e.course := by
  rw [loseLease, course_invalidate, course_report]

/-- Taking a lease back leaves the calls as they are. -/
@[simp] theorem course_giveBack (e : Engine ε α) (c : Setup) (id : SessionId) :
    (e.giveBack c id).course = e.course := by
  unfold giveBack
  split
  · exact course_retire _ c id _ _
  · rfl

/-- Searching the idle stack leaves the calls as they are. -/
@[simp] theorem course_searched (e : Engine ε α) (c : Setup) : (e.searched c).course = e.course := by
  rw [searched, course_withPool, course_retireAll]

@[simp] theorem course_reserved (e : Engine ε α) : e.reserved.course = e.course := rfl

/-! ## Assessment -/

/-- An observer of the records may cancel a token, and does nothing else. -/
theorem course_observe (e : Engine ε α) (c : Setup) (role : Role) :
    (e.observe c role).course = { e.course with cancelled := (e.observe c role).cancelled } := by
  have hcancel : ∀ (e : Engine ε α) (t : Token),
      (e.cancel t).course = { e.course with cancelled := (e.cancel t).cancelled } := by
    intro e t
    unfold cancel
    split <;> rfl
  unfold observe
  rcases c.observer with _ | o
  · rfl
  · cases role
    all_goals
      dsimp only
      split
      · rw [hcancel]
        rfl
      · rfl

/-- The failure of an attempt at an operation is told by its record, and a delay is drawn for it. -/
theorem course_assess (e : Engine ε α) (c : Setup) (f : Fault) (a : Attempt) :
    (e.assess c .operation f a).2.course = { e.course with
      cancelled := (e.assess c .operation f a).2.cancelled
      generator := (c.operations.assess f a e.generator).generator
      told := e.course.told ++ [.record .operation (c.operations.assess f a e.generator).record] } := by
  unfold assess
  dsimp only
  -- the assessment is only named here: what it draws at random must not be computed
  generalize c.operations.assess f a e.generator = assessed
  rw [course_observe]
  have hevents : (assessed.events.map (Signal.event (ε := ε) (α := α))).filter Signal.ofCall = [] := by
    refine List.filter_eq_nil_iff.mpr fun s hs => ?_
    obtain ⟨event, -, rfl⟩ := List.mem_map.mp hs
    simp [Signal.ofCall]
  simp only [course, List.filter_append, hevents, List.append_nil, Course.mk.injEq, true_and]
  rfl

/-! ## The end of a failed attempt -/

/-- The session of a failed attempt is given up, or its lease comes back. -/
def partFrom (e : Engine ε α) (c : Setup) (id : SessionId) (givesUp : Bool) : Engine ε α :=
  if givesUp then e.invalidate c id else e.giveBack c id

@[simp] theorem course_partFrom (e : Engine ε α) (c : Setup) (id : SessionId) (givesUp : Bool) :
    (e.partFrom c id givesUp).course = e.course := by
  unfold partFrom
  split
  · exact course_invalidate e c id
  · exact course_giveBack e c id

/-- A failed attempt is assessed, parts from its session, and is followed as the record says. -/
theorem operated_error [PooledError ε] (e : Engine ε α) (c : Setup) (call : Call) (a : Attempt)
    (k : Handle) (error : ε) :
    let record := (c.operations.assess (CallError.toFault error) a e.generator).record
    let parted := (e.assess c .operation (CallError.toFault error) a).2.partFrom c k.id
      record.invalidatesSession
    e.operated c call a k (.error error) = parted.follow c call.no call.token
      (Loop.afterFailure a error record.delay (parted.isCancelled call.token) parted.now) := by
  have hrecord : (e.assess c .operation (CallError.toFault error) a).1 =
      (c.operations.assess (CallError.toFault error) a e.generator).record := rfl
  dsimp only
  rw [← hrecord]
  unfold operated partFrom
  dsimp only

end Engine

end PooledSessions
