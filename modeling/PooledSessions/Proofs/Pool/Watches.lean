import PooledSessions.Proofs.Pool.Handover
/-!
# Watches over sessions

Each tracked session has its flag and, as long as the flag is alive, its monitor.  A session that comes to
be tracked gets a new flag and a new monitor; a session that leaves the tables takes its monitor with it;
and a flag goes dead only together with its monitor, who gives notice of it (`Engine.notices`).
`Engine.Attends` says what the operations of the pool leave of the watches, each of which is followed once,
and `Engine.Relieves` what a move does to them.
-/

namespace PooledSessions

variable {ε α : Type}

/-- The dead sessions that a search of the idle stack finds were tracked, and have left the tables. -/
theorem Pool.lookup_of_mem_dead {alive : FlagNo → Bool} {now : Nat} {idle : List SessionId}
    {active : List (SessionId × Tracked)} {x : SessionId × Tracked}
    (hx : x ∈ (popIdle alive now idle active).dead) :
    active.lookup x.1 = some x.2 ∧ (popIdle alive now idle active).active.lookup x.1 = none := by
  induction idle generalizing active with
  | nil => cases hx
  | cons top idle ih =>
    cases htop : active.lookup top with
    | none =>
      rw [popIdle_cons_of_none htop] at hx ⊢
      exact ih hx
    | some u =>
      cases halive : alive u.flag with
      | true =>
        rw [popIdle_cons_of_alive htop halive] at hx
        cases hx
      | false =>
        rw [popIdle_cons_of_dead htop halive] at hx ⊢
        rcases List.mem_cons.mp hx with rfl | hx
        · refine ⟨htop, Option.eq_none_iff_forall_ne_some.mpr fun t ht => ?_⟩
          obtain ⟨t₀, ht₀, -⟩ := lookup_of_popIdle ht
          exact (lookup_of_lookup_without ht₀).1 rfl
        · obtain ⟨hfind, hnone⟩ := ih hx
          exact ⟨(lookup_of_lookup_without hfind).2, hnone⟩

/-- A search of the idle stack lists no session that was not listed. -/
theorem Pool.names_popIdle (alive : FlagNo → Bool) (now : Nat) (idle : List SessionId)
    (active : List (SessionId × Tracked)) :
    ((popIdle alive now idle active).active.map (·.1)).Sublist (active.map (·.1)) := by
  induction idle generalizing active with
  | nil => exact List.Sublist.refl _
  | cons top idle ih =>
    cases htop : active.lookup top with
    | none =>
      rw [popIdle_cons_of_none htop]
      exact ih active
    | some u =>
      cases halive : alive u.flag with
      | true =>
        rw [popIdle_cons_of_alive htop halive]
        exact (map_fst_changed top _ active).symm ▸ List.Sublist.refl _
      | false =>
        rw [popIdle_cons_of_dead htop halive]
        exact (ih (without top active)).trans (List.filter_sublist.map _)

/-- The monitor that finds its session dead in a move. -/
def Move.condemned? : Move ε α → Option TaskNo
  | .attached no (.error _) => some no
  | .heard no (.error _) => some no
  | .heard no (.ok (.unusable _)) => some no
  | .streamEnded no => some no
  | _ => none

/-- Whether a monitor comes to a decision in a move: it has attached to its session, or has found it
dead. -/
def Move.decides : Move ε α → Bool
  | .attached _ (.ok _) => true
  | m => m.condemned?.isSome

theorem Move.decides_of_condemned {m : Move ε α} {no : TaskNo} (hm : m.condemned? = some no) :
    m.decides = true := by
  have hsome : m.condemned?.isSome = true := by rw [hm]; rfl
  cases m with
  | attached no result =>
    cases result with
    | ok stream => rfl
    | error error => exact hsome
  | _ => exact hsome

/-- What a monitor is told about its session. -/
inductive Tiding
  /-- The server has answered its attaching. -/
  | attached (result : Except RpcError Nat)
  /-- A message has come. -/
  | heard (message : Except RpcError SessionStatus)
  /-- The stream has ended. -/
  | ended

/-- For which reason a monitor that is told this takes its session for dead, if it does. -/
def Tiding.reason? : Tiding → Option String
  | .attached (.error error) => some ("attach failed: " ++ error.message)
  | .heard (.error error) => some ("stream error: " ++ error.message)
  | .heard (.ok (.unusable code)) => some ("server reported " ++ code.name)
  | .ended => some "stream closed"
  | _ => none

/-- Which monitor is told something in a move, and what. -/
def Move.told? : Move ε α → Option (TaskNo × Tiding)
  | .attached no result => some (no, .attached result)
  | .heard no message => some (no, .heard message)
  | .streamEnded no => some (no, .ended)
  | _ => none

theorem Move.condemned?_eq (m : Move ε α) :
    m.condemned? = m.told?.bind fun x => x.2.reason?.map fun _ => x.1 := by
  cases m with
  | attached no result => cases result <;> rfl
  | heard no message =>
    rcases message with error | status
    · rfl
    · cases status <;> rfl
  | _ => rfl

/-- The notice that a monitor gives of a session that it takes for dead. -/
def deathNotice (id : SessionId) (reason : String) : Event :=
  ⟨.monitor, .info, "session marked dead", [("session_id", id.text), ("reason", .quoted reason)]⟩

/-- A notice of a monitor. -/
def Signal.notice? : Signal ε α → Option Event
  | .event x => if x.topic = .monitor then some x else none
  | _ => none

namespace Engine

/-! ## Notices -/

/-- All notices of monitors so far. -/
def notices (e : Engine ε α) : List Event := e.signals.filterMap Signal.notice?

/-- Whatever is told and is no notice of a monitor. -/
theorem notices_tellAll {told : List (Signal ε α)} (htold : ∀ s ∈ told, s.notice? = none) (e : Engine ε α) :
    ({ e with signals := e.signals ++ told } : Engine ε α).notices = e.notices := by
  have hnone : told.filterMap Signal.notice? = [] := List.filterMap_eq_nil_iff.mpr htold
  rw [notices, List.filterMap_append, hnone, List.append_nil]
  rfl

theorem notices_tell {s : Signal ε α} (hs : s.notice? = none) (e : Engine ε α) :
    (e.tell s).notices = e.notices :=
  notices_tellAll (by simpa using hs) e

theorem notice?_event {topic : Topic} (htopic : topic ≠ .monitor) (level : Level) (message : String)
    (fields : List (String × Detail)) :
    (Signal.event ⟨topic, level, message, fields⟩ : Signal ε α).notice? = none :=
  if_neg htopic

theorem notices_report {topic : Topic} (htopic : topic ≠ .monitor) (level : Level) (message : String)
    (fields : List (String × Detail)) (e : Engine ε α) :
    (e.report topic level message fields).notices = e.notices :=
  notices_tell (notice?_event htopic level message fields) e

theorem notices_startDeletion (e : Engine ε α) (c : Setup) (id : SessionId) (closer : Option TaskNo) :
    (e.startDeletion c id closer).notices = e.notices :=
  notices_tell (show (Signal.deleteBegun e.nextNo id : Signal ε α).notice? = none from rfl) e

theorem notices_deleteInBackground (e : Engine ε α) (c : Setup) (id : SessionId) :
    (e.deleteInBackground c id).notices = e.notices := by
  unfold deleteInBackground
  split
  · exact notices_startDeletion e c id none
  · exact notices_report (by decide) _ _ _ e

theorem notices_retire (e : Engine ε α) (c : Setup) (id : SessionId) (t : Tracked) (reason : String) :
    (e.retire c id t reason).notices = e.notices := by
  rw [retire, notices_deleteInBackground]
  exact notices_report (by decide) _ _ _ (e.stopMonitor t.flag)

theorem notices_retireAll (c : Setup) (reason : String) (gone : List (SessionId × Tracked))
    (e : Engine ε α) : (e.retireAll c reason gone).notices = e.notices := by
  induction gone generalizing e with
  | nil => rfl
  | cons x gone ih => rw [retireAll_cons, ih, notices_retire]

theorem notices_dismissAll (c : Setup) (no : TaskNo) (gone : List (SessionId × Tracked))
    (e : Engine ε α) : (e.dismissAll c no gone).notices = e.notices := by
  induction gone generalizing e with
  | nil => rfl
  | cons x gone ih =>
    rw [dismissAll_cons, ih]
    exact notices_startDeletion (e.stopMonitor x.2.flag) c x.1 (some no)

theorem notice?_of_mem_classifyEvents {x : Classifier} {f : Fault} {event : Event}
    (hevent : event ∈ x.classifyEvents f) : (Signal.event event : Signal ε α).notice? = none := by
  unfold Classifier.classifyEvents at hevent
  split at hevent
  · rw [List.mem_singleton.mp hevent]
    exact notice?_event (show Topic.classification ≠ .monitor by decide) _ _ _
  · cases hevent

/-- Failures are reported by executors and classifiers, not by monitors. -/
theorem notice?_of_mem_events {x : Executor} {f : Fault} {a : Attempt} {g : Generator} {event : Event}
    (hevent : event ∈ (x.assess f a g).events) : (Signal.event event : Signal ε α).notice? = none := by
  have hevents : (x.assess f a g).events =
      x.classifier.classifyEvents f ++ [Executor.attemptEvent f a (x.assess f a g).record] := rfl
  rw [hevents] at hevent
  rcases List.mem_append.mp hevent with hin | hin
  · exact notice?_of_mem_classifyEvents hin
  · rw [List.mem_singleton.mp hin, Executor.attemptEvent]
    split <;> exact notice?_event (show Topic.repetition ≠ .monitor by decide) _ _ _

theorem notices_observe (e : Engine ε α) (c : Setup) (role : Role) :
    (e.observe c role).notices = e.notices := by
  have hcancel : ∀ (e : Engine ε α) (t : Token), (e.cancel t).notices = e.notices := by
    intro e t
    unfold cancel
    split <;> rfl
  unfold observe
  rcases c.observer with _ | o
  · rfl
  · cases role
    all_goals
      dsimp only
      split
      · rw [hcancel]
        rfl
      · rfl

theorem notices_assess (e : Engine ε α) (c : Setup) (role : Role) (f : Fault) (a : Attempt) :
    (e.assess c role f a).2.notices = e.notices := by
  have htold : ∀ assessed : Assessment, (∀ event ∈ assessed.events,
      (Signal.event event : Signal ε α).notice? = none) →
        ({ e with
          generator := assessed.generator
          signals := e.signals ++ assessed.events.map Signal.event ++
            [Signal.record role assessed.record] } : Engine ε α).notices = e.notices := by
    intro assessed hevents
    show List.filterMap _ _ = _
    rw [List.append_assoc]
    refine notices_tellAll (fun s hs => ?_) e
    rcases List.mem_append.mp hs with hs | hs
    · obtain ⟨event, hevent, rfl⟩ := List.mem_map.mp hs
      exact hevents event hevent
    · rw [List.mem_singleton.mp hs]
      rfl
  cases role with
  | creation => exact (notices_observe _ c .creation).trans (htold _ fun _ => notice?_of_mem_events)
  | operation => exact (notices_observe _ c .operation).trans (htold _ fun _ => notice?_of_mem_events)

/-! ## Monitors that are stopped -/

/-- The monitors that are left when the given sessions are retired. -/
def monitorsWithout (e : Engine ε α) (gone : List (SessionId × Tracked)) : List Monitor :=
  e.monitors.filter fun k => k.no ∉ gone.map (·.2.flag)

theorem monitors_deleteInBackground (e : Engine ε α) (c : Setup) (id : SessionId) :
    (e.deleteInBackground c id).monitors = e.monitors := by
  unfold deleteInBackground
  split <;> rfl

theorem monitors_retire (e : Engine ε α) (c : Setup) (id : SessionId) (t : Tracked) (reason : String) :
    (e.retire c id t reason).monitors = e.monitorsWithout [(id, t)] := by
  rw [retire, monitors_deleteInBackground]
  simp [monitorsWithout, report, tell, stopMonitor]

/-- Sessions that are retired one after another lose their monitors. -/
theorem monitorsWithout_cons {e e' : Engine ε α} {x : SessionId × Tracked}
    {gone : List (SessionId × Tracked)} (h : e'.monitors = e.monitorsWithout [x]) :
    e'.monitorsWithout gone = e.monitorsWithout (x :: gone) := by
  rw [monitorsWithout, h, monitorsWithout, monitorsWithout, List.filter_filter]
  refine List.filter_congr fun k _ => ?_
  simp only [List.map_cons, List.map_nil, List.mem_cons, List.not_mem_nil, or_false, not_or,
    Bool.decide_and, Bool.and_comm]

theorem monitors_retireAll (c : Setup) (reason : String) (gone : List (SessionId × Tracked))
    (e : Engine ε α) : (e.retireAll c reason gone).monitors = e.monitorsWithout gone := by
  induction gone generalizing e with
  | nil => simp [monitorsWithout]
  | cons x gone ih => rw [retireAll_cons, ih, monitorsWithout_cons (monitors_retire e c x.1 x.2 reason)]

theorem monitors_dismissAll (c : Setup) (no : TaskNo) (gone : List (SessionId × Tracked))
    (e : Engine ε α) : (e.dismissAll c no gone).monitors = e.monitorsWithout gone := by
  induction gone generalizing e with
  | nil => simp [dismissAll, monitorsWithout]
  | cons x gone ih =>
    rw [dismissAll_cons, ih]
    exact monitorsWithout_cons (by simp [monitorsWithout, startDeletion, tell, stopMonitor])

theorem flags_dismissAll (c : Setup) (no : TaskNo) (gone : List (SessionId × Tracked))
    (e : Engine ε α) : (e.dismissAll c no gone).flags = e.flags := by
  induction gone generalizing e with
  | nil => rfl
  | cons x gone ih => rw [dismissAll_cons, ih]; rfl

/-! ## What is left of the watches -/

/-- The pool `e` comes from the pool `b` by a part of a move that brings no new session: what is left is
watched as before. -/
structure Attends (b e : Engine ε α) : Prop where
  /-- What is tracked was tracked before, under the same flag. -/
  tracked : ∀ id t, e.pool.find? id = some t → ∃ t₀, b.pool.find? id = some t₀ ∧ t₀.flag = t.flag
  /-- No session is listed that was not. -/
  names : (e.pool.active.map (·.1)).Sublist (b.pool.active.map (·.1))
  /-- No session dies. -/
  flags : e.flags = b.flags
  /-- No notice is given. -/
  notices : e.notices = b.notices
  /-- No monitor is started. -/
  monitors : e.monitors.Sublist b.monitors
  /-- A monitor is stopped only if the session with its flag leaves the tables. -/
  stopped : ∀ k ∈ b.monitors, k ∈ e.monitors ∨
    ∃ id t, b.pool.find? id = some t ∧ t.flag = k.no ∧ e.pool.find? id = none

namespace Attends

variable {b e e' : Engine ε α}

protected theorem rfl : Attends b b where
  tracked := fun _ t ht => ⟨t, ht, rfl⟩
  names := List.Sublist.refl _
  flags := rfl
  notices := rfl
  monitors := List.Sublist.refl _
  stopped := fun _ hk => Or.inl hk

/-- A session that is not tracked stays so. -/
theorem find?_eq_none {id : SessionId} (hnone : e.pool.find? id = none)
    (htracked : ∀ id t, e'.pool.find? id = some t → ∃ t₀, e.pool.find? id = some t₀ ∧ t₀.flag = t.flag) :
    e'.pool.find? id = none := by
  refine Option.eq_none_iff_forall_ne_some.mpr fun t ht => ?_
  obtain ⟨t₀, ht₀, -⟩ := htracked id t ht
  rw [hnone] at ht₀
  cases ht₀

/-- Some sessions leave the tables, and their monitors are stopped. -/
theorem leave (h : Attends b e) {gone : List (SessionId × Tracked)}
    (hgone : ∀ x ∈ gone, e.pool.find? x.1 = some x.2 ∧ e'.pool.find? x.1 = none)
    (htracked : ∀ id t, e'.pool.find? id = some t → ∃ t₀, e.pool.find? id = some t₀ ∧ t₀.flag = t.flag)
    (hnames : (e'.pool.active.map (·.1)).Sublist (e.pool.active.map (·.1))) (hflags : e'.flags = e.flags)
    (hnotices : e'.notices = e.notices) (hmonitors : e'.monitors = e.monitorsWithout gone) : Attends b e' where
  tracked := fun id t ht => by
    obtain ⟨t₁, ht₁, hflag⟩ := htracked id t ht
    obtain ⟨t₀, ht₀, hflag₀⟩ := h.tracked id t₁ ht₁
    exact ⟨t₀, ht₀, hflag₀.trans hflag⟩
  names := hnames.trans h.names
  flags := hflags.trans h.flags
  notices := hnotices.trans h.notices
  monitors := by
    rw [hmonitors]
    exact List.filter_sublist.trans h.monitors
  stopped := fun k hk => by
    rcases h.stopped k hk with hin | ⟨id, t, ht, hflag, hnone⟩
    · by_cases hout : k.no ∈ gone.map (·.2.flag)
      · obtain ⟨x, hx, hno⟩ := List.mem_map.mp hout
        obtain ⟨hfind, hnone⟩ := hgone x hx
        obtain ⟨t₀, ht₀, hflag₀⟩ := h.tracked x.1 x.2 hfind
        exact Or.inr ⟨x.1, t₀, ht₀, hflag₀.trans hno, hnone⟩
      · refine Or.inl ?_
        rw [hmonitors]
        exact List.mem_filter.mpr ⟨hin, by simpa using hout⟩
    · exact Or.inr ⟨id, t, ht, hflag, find?_eq_none hnone htracked⟩

/-- Whatever changes neither the tables nor the watches. -/
theorem quiet (h : Attends b e) (hactive : e'.pool.active = e.pool.active) (hflags : e'.flags = e.flags)
    (hnotices : e'.notices = e.notices) (hmonitors : e'.monitors = e.monitors) : Attends b e' := by
  have hsame : e'.monitors = e.monitorsWithout [] := by simp [hmonitors, monitorsWithout]
  refine h.leave (by simp) (fun id t ht => ?_) (by rw [hactive]) hflags hnotices hsame
  rw [Pool.find?, hactive] at ht
  exact ⟨t, ht, rfl⟩

/-! ## Telling and calls -/

theorem tellAll (h : Attends b e) {told : List (Signal ε α)} (htold : ∀ s ∈ told, s.notice? = none) :
    Attends b { e with signals := e.signals ++ told } :=
  h.quiet rfl rfl (notices_tellAll htold e) rfl

theorem tell (h : Attends b e) {s : Signal ε α} (hs : s.notice? = none) : Attends b (e.tell s) :=
  h.tellAll (by simpa using hs)

theorem report (h : Attends b e) {topic : Topic} (htopic : topic ≠ .monitor) (level : Level)
    (message : String) (fields : List (String × Detail)) :
    Attends b (e.report topic level message fields) :=
  h.tell (notice?_event htopic level message fields)

theorem cancel (h : Attends b e) (t : Token) : Attends b (e.cancel t) := by
  unfold Engine.cancel
  split
  · exact h
  · exact h.quiet rfl rfl rfl rfl

theorem assess (h : Attends b e) (c : Setup) (role : Role) (f : Fault) (a : Attempt) :
    Attends b (e.assess c role f a).2 := by
  have hledger := ledger_assess e c role f a
  have hflags : (e.assess c role f a).2.flags = e.flags := by
    unfold Engine.assess
    dsimp only
    -- the assessment is only named here: what it draws at random must not be computed
    generalize Executor.assess _ f a e.generator = assessed
    exact congrArg Course.flags (course_observe _ c role)
  have hpool : (e.assess c role f a).2.pool = e.pool := congrArg Ledger.pool hledger
  exact h.quiet (by rw [hpool]) hflags (notices_assess e c role f a) (congrArg Ledger.monitors hledger)

theorem moveTo (h : Attends b e) (no : TaskNo) (p : Point) : Attends b (e.moveTo no p) :=
  h.quiet rfl rfl rfl rfl

theorem endCall (h : Attends b e) (no : TaskNo) : Attends b (e.endCall no) :=
  h.quiet rfl rfl rfl rfl

theorem releasePending (h : Attends b e) : Attends b e.releasePending :=
  h.quiet rfl rfl rfl rfl

theorem finish (h : Attends b e) (no : TaskNo) (result : Except ε α) : Attends b (e.finish no result) :=
  (h.endCall no).tell rfl

theorem lease (h : Attends b e) (no : TaskNo) (client : Client) (k : Handle) :
    Attends b (e.lease no client k) := by
  cases client with
  | caller =>
    have hheld : Attends b { e.endCall no with held := e.held ++ [k] } := h.quiet rfl rfl rfl rfl
    exact hheld.tell rfl
  | attempt a =>
    have hmoved : Attends b ((e.countStart no).moveTo no (.operating a k e.now)) := h.quiet rfl rfl rfl rfl
    exact hmoved.tell rfl

theorem settle (h : Attends b e) (no : TaskNo) : Attends b (e.settle no) := by
  unfold Engine.settle
  split
  · exact h.moveTo no _
  · split
    · exact h.moveTo no _
    · exact (h.endCall no).tell rfl

/-! ## Sessions that leave -/

/-- A session leaves the tables and is retired. -/
theorem retire (h : Attends b e) (c : Setup) {id : SessionId} {t : Tracked} {p : Pool}
    (ht : e.pool.find? id = some t) (hnone : p.find? id = none)
    (hp : ∀ k u, p.find? k = some u → e.pool.find? k = some u)
    (hnames : (p.active.map (·.1)).Sublist (e.pool.active.map (·.1))) (reason : String) :
    Attends b ((e.withPool p).retire c id t reason) := by
  have hpool : ((e.withPool p).retire c id t reason).pool = p := pool_retire _ c id t reason
  refine h.leave ?_ ?_ ?_ (flags_of_course (course_retire _ c id t reason)) (notices_retire _ c id t reason)
    (monitors_retire _ c id t reason)
  · intro x hx
    rw [List.mem_singleton.mp hx, hpool]
    exact ⟨ht, hnone⟩
  · intro k u hu
    rw [hpool] at hu
    exact ⟨u, hp k u hu, rfl⟩
  · rw [hpool]
    exact hnames

theorem invalidate (h : Attends b e) (c : Setup) (id : SessionId) : Attends b (e.invalidate c id) := by
  cases ht : e.pool.find? id with
  | none => rwa [invalidate_of_none ht]
  | some t =>
    rw [invalidate_of_find? ht]
    exact h.retire c ht ((Pool.find?_discard e.pool id id).trans (if_pos rfl))
      (fun k u hu => (Pool.find?_of_find?_discard hu).2) (List.filter_sublist.map _) _

theorem loseLease (h : Attends b e) (c : Setup) (id : SessionId) : Attends b (e.loseLease c id) :=
  (h.report (by decide) _ _ _).invalidate c id

theorem giveBack (h : Attends b e) (c : Setup) (id : SessionId) : Attends b (e.giveBack c id) := by
  unfold Engine.giveBack Pool.release
  cases ht : e.pool.find? id with
  | none => exact h
  | some t =>
    dsimp only
    split
    · rename_i t' pool heq
      split at heq
      · split at heq
        · cases heq
        · cases heq
          -- a dead session is taken out and retired with its monitor
          have hgone : Pool.find? { e.pool with active := Pool.without id e.pool.active } id = none :=
            (Pool.lookup_filter_ne e.pool.active id id).trans (if_pos rfl)
          exact h.retire c ht hgone (fun k u hu => (Pool.lookup_of_lookup_without (by exact hu)).2)
            (List.filter_sublist.map _) _
      · cases heq
    · rename_i pool heq
      split at heq
      · split at heq
        · cases heq
          -- a live one goes onto the idle stack, and its monitor goes on
          have hsame : e.monitors = e.monitorsWithout [] := by simp [monitorsWithout]
          refine h.leave (by simp) (fun k u hu => ?_) ?_ rfl rfl hsame
          swap
          · exact (Pool.map_fst_changed id _ e.pool.active).symm ▸ List.Sublist.refl _
          rw [Pool.find?_changed ht] at hu
          split at hu
          · rename_i hk
            cases hu
            exact ⟨t, hk ▸ ht, rfl⟩
          · exact ⟨u, hu, rfl⟩
        · cases heq
      · cases heq
        exact h

/-- The search leaves the tables with what it finds dead. -/
theorem searched (h : Attends b e) (c : Setup) : Attends b (e.searched c) := by
  refine h.leave (fun x hx => ?_) (fun id t ht => ?_)
    (Pool.names_popIdle e.isAlive e.now e.pool.idle e.pool.active) (flags_of_course (course_searched e c))
    (notices_retireAll c _ e.search.dead e) (monitors_retireAll c _ e.search.dead e)
  · exact Pool.lookup_of_mem_dead hx
  · obtain ⟨t₀, ht₀, hflag, -⟩ := Pool.lookup_of_popIdle (by exact ht)
    exact ⟨t₀, ht₀, hflag⟩

theorem reserved (h : Attends b e) : Attends b e.reserved :=
  h.quiet rfl rfl rfl rfl

/-- A closing takes all sessions out of the tables. -/
theorem beginClose (h : Attends b e) (hnd : (e.pool.active.map (·.1)).Nodup) (c : Setup) (no : TaskNo) :
    Attends b (e.beginClose c no) := by
  have hannounced : Attends e e.announceClosing := by
    unfold announceClosing
    split
    · exact .rfl
    · exact Attends.rfl.report (by decide) _ _ _
  have hsame : e.announceClosing.monitors = e.monitors := by
    unfold announceClosing
    split <;> rfl
  rw [beginClose_eq]
  refine Attends.moveTo ?_ no _
  refine h.leave (fun x hx => ⟨Pool.lookup_of_mem hnd hx, rfl⟩) (fun id t ht => by cases ht)
    (List.nil_sublist _) ?_ ?_ ?_
  · exact (flags_dismissAll c no _ _).trans hannounced.flags
  · exact (notices_dismissAll c no _ _).trans hannounced.notices
  · refine (monitors_dismissAll c no e.pool.active _).trans ?_
    rw [monitorsWithout, hsame]
    rfl

variable [PooledError ε]

theorem reject (h : Attends b e) (no : TaskNo) (client : Client) (p : PoolError) :
    Attends b (e.reject no client p) := by
  cases client with
  | caller => exact (h.endCall no).tell rfl
  | attempt a => exact h.finish no _

theorem followCreation (h : Attends b e) (c : Setup) (no : TaskNo) (client : Client)
    (next : Loop.Next RpcError) : Attends b (e.followCreation c no client next) := by
  cases next with
  | attempt a => exact (h.moveTo no _).tell rfl
  | pause a wake => exact h.moveTo no _
  | fail error =>
    have htold : ∀ f : Fault, ∀ s ∈ (c.creation.classifier.classifyEvents f).map (Signal.event (ε := ε) (α := α)),
        s.notice? = none := by
      intro f s hs
      obtain ⟨event, hevent, rfl⟩ := List.mem_map.mp hs
      exact notice?_of_mem_classifyEvents hevent
    cases error with
    | cancelled => exact h.releasePending.reject no client _
    | transport code message =>
      exact ((h.tellAll (htold _)).report (by decide) _ _ _).releasePending.reject no client _
    | status code message =>
      exact ((h.tellAll (htold _)).report (by decide) _ _ _).releasePending.reject no client _

theorem acquireFor (h : Attends b e) (c : Setup) (no : TaskNo) (token : Token) (client : Client) :
    Attends b (e.acquireFor c no token client) := by
  by_cases hclosed : e.pool.closed = true
  · rw [acquireFor_closed hclosed]
    exact h.reject no client _
  · rw [acquireFor_open (by simpa using hclosed)]
    split
    · exact (h.searched c).lease no client _
    · split
      · exact (h.searched c).reserved.followCreation c no client _
      · exact (h.searched c).reject no client _

theorem follow (h : Attends b e) (c : Setup) (no : TaskNo) (token : Token) (next : Loop.Next ε) :
    Attends b (e.follow c no token next) := by
  cases next with
  | attempt a => exact h.acquireFor c no token _
  | pause a wake => exact h.moveTo no _
  | fail error => exact h.finish no _

theorem operated (h : Attends b e) (c : Setup) (call : Call) (a : Attempt) (k : Handle)
    (result : Except ε α) : Attends b (e.operated c call a k result) := by
  cases result with
  | ok v => exact (h.giveBack c k.id).finish call.no _
  | error error =>
    rw [operated_error]
    refine Attends.follow ?_ c call.no call.token _
    unfold partFrom
    split
    · exact (h.assess c _ _ a).invalidate c k.id
    · exact (h.assess c _ _ a).giveBack c k.id

omit [PooledError ε] in
theorem abandon (h : Attends b e) (c : Setup) (call : Call) : Attends b (e.abandon c call) := by
  have hended := h.endCall call.no
  unfold Engine.abandon
  split
  · exact (hended.tell rfl).releasePending
  · exact hended.releasePending
  · exact hended.loseLease c _
  · exact hended.quiet rfl rfl rfl rfl
  · exact hended

end Attends

/-! ## What a move does to the watches -/

/-- What a move does to the watches over the sessions. -/
inductive Relieves (m : Move ε α) (b e : Engine ε α) : Prop
  /-- No session comes, and those that stay are watched as before. -/
  | attends (hm : m.decides = false) (h : Attends b e)
  /-- A session that was created is tracked, and its monitor is to attach to it. -/
  | registers (no : TaskNo) (s : SessionInfo) (hm : m = .created no (.ok s)) (hflags : e.flags = b.flags)
      (hmonitors : e.monitors = b.monitors ++ [⟨b.nextNo, s.id, .attaching⟩])
      (hnew : ∃ t, e.pool.find? s.id = some t ∧ t.flag = b.nextNo)
      (hfind : ∀ id, id ≠ s.id → e.pool.find? id = b.pool.find? id)
      (hnames : e.pool.active.map (·.1) = s.id :: (b.pool.active.map (·.1)).filter (· ≠ s.id))
      (hnotices : e.notices = b.notices) (hnext : e.nextNo = b.nextNo + 1)
  /-- A monitor has attached to its session and listens. -/
  | listens (k : Monitor) (hk : k ∈ b.monitors) (stream : Nat) (hm : m = .attached k.no (.ok stream))
      (hwatch : k.watch = .attaching) (hpool : e.pool = b.pool) (hflags : e.flags = b.flags)
      (hmonitors : e.monitors = b.monitors.map fun j =>
        if j.no = k.no then { j with watch := .listening stream } else j)
      (hnotices : e.notices = b.notices)
  /-- A monitor has found its session dead, and gives notice of it if its flag was alive. -/
  | condemns (k : Monitor) (hk : k ∈ b.monitors) (hm : m.condemned? = some k.no)
      (hpool : e.pool = b.pool) (hflags : e.flags = (b.flags.markDead k.no).2)
      (hmonitors : e.monitors = b.monitors.filter (·.no ≠ k.no)) (x : Tiding)
      (htold : m.told? = some (k.no, x)) (reason : String) (hreason : x.reason? = some reason)
      (hnotices : e.notices =
        b.notices ++ if b.isAlive k.no = true then [deathNotice k.id reason] else [])

variable {c : Setup} {b e : Engine ε α} {m : Move ε α}

theorem relieves_condemn {k : Monitor} (hk : k ∈ b.monitors) {x : Tiding} (htold : m.told? = some (k.no, x))
    {reason : String} (hreason : x.reason? = some reason) : Relieves m b (b.condemn k reason) := by
  have hm : m.condemned? = some k.no := by
    rw [m.condemned?_eq, htold, Option.bind_some, hreason, Option.map_some]
  have hgone : (b.condemn k reason).pool = b.pool ∧
      (b.condemn k reason).flags = (b.flags.markDead k.no).2 ∧
      (b.condemn k reason).monitors = b.monitors.filter (·.no ≠ k.no) := by
    unfold condemn
    dsimp only
    split <;> exact ⟨rfl, rfl, rfl⟩
  refine .condemns k hk hm hgone.1 hgone.2.1 hgone.2.2 x htold reason hreason ?_
  unfold condemn isAlive
  dsimp only
  rw [Flags.markDead_fst]
  split
  · show List.filterMap _ (_ ++ _) = _
    rw [List.filterMap_append]
    rfl
  · exact (List.append_nil _).symm

variable [PooledError ε]

/-- A session that was created is registered, unless the pool was closed meanwhile. -/
theorem relieves_register (b : Engine ε α) (c : Setup) (no : TaskNo) (client : Client) (s : SessionInfo) :
    Relieves (.created no (.ok s)) b (b.register c no client s) := by
  unfold register
  dsimp only
  split
  · refine .attends rfl (Attends.reject (Attends.releasePending ?_) no client _)
    refine Attends.quiet .rfl ?_ ?_ (notices_deleteInBackground _ c s.id) (monitors_deleteInBackground _ c s.id)
    · unfold deleteInBackground
      split <;> rfl
    · exact flags_of_course (course_deleteInBackground _ c s.id)
  -- the session is tracked and its monitor set up before the client is told of the lease
  · let reported := Engine.report (ε := ε) (α := α) { b with
        nextNo := b.nextNo + 1
        pool := b.releasePending.pool.register s b.nextNo b.now
        monitors := b.monitors ++ [⟨b.nextNo, s.id, .attaching⟩]
        calls := ({ b with nextNo := b.nextNo + 1 } : Engine ε α).releasePending.calls }
      .pool .debug "session created" [("session_id", s.id.text), ("node_id", toString s.node)]
    have hleased : Attends reported (reported.lease no client ⟨s.id, s.node, b.nextNo⟩) :=
      Attends.rfl.lease no client _
    have hpool : (reported.lease no client ⟨s.id, s.node, b.nextNo⟩).pool = reported.pool := by
      cases client <;> rfl
    have hmonitors : (reported.lease no client ⟨s.id, s.node, b.nextNo⟩).monitors = reported.monitors := by
      cases client <;> rfl
    have hfind : ∀ id, reported.pool.find? id =
        if id = s.id then some ⟨s.node, b.nextNo, .leased, b.now⟩ else b.pool.find? id :=
      fun id => Pool.find?_register b.releasePending.pool s b.nextNo b.now id
    have hnames : reported.pool.active.map (·.1) = s.id :: (b.pool.active.map (·.1)).filter (· ≠ s.id) := by
      show s.id :: (Pool.without s.id b.pool.active).map (·.1) = _
      rw [Pool.without, List.filter_map]
      rfl
    have hnotices : reported.notices = b.notices :=
      notices_report (by decide) _ _ _ _
    refine .registers no s rfl hleased.flags hmonitors ⟨⟨s.node, b.nextNo, .leased, b.now⟩, ?_, rfl⟩
      (fun id hne => ?_) ((congrArg (·.active.map (·.1)) hpool).trans hnames) (hleased.notices.trans hnotices)
      (by cases client <;> rfl)
    · exact (congrArg (·.find? s.id) hpool).trans ((hfind s.id).trans (if_pos rfl))
    · exact (congrArg (·.find? id) hpool).trans ((hfind id).trans (if_neg hne))

theorem relieves_of_step (hnd : (b.pool.active.map (·.1)).Nodup) (hstep : b.step c m = some e) :
    Relieves m b e := by
  -- the moves of calls and callers stop monitors only together with the sessions they watch
  have hrefl : Attends b b := .rfl
  cases makes_of_step hstep with
  | call purpose token => exact .attends rfl (hrefl.quiet rfl rfl rfl rfl)
  | start call purpose hcall hpoint =>
    cases purpose with
    | lease => exact .attends rfl (hrefl.acquireFor c call.no call.token _)
    | operation idempotent => exact .attends rfl (hrefl.follow c call.no call.token _)
    | closing => exact .attends rfl (hrefl.beginClose hnd c call.no)
  | abandon call hcall => exact .attends rfl (hrefl.abandon c call)
  | created call client a since result =>
    cases result with
    | ok s => exact relieves_register b c call.no client s
    | error error => exact .attends rfl ((hrefl.assess c _ _ a).followCreation c call.no client _)
  | createExpired call client a since =>
    exact .attends rfl (((hrefl.tell rfl).assess c _ _ a).followCreation c call.no client _)
  | operated call a k since cancels result =>
    refine .attends rfl (Attends.operated ?_ c call a k result)
    split
    · exact hrefl.cancel _
    · exact hrefl
  | createWoken call client a wake => exact .attends rfl (hrefl.followCreation c call.no client _)
  | woken call a wake => exact .attends rfl (hrefl.follow c call.no call.token _)
  | creationNoticed call client a since =>
    exact .attends rfl ((hrefl.tell rfl).followCreation c call.no client _)
  | createPauseNoticed call client a wake => exact .attends rfl (hrefl.followCreation c call.no client _)
  | operationNoticed call a k since => exact .attends rfl ((hrefl.invalidate c k.id).finish call.no _)
  | pauseNoticed call a wake => exact .attends rfl (hrefl.finish call.no _)
  | proceed call => exact .attends rfl (hrefl.settle call.no)
  | attached k result hk hwatch =>
    have hin := (mem_of_monitor? hk).1
    cases result with
    | ok stream => exact .listens k hin stream rfl hwatch rfl rfl rfl rfl
    | error error => exact relieves_condemn hin rfl rfl
  | heard k message hk hwatch =>
    have hin := (mem_of_monitor? hk).1
    rcases message with error | status
    · exact relieves_condemn hin rfl rfl
    · cases status with
      | ready => exact .attends rfl hrefl
      | unusable code => exact relieves_condemn hin rfl rfl
  | streamEnded k hk hwatch =>
    exact relieves_condemn (mem_of_monitor? hk).1 rfl rfl
  | deleted d result =>
    have hended : Attends b (b.endDeletion d.no) := hrefl.quiet rfl rfl rfl rfl
    cases result <;> exact .attends rfl (hended.report (by decide) _ _ _)
  | deletionExpired d =>
    have hended : Attends b (b.endDeletion d.no) := hrefl.quiet rfl rfl rfl rfl
    exact .attends rfl (hended.report (by decide) _ _ _)
  | release k =>
    exact .attends rfl ((hrefl.quiet rfl rfl rfl rfl : Attends b (b.part _)).giveBack c k.id)
  | invalidate k =>
    exact .attends rfl ((hrefl.quiet rfl rfl rfl rfl : Attends b (b.part _)).invalidate c k.id)
  | drop k =>
    exact .attends rfl ((hrefl.quiet rfl rfl rfl rfl : Attends b (b.part _)).loseLease c k.id)
  | invalidateId id => exact .attends rfl (hrefl.invalidate c id)
  | cancel token => exact .attends rfl (hrefl.cancel token)
  | advance millis => exact .attends rfl (hrefl.quiet rfl rfl rfl rfl)

end Engine

end PooledSessions
