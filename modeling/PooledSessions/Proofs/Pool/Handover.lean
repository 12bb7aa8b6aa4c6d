import PooledSessions.Proofs.Pool.Course
import PooledSessions.Proofs.Pool.Steps
/-!
# Sessions that are handed out

A session is handed out when a caller is told of a lease on it or an operation is started on it.  The
idle stack gives out only sessions that are tracked and alive, and a session comes to be tracked only
when the server has just named it.  `Engine.Descends` says this between the pool at the beginning of a
move and the pool at any moment of it, so that a session which has left the tables is never handed out
again, as long as the server does not name it once more.
-/

namespace PooledSessions

/-! ## Tables -/

namespace Pool

/-- The tables `q` come from the tables `p`: each session tracked in `q` was tracked in `p` under the same
flag, but for the session `fresh`, and those that have been leased meanwhile are alive. -/
def Descends (alive : FlagNo → Bool) (fresh : Option SessionId) (p q : Pool) : Prop :=
  ∀ id t, q.find? id = some t → fresh = some id ∨
    ∃ t₀, p.find? id = some t₀ ∧ t₀.flag = t.flag ∧
      (t.use = .leased → t₀.use = .leased ∨ alive t₀.flag = true)

namespace Descends

variable {alive : FlagNo → Bool} {fresh : Option SessionId} {p q r : Pool}

theorem of_find? (hfind : ∀ id t, q.find? id = some t → p.find? id = some t) :
    Descends alive fresh p q :=
  fun id t ht => Or.inr ⟨t, hfind id t ht, rfl, Or.inl⟩

protected theorem rfl : Descends alive fresh p p := of_find? fun _ _ ht => ht

theorem trans (h : Descends alive fresh p q) (h' : Descends alive fresh q r) :
    Descends alive fresh p r := by
  intro id t ht
  rcases h' id t ht with hfresh | ⟨t₁, ht₁, hflag₁, huse₁⟩
  · exact Or.inl hfresh
  · rcases h id t₁ ht₁ with hfresh | ⟨t₀, ht₀, hflag₀, huse₀⟩
    · exact Or.inl hfresh
    · refine Or.inr ⟨t₀, ht₀, hflag₀.trans hflag₁, fun huse => ?_⟩
      rcases huse₁ huse with hleased | halive
      · exact huse₀ hleased
      · exact Or.inr (hflag₀ ▸ halive)

theorem discard (p : Pool) (id : SessionId) : Descends alive fresh p (p.discard id) :=
  of_find? fun _ _ ht => (find?_of_find?_discard ht).2

theorem register (p : Pool) (s : SessionInfo) (flag : FlagNo) (now : Nat) :
    Descends alive (some s.id) p (p.register s flag now) := by
  intro id t ht
  rw [find?_register] at ht
  split at ht
  · rename_i hid
    exact Or.inl (congrArg some hid.symm)
  · exact Or.inr ⟨t, ht, rfl, Or.inl⟩

/-- A lease that comes back leases nothing. -/
theorem release (p : Pool) (id : SessionId) (now : Nat) :
    Descends alive fresh p (p.release id alive now).2 := by
  unfold Pool.release
  cases ht : p.find? id with
  | none => exact Descends.rfl
  | some t =>
    dsimp only
    split
    · split
      · intro k u hu
        have hfind := find?_changed ht (id :: p.idle) { t with use := .idle, lastAccess := now } k
        rw [hfind] at hu
        split at hu
        · rename_i hk
          cases hu
          exact Or.inr ⟨t, hk ▸ ht, rfl, fun huse => by cases huse⟩
        · exact Or.inr ⟨u, hu, rfl, Or.inl⟩
      · exact of_find? fun _ _ hk => (find?_of_find?_discard (p := p) hk).2
    · exact Descends.rfl

end Descends

variable {alive : FlagNo → Bool} {now : Nat}

/-- The session on top of the idle stack is leased if it is alive. -/
theorem popIdle_cons_of_alive {id : SessionId} {idle : List SessionId} {t : Tracked}
    {active : List (SessionId × Tracked)} (ht : active.lookup id = some t) (halive : alive t.flag = true) :
    popIdle alive now (id :: idle) active =
      ⟨some (id, { t with use := .leased, lastAccess := now }), [], idle,
        changed id { t with use := .leased, lastAccess := now } active⟩ := by
  simp only [popIdle, ht, if_pos halive]

/-- If the session on top of the idle stack is dead, it leaves the tables before the search goes on. -/
theorem popIdle_cons_of_dead {id : SessionId} {idle : List SessionId} {t : Tracked}
    {active : List (SessionId × Tracked)} (ht : active.lookup id = some t) (hdead : alive t.flag = false) :
    popIdle alive now (id :: idle) active =
      { popIdle alive now idle (without id active) with
        dead := (id, t) :: (popIdle alive now idle (without id active)).dead } := by
  simp only [popIdle, ht, hdead]
  rfl

theorem popIdle_cons_of_none {id : SessionId} {idle : List SessionId}
    {active : List (SessionId × Tracked)} (hnone : active.lookup id = none) :
    popIdle alive now (id :: idle) active = popIdle alive now idle active := by
  simp only [popIdle, hnone]

theorem lookup_of_lookup_without {id k : SessionId} {t : Tracked} {active : List (SessionId × Tracked)}
    (h : (without id active).lookup k = some t) : k ≠ id ∧ active.lookup k = some t := by
  rw [without, lookup_filter_ne] at h
  split at h
  · cases h
  · rename_i hne
    exact ⟨hne, h⟩

/-- What the search leaves tracked was tracked before, and what it leases is alive. -/
theorem lookup_of_popIdle {idle : List SessionId} {active : List (SessionId × Tracked)}
    {id : SessionId} {t : Tracked} (h : (popIdle alive now idle active).active.lookup id = some t) :
    ∃ t₀, active.lookup id = some t₀ ∧ t₀.flag = t.flag ∧
      (t.use = .leased → t₀.use = .leased ∨ alive t₀.flag = true) := by
  induction idle generalizing active with
  | nil => exact ⟨t, h, rfl, Or.inl⟩
  | cons top idle ih =>
    cases htop : active.lookup top with
    | none =>
      rw [popIdle_cons_of_none htop] at h
      exact ih h
    | some u =>
      cases halive : alive u.flag with
      | true =>
        rw [popIdle_cons_of_alive htop halive, lookup_changed, htop] at h
        split at h
        · rename_i hid
          cases h
          exact ⟨u, hid ▸ htop, rfl, fun _ => Or.inr halive⟩
        · exact ⟨t, h, rfl, Or.inl⟩
      | false =>
        rw [popIdle_cons_of_dead htop halive] at h
        obtain ⟨t₀, ht₀, hsame⟩ := ih h
        exact ⟨t₀, (lookup_of_lookup_without ht₀).2, hsame⟩

/-- The session that is leased was tracked, and is alive. -/
theorem alive_of_popIdle {idle : List SessionId} {active : List (SessionId × Tracked)}
    {id : SessionId} {t : Tracked} (h : (popIdle alive now idle active).leased = some (id, t)) :
    ∃ t₀, active.lookup id = some t₀ ∧ t₀.flag = t.flag ∧ alive t.flag = true := by
  induction idle generalizing active with
  | nil => cases h
  | cons top idle ih =>
    cases htop : active.lookup top with
    | none =>
      rw [popIdle_cons_of_none htop] at h
      exact ih h
    | some u =>
      cases halive : alive u.flag with
      | true =>
        rw [popIdle_cons_of_alive htop halive] at h
        cases h
        exact ⟨u, htop, rfl, halive⟩
      | false =>
        rw [popIdle_cons_of_dead htop halive] at h
        obtain ⟨t₀, ht₀, hsame⟩ := ih h
        exact ⟨t₀, (lookup_of_lookup_without ht₀).2, hsame⟩

end Pool

/-! ## Moves in parts -/

variable {ε α : Type}

/-- The session of the lease that a signal hands out. -/
def Signal.leased? : Signal ε α → Option SessionId
  | .acquired _ (.ok h) => some h.id
  | .operationStarted _ s => some s.id
  | _ => none

namespace Engine

/-- The sessions that have been handed out, the first one first. -/
def handedOut (e : Engine ε α) : List SessionId := e.signals.filterMap Signal.leased?

/-- Sessions are handed out in the course of the calls. -/
theorem handedOut_eq (e : Engine ε α) : e.handedOut = e.course.told.filterMap Signal.leased? :=
  filterMap_signals (fun s hs => by cases s <;> first | rfl | cases hs) e

theorem handedOut_of_course {e e' : Engine ε α} (h : e'.course = e.course) :
    e'.handedOut = e.handedOut := by
  rw [handedOut_eq, handedOut_eq, h]

/-- A session may be handed out by a move that begins in the pool `b` and in which the server names at
most the session `fresh`. -/
def MayHandOut (fresh : Option SessionId) (b : Engine ε α) (id : SessionId) : Prop :=
  fresh = some id ∨ ∃ t, b.pool.find? id = some t ∧ b.isAlive t.flag = true

/-- The pool `e` comes from the pool `b` by a part of a move in which the server names at most the
session `fresh`. -/
structure Descends (fresh : Option SessionId) (b e : Engine ε α) : Prop where
  /-- Nothing that was told is taken back. -/
  signals : b.signals ⊆ e.signals
  /-- Only sessions that are tracked and alive are handed out, and the new one. -/
  handedOut : ∃ more, e.handedOut = b.handedOut ++ more ∧ ∀ id ∈ more, b.MayHandOut fresh id
  /-- Sessions come to be tracked only if they are new, and are leased only if they are alive. -/
  tables : Pool.Descends b.isAlive fresh b.pool e.pool
  /-- The server is asked for each deletion that is started. -/
  deletions : ∀ d ∈ e.deletions, d ∈ b.deletions ∨ Signal.deleteBegun d.no d.id ∈ e.signals
  /-- No session dies. -/
  flags : e.flags = b.flags
  /-- No token is restored. -/
  cancelled : b.cancelled ⊆ e.cancelled

namespace Descends

variable {fresh : Option SessionId} {b e : Engine ε α}

protected theorem rfl : Descends fresh b b where
  signals := fun _ hs => hs
  handedOut := ⟨[], (List.append_nil _).symm, by simp⟩
  tables := Pool.Descends.rfl
  deletions := fun _ => Or.inl
  flags := rfl
  cancelled := fun _ ht => ht

theorem isAlive (h : Descends fresh b e) : e.isAlive = b.isAlive := by
  unfold Engine.isAlive
  rw [h.flags]

/-- A token that is not cancelled was not cancelled before. -/
theorem isCancelled (h : Descends fresh b e) {t : Token} (hgo : e.isCancelled t = false) :
    b.isCancelled t = false := by
  rw [← Bool.not_eq_true, Engine.isCancelled, List.contains_iff_mem] at hgo ⊢
  exact fun hin => hgo (h.cancelled hin)

/-- A session that is not tracked stays so, and is not handed out, unless it is the new one. -/
theorem of_find?_eq_none (h : Descends fresh b e) {id : SessionId} (hnone : b.pool.find? id = none)
    (hfresh : fresh ≠ some id) : e.pool.find? id = none ∧
      ∃ more, e.handedOut = b.handedOut ++ more ∧ id ∉ more := by
  constructor
  · refine Option.eq_none_iff_forall_ne_some.mpr fun t ht => ?_
    rcases h.tables id t ht with heq | ⟨t₀, ht₀, -⟩
    · exact hfresh heq
    · rw [hnone] at ht₀
      cases ht₀
  · obtain ⟨more, heq, hmore⟩ := h.handedOut
    refine ⟨more, heq, fun hid => ?_⟩
    rcases hmore id hid with heq | ⟨t, ht, -⟩
    · exact hfresh heq
    · rw [hnone] at ht
      cases ht

/-! ## Telling -/

theorem tell (h : Descends fresh b e) {s : Signal ε α} (hs : ∀ id ∈ s.leased?, b.MayHandOut fresh id) :
    Descends fresh b (e.tell s) := by
  obtain ⟨more, heq, hmore⟩ := h.handedOut
  refine { h with
    signals := List.Subset.trans h.signals (List.subset_append_left _ _)
    handedOut := ⟨more ++ s.leased?.toList, ?_, ?_⟩
    deletions := fun d hd => (h.deletions d hd).imp_right (List.mem_append_left _) }
  · rw [← List.append_assoc, ← heq]
    unfold Engine.handedOut Engine.tell
    rw [List.filterMap_append]
    cases hleased : s.leased? <;> simp [hleased]
  · intro id hid
    rcases List.mem_append.mp hid with hid | hid
    · exact hmore id hid
    · exact hs id (Option.mem_toList.mp hid)

/-- What hands out nothing may always be told. -/
theorem tellAll (h : Descends fresh b e) {told : List (Signal ε α)}
    (htold : ∀ s ∈ told, s.leased? = none) :
    Descends fresh b { e with signals := e.signals ++ told } := by
  obtain ⟨more, heq, hmore⟩ := h.handedOut
  have hnone : told.filterMap Signal.leased? = [] := List.filterMap_eq_nil_iff.mpr htold
  exact { h with
    signals := List.Subset.trans h.signals (List.subset_append_left _ _)
    handedOut := ⟨more, by
      unfold Engine.handedOut at heq ⊢
      rw [List.filterMap_append, hnone, List.append_nil, heq], hmore⟩
    deletions := fun d hd => (h.deletions d hd).imp_right (List.mem_append_left _) }

theorem report (h : Descends fresh b e) (topic : Topic) (level : Level) (message : String)
    (fields : List (String × Detail)) : Descends fresh b (e.report topic level message fields) :=
  h.tell (by simp [Signal.leased?])

theorem cancel (h : Descends fresh b e) (t : Token) : Descends fresh b (e.cancel t) := by
  unfold Engine.cancel
  split
  · exact h
  · exact { h with cancelled := fun _ ht => List.mem_cons_of_mem _ (h.cancelled ht) }

theorem observe (h : Descends fresh b e) (c : Setup) (role : Role) :
    Descends fresh b (e.observe c role) := by
  unfold Engine.observe
  rcases c.observer with _ | o
  · exact { h with }
  · cases role
    all_goals
      dsimp only
      split
      · refine Descends.cancel ?_ _
        exact { h with }
      · exact { h with }

theorem withGenerator (h : Descends fresh b e) (g : Generator) :
    Descends fresh b { e with generator := g } :=
  { h with }

theorem assess (h : Descends fresh b e) (c : Setup) (role : Role) (f : Fault) (a : Attempt) :
    Descends fresh b (e.assess c role f a).2 := by
  unfold Engine.assess
  dsimp only
  refine Descends.observe ?_ c role
  -- the assessment is only named here: what it draws at random must not be computed
  generalize Executor.assess _ f a e.generator = assessed
  have htold : Descends fresh b { e with
      signals := e.signals ++ (assessed.events.map Signal.event ++ [.record role assessed.record]) } := by
    refine h.tellAll fun s hs => ?_
    rcases List.mem_append.mp hs with hs | hs
    · obtain ⟨event, _, rfl⟩ := List.mem_map.mp hs
      rfl
    · rw [List.mem_singleton.mp hs]
      rfl
  rw [← List.append_assoc] at htold
  exact htold.withGenerator assessed.generator

/-! ## Calls -/

theorem withCalls (h : Descends fresh b e) (calls : List Call) :
    Descends fresh b { e with calls := calls } :=
  { h with }

theorem moveTo (h : Descends fresh b e) (no : TaskNo) (p : Point) : Descends fresh b (e.moveTo no p) :=
  h.withCalls _

theorem countStart (h : Descends fresh b e) (no : TaskNo) : Descends fresh b (e.countStart no) :=
  h.withCalls _

theorem endCall (h : Descends fresh b e) (no : TaskNo) : Descends fresh b (e.endCall no) :=
  h.withCalls _

theorem addCall (h : Descends fresh b e) (purpose : Purpose) (token : Token) :
    Descends fresh b (e.addCall purpose token) :=
  { h with }

/-! ## Tables and sessions that leave -/

theorem withPool (h : Descends fresh b e) {p : Pool} (hp : Pool.Descends b.isAlive fresh e.pool p) :
    Descends fresh b (e.withPool p) :=
  { h with tables := h.tables.trans hp }

theorem releasePending (h : Descends fresh b e) : Descends fresh b e.releasePending := by
  have hpool : Descends fresh b (e.withPool e.pool.releasePending) :=
    h.withPool (Pool.Descends.of_find? fun _ _ ht => ht)
  unfold Engine.releasePending
  dsimp only
  split
  · exact hpool.withCalls _
  · exact hpool

theorem stopMonitor (h : Descends fresh b e) (flag : FlagNo) : Descends fresh b (e.stopMonitor flag) :=
  { h with }

theorem startDeletion (h : Descends fresh b e) (c : Setup) (id : SessionId) (closer : Option TaskNo) :
    Descends fresh b (e.startDeletion c id closer) := by
  have htold := h.tell (s := .deleteBegun e.nextNo id) (by simp [Signal.leased?])
  refine { htold with deletions := fun d hd => ?_ }
  rcases List.mem_append.mp hd with hd | hd
  · exact htold.deletions d hd
  · rw [List.mem_singleton.mp hd]
    exact Or.inr (List.mem_append_right _ (List.mem_singleton_self _))

theorem deleteInBackground (h : Descends fresh b e) (c : Setup) (id : SessionId) :
    Descends fresh b (e.deleteInBackground c id) := by
  unfold Engine.deleteInBackground
  split
  · exact h.startDeletion c id none
  · exact h.report _ _ _ _

theorem retire (h : Descends fresh b e) (c : Setup) (id : SessionId) (t : Tracked) (reason : String) :
    Descends fresh b (e.retire c id t reason) :=
  ((h.stopMonitor t.flag).report _ _ _ _).deleteInBackground c id

theorem retireAll (c : Setup) (reason : String) (gone : List (SessionId × Tracked)) {e : Engine ε α}
    (h : Descends fresh b e) : Descends fresh b (e.retireAll c reason gone) := by
  induction gone generalizing e with
  | nil => exact h
  | cons x gone ih =>
    rw [retireAll_cons]
    exact ih (h.retire c x.1 x.2 reason)

theorem dismissAll (c : Setup) (no : TaskNo) (gone : List (SessionId × Tracked)) {e : Engine ε α}
    (h : Descends fresh b e) : Descends fresh b (e.dismissAll c no gone) := by
  induction gone generalizing e with
  | nil => exact h
  | cons x gone ih =>
    rw [dismissAll_cons]
    exact ih ((h.stopMonitor x.2.flag).startDeletion c x.1 (some no))

theorem invalidate (h : Descends fresh b e) (c : Setup) (id : SessionId) :
    Descends fresh b (e.invalidate c id) := by
  cases ht : e.pool.find? id with
  | none => rwa [invalidate_of_none ht]
  | some t =>
    rw [invalidate_of_find? ht]
    exact (h.withPool (Pool.Descends.discard e.pool id)).retire c id t _

theorem loseLease (h : Descends fresh b e) (c : Setup) (id : SessionId) :
    Descends fresh b (e.loseLease c id) :=
  (h.report _ _ _ _).invalidate c id

theorem giveBack (h : Descends fresh b e) (c : Setup) (id : SessionId) :
    Descends fresh b (e.giveBack c id) := by
  have hpool : Descends fresh b (e.withPool (e.pool.release id e.isAlive e.now).2) :=
    h.withPool (h.isAlive ▸ Pool.Descends.release e.pool id e.now)
  unfold Engine.giveBack
  split
  · rename_i t pool heq
    rw [heq] at hpool
    exact hpool.retire c id t _
  · rename_i pool heq
    rw [heq] at hpool
    exact hpool

/-! ## Calls that go on -/

theorem lease (h : Descends fresh b e) (no : TaskNo) (client : Client) {k : Handle}
    (hk : b.MayHandOut fresh k.id) : Descends fresh b (e.lease no client k) := by
  cases client with
  | caller =>
    refine Descends.tell (e := { e.endCall no with held := e.held ++ [k] }) ?_ ?_
    · exact { h.endCall no with }
    · intro id hid
      cases hid
      exact hk
  | attempt a =>
    refine ((h.countStart no).moveTo no _).tell fun id hid => ?_
    cases hid
    exact hk

/-- What is found on the idle stack was tracked, and is alive. -/
theorem mayHandOut_search (h : Descends fresh b e) {id : SessionId} {t : Tracked}
    (hleased : e.search.leased = some (id, t)) : b.MayHandOut fresh id := by
  obtain ⟨t₀, ht₀, hflag, halive⟩ := Pool.alive_of_popIdle hleased
  rcases h.tables id t₀ ht₀ with hfresh | ⟨t₁, ht₁, hflag₁, -⟩
  · exact Or.inl hfresh
  · rw [h.isAlive, ← hflag, ← hflag₁] at halive
    exact Or.inr ⟨t₁, ht₁, halive⟩

theorem searched (h : Descends fresh b e) (c : Setup) : Descends fresh b (e.searched c) := by
  have hpopped : Pool.Descends b.isAlive fresh e.pool (e.search.tables e.pool) :=
    fun _ _ ht => Or.inr (h.isAlive ▸ Pool.lookup_of_popIdle ht)
  exact { retireAll c "died while idle" e.search.dead h with tables := h.tables.trans hpopped }

theorem reserved (h : Descends fresh b e) : Descends fresh b e.reserved :=
  h.withPool (Pool.Descends.of_find? fun _ _ ht => ht)

theorem finish (h : Descends fresh b e) (no : TaskNo) (result : Except ε α) :
    Descends fresh b (e.finish no result) :=
  (h.endCall no).tell (by simp [Signal.leased?])

theorem beginClose (h : Descends fresh b e) (c : Setup) (no : TaskNo) :
    Descends fresh b (e.beginClose c no) := by
  rw [beginClose_eq]
  have hsaid : Descends fresh b e.announceClosing := by
    unfold announceClosing
    split
    · exact h
    · exact h.report _ _ _ _
  refine Descends.moveTo ?_ no _
  exact { dismissAll c no e.pool.active hsaid with tables := fun id t ht => by cases ht }

theorem settle (h : Descends fresh b e) (no : TaskNo) : Descends fresh b (e.settle no) := by
  unfold Engine.settle
  split
  · exact h.moveTo no _
  · split
    · exact h.moveTo no _
    · exact (h.endCall no).tell (by simp [Signal.leased?])

variable [PooledError ε]

theorem reject (h : Descends fresh b e) (no : TaskNo) (client : Client) (p : PoolError) :
    Descends fresh b (e.reject no client p) := by
  cases client with
  | caller => exact (h.endCall no).tell (by simp [Signal.leased?])
  | attempt a => exact h.finish no _

theorem followCreation (h : Descends fresh b e) (c : Setup) (no : TaskNo) (client : Client)
    (next : Loop.Next RpcError) : Descends fresh b (e.followCreation c no client next) := by
  cases next with
  | attempt a => exact (h.moveTo no _).tell (by simp [Signal.leased?])
  | pause a wake => exact h.moveTo no _
  | fail error =>
    have htold : ∀ events : List Event,
        ∀ s ∈ events.map (Signal.event (ε := ε) (α := α)), s.leased? = none := by
      intro events s hs
      obtain ⟨event, _, rfl⟩ := List.mem_map.mp hs
      rfl
    cases error with
    | cancelled => exact h.releasePending.reject no client _
    | transport code message =>
      exact ((h.tellAll (htold _)).report _ _ _ _).releasePending.reject no client _
    | status code message =>
      exact ((h.tellAll (htold _)).report _ _ _ _).releasePending.reject no client _

theorem acquireFor (h : Descends fresh b e) (c : Setup) (no : TaskNo) (token : Token)
    (client : Client) : Descends fresh b (e.acquireFor c no token client) := by
  by_cases hclosed : e.pool.closed = true
  · rw [acquireFor_closed hclosed]
    exact h.reject no client _
  · rw [acquireFor_open (by simpa using hclosed)]
    split
    · rename_i id t hleased
      exact (h.searched c).lease no client (h.mayHandOut_search hleased)
    · split
      · exact (h.searched c).reserved.followCreation c no client _
      · exact (h.searched c).reject no client _

/-- Only the session that the server has named is registered. -/
theorem register (s : SessionInfo) {e : Engine ε α} (h : Descends (some s.id) b e) (c : Setup)
    (no : TaskNo) (client : Client) : Descends (some s.id) b (e.register c no client s) := by
  have hnext : Descends (some s.id) b { e with nextNo := e.nextNo + 1 } := { h with }
  unfold Engine.register
  dsimp only
  split
  · exact (hnext.deleteInBackground c s.id).releasePending.reject no client _
  · have hreleased := hnext.releasePending
    have htables : Pool.Descends b.isAlive (some s.id) _ _ := Pool.Descends.register
      (({ e with nextNo := e.nextNo + 1 } : Engine ε α).releasePending).pool s e.nextNo
      (({ e with nextNo := e.nextNo + 1 } : Engine ε α).releasePending).now
    refine (Descends.report ?_ _ _ _ _).lease no client (Or.inl rfl)
    exact { hreleased with tables := hreleased.tables.trans htables }

theorem follow (h : Descends fresh b e) (c : Setup) (no : TaskNo) (token : Token) (next : Loop.Next ε) :
    Descends fresh b (e.follow c no token next) := by
  cases next with
  | attempt a => exact h.acquireFor c no token _
  | pause a wake => exact h.moveTo no _
  | fail error => exact h.finish no _

theorem created {result : Except RpcError SessionInfo} {no : TaskNo}
    (h : Descends (Move.created no result : Move ε α).named? b e) (c : Setup) (call : Call)
    (client : Client) (a : Attempt) :
    Descends (Move.created no result : Move ε α).named? b (e.created c call client a result) := by
  cases result with
  | ok s => exact register s h c call.no client
  | error error => exact (h.assess c _ _ _).followCreation c call.no client _

theorem operated (h : Descends fresh b e) (c : Setup) (call : Call) (a : Attempt) (k : Handle)
    (result : Except ε α) : Descends fresh b (e.operated c call a k result) := by
  cases result with
  | ok v => exact (h.giveBack c k.id).finish call.no _
  | error error =>
    have hassessed := h.assess c .operation (CallError.toFault error) a
    refine Descends.follow ?_ c call.no call.token _
    dsimp only
    split
    · exact hassessed.invalidate c k.id
    · exact hassessed.giveBack c k.id

/-! ## Monitors, deletions and leases -/

omit [PooledError ε] in
theorem dropDeletions (h : Descends fresh b e) (goes : Deletion → Bool) :
    Descends fresh b { e with deletions := e.deletions.filter goes } :=
  { h with deletions := fun d hd => h.deletions d (List.mem_of_mem_filter hd) }

omit [PooledError ε] in
theorem part (h : Descends fresh b e) (flag : FlagNo) : Descends fresh b (e.part flag) :=
  { h with }

omit [PooledError ε] in
theorem abandon (h : Descends fresh b e) (c : Setup) (call : Call) :
    Descends fresh b (e.abandon c call) := by
  have hended := h.endCall call.no
  unfold Engine.abandon
  split
  · exact (hended.tell (by simp [Signal.leased?])).releasePending
  · exact hended.releasePending
  · exact hended.loseLease c _
  · exact hended.dropDeletions _
  · exact hended

omit [PooledError ε] in
/-- A monitor that finds its session dead ends; only the flag has changed before. -/
theorem condemn (e : Engine ε α) (m : Monitor) (reason : String) :
    Descends fresh { e with flags := (e.flags.markDead m.no).2 } (e.condemn m reason) := by
  have hstopped : Descends fresh _ (({ e with flags := (e.flags.markDead m.no).2 } : Engine ε α).stopMonitor
      m.no) := Descends.rfl.stopMonitor m.no
  unfold Engine.condemn
  dsimp only
  split
  · exact hstopped.report _ _ _ _
  · exact hstopped

end Descends

/-! ## Moves -/

variable {c : Setup} {e e' : Engine ε α}

/-- What a move leads to, seen with the flags as the move leaves them. -/
structure LeadsTo (m : Move ε α) (e e' : Engine ε α) : Prop where
  /-- Sessions are handed out and come to be tracked as they may. -/
  descends : Descends m.named? { e with flags := e'.flags } e'
  /-- A session that is dead stays dead. -/
  alive : ∀ n, e'.isAlive n = true → e.isAlive n = true

theorem Descends.leadsTo {m : Move ε α} (h : Descends m.named? e e') : LeadsTo m e e' where
  descends := by
    rw [h.flags]
    exact h
  alive := fun n halive => h.isAlive ▸ halive

theorem leadsTo_condemn {m : Move ε α} (e : Engine ε α) (k : Monitor) (reason : String) :
    LeadsTo m e (e.condemn k reason) := by
  have hdescends : Descends m.named? _ _ := Descends.condemn e k reason
  refine ⟨?_, fun n halive => ?_⟩
  · rw [hdescends.flags]
    exact hdescends
  · rw [hdescends.isAlive] at halive
    have hmarked := e.flags.isAlive_markDead k.no n
    rw [show (e.flags.markDead k.no).2.isAlive n = true from halive, eq_comm, Bool.and_eq_true] at hmarked
    exact hmarked.1

variable [PooledError ε]

/-- Every move hands out sessions as it may. -/
theorem leadsTo_of_step {m : Move ε α} (hstep : e.step c m = some e') : LeadsTo m e e' := by
  -- only what a monitor finds out marks a flag; every other move leaves the flags alone
  have hrefl : Descends m.named? e e := Descends.rfl
  cases makes_of_step hstep with
  | call purpose token => exact (hrefl.addCall purpose token).leadsTo
  | start call purpose hcall hpoint =>
    cases purpose with
    | lease => exact (hrefl.acquireFor c call.no call.token _).leadsTo
    | operation idempotent => exact (hrefl.follow c call.no call.token _).leadsTo
    | closing => exact (hrefl.beginClose c call.no).leadsTo
  | abandon call hcall => exact (hrefl.abandon c call).leadsTo
  | created call client a since result => exact (hrefl.created c call client a).leadsTo
  | createExpired call client a since =>
    have htold : Descends (Move.created call.no (.error creationTimeout) : Move ε α).named? e _ :=
      hrefl.tell (s := .createAbandoned call.no) (by simp [Signal.leased?])
    have hcreated := htold.created c call client a
    exact Descends.leadsTo (m := .createExpired call.no) hcreated
  | operated call a k since cancels result =>
    refine (Descends.operated ?_ c call a k result).leadsTo
    split
    · exact hrefl.cancel _
    · exact hrefl
  | createWoken call client a wake => exact (hrefl.followCreation c call.no client _).leadsTo
  | woken call a wake => exact (hrefl.follow c call.no call.token _).leadsTo
  | creationNoticed call client a since =>
    have htold := hrefl.tell (s := .createAbandoned call.no) (by simp [Signal.leased?])
    exact (htold.followCreation c call.no client _).leadsTo
  | createPauseNoticed call client a wake => exact (hrefl.followCreation c call.no client _).leadsTo
  | operationNoticed call a k since => exact ((hrefl.invalidate c k.id).finish call.no _).leadsTo
  | pauseNoticed call a wake => exact (hrefl.finish call.no _).leadsTo
  | proceed call => exact (hrefl.settle call.no).leadsTo
  | attached k result =>
    cases result with
    | ok stream => exact Descends.leadsTo { hrefl with }
    | error error => exact leadsTo_condemn e k _
  | heard k message =>
    rcases message with error | status
    · exact leadsTo_condemn e k _
    · cases status with
      | ready => exact hrefl.leadsTo
      | unusable code => exact leadsTo_condemn e k _
  | streamEnded k => exact leadsTo_condemn e k _
  | deleted d result =>
    have hended : Descends _ e (e.endDeletion d.no) := hrefl.dropDeletions _
    cases result with
    | ok _ => exact (hended.report _ _ _ _).leadsTo
    | error _ => exact (hended.report _ _ _ _).leadsTo
  | deletionExpired d =>
    have hended : Descends _ e (e.endDeletion d.no) := hrefl.dropDeletions _
    exact (hended.report _ _ _ _).leadsTo
  | release k => exact ((hrefl.part _).giveBack c k.id).leadsTo
  | invalidate k => exact ((hrefl.part _).invalidate c k.id).leadsTo
  | drop k => exact ((hrefl.part _).loseLease c k.id).leadsTo
  | invalidateId id => exact (hrefl.invalidate c id).leadsTo
  | cancel token => exact (hrefl.cancel token).leadsTo
  | advance millis => exact Descends.leadsTo { hrefl with }

end Engine

end PooledSessions
