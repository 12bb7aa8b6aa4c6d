import PooledSessions.Proofs.Simulation.Turns
/-!
# The custody of sessions

A pool and the simulated cluster that it uses go through a run of happenings: tasks of the pool are given
turns, callers act, the clock goes on, and somebody steps in at the server.  Each of these happens where new
work can be started in the background, or where it cannot.  As long as only the pool creates and deletes
sessions, each session that it tracks or deletes is on the server, and no session is in two of these places
(`World.Custody`).

Where deletions can be started, nothing else is on the server (`World.Whole`): each session is tracked, or it
is being deleted by exactly one deletion.  Elsewhere a session that leaves the pool is left behind.

The cluster answers a deletion as soon as it is asked.  So a closing asks for its own deletions and has
their answers without waiting in between, and nothing else moves meanwhile (`World.happen`).
-/

namespace PooledSessions

/-! ## Happenings -/

/-- Whether a move is made by somebody outside: by a caller, by an operation or by the clock. -/
def Move.isOutside {ε α : Type} : Move ε α → Bool
  | .call _ _ => true
  | .abandon _ => true
  | .operated _ _ _ => true
  | .release _ => true
  | .invalidate _ => true
  | .drop _ => true
  | .invalidateId _ => true
  | .cancel _ => true
  | .advance _ => true
  | _ => false

/-- Something that happens to a pool over a simulated cluster. -/
inductive Happening
  /-- A task of the pool is given a turn. -/
  | turn (no : TaskNo)
  /-- Somebody outside acts. -/
  | act (m : Move DriverError Int)
  /-- A step is taken at the server. -/
  | server (step : ServerStep)
  /-- Somebody runs an operation on a session of the server. -/
  | operate (id : SessionId)
  /-- Somebody attaches to a session of the server. -/
  | attach (id : SessionId)

namespace World

/-- The closings that have asked for deletions of their own and have not had all answers. -/
def awaited (w : World) : List TaskNo := w.engine.deletions.filterMap (·.closer)

/-- What a happening leads to, if it is possible. -/
def happen (w : World) : Happening → Option World
  | .turn no => if ∀ k ∈ w.awaited, k = no then w.turn no else none
  | .act m => if m.isOutside = true ∧ w.awaited = [] then w.move m else none
  | .server step =>
    if step.sparesDeletions then some { w with server := (w.server.take step).2 } else none
  | .operate id =>
    some { w with server := { w.server with cluster := (w.server.cluster.operate id).2 } }
  | .attach id => some { w with server := (w.server.attach id).2 }

/-- A world in a place where new work can be started in the background, or cannot. -/
def placed (w : World) (place : Bool) : World :=
  { w with engine := { w.engine with background := place } }

/-- What a happening leads to in its place, if it is possible. -/
def happenAt (w : World) (x : Bool × Happening) : Option World := (w.placed x.1).happen x.2

/-- What happenings lead to, one after another, if each of them is possible in its place. -/
def run (w : World) : List (Bool × Happening) → Option World
  | [] => some w
  | x :: xs => (w.happenAt x).bind fun w => w.run xs

/-- The deletion that ends in a happening, with the answer; `none` if its time limit passes. -/
def answer? (w : World) : Happening → Option (SessionId × Option (Except RpcError Unit))
  | .turn no => (w.ending? no).map fun d => (d.id, w.verdict d)
  | _ => none

/-- The deletions that end in a run, with the answers. -/
def answers (w : World) : List (Bool × Happening) → List (SessionId × Option (Except RpcError Unit))
  | [] => []
  | x :: xs =>
    match w.happenAt x with
    | some w' => ((w.placed x.1).answer? x.2).toList ++ answers w' xs
    | none => []

/-- A new pool over a cluster without sessions, whose calls execute the given deeds. -/
def begin (setup : Setup) (latency : Span) (g g' : Generator) (deeds : TaskNo → Nat → Deed) : World :=
  { fresh setup (.ofCluster (.fresh g) latency) g' with deeds := deeds }

/-! ## What is kept -/

/-- What the pool tracks and deletes is on the server, and the deletions `past` have ended. -/
structure Custody (w : World) (past : List (SessionId × Option (Except RpcError Unit))) : Prop where
  /-- Nothing moves in the pool, and the cluster has named its sessions. -/
  atRest : w.engine.ledger.AtRest w.setup.limit (Cluster.namesUpTo w.server.cluster.created) none
  /-- What the pool tracks or deletes is on the server, and no session is both or twice the same. -/
  subperm : w.engine.ledger.sessions.Subperm w.server.cluster.names
  /-- The cluster has deleted each session once. -/
  balanced : w.server.cluster.Balanced past
  /-- Closings wait for the deletions of their own. -/
  owned : w.engine.Owned
  /-- No fault is set for deletions. -/
  spares : w.server.deleteFailures = [] ∧ w.server.deleteDelays = []
  /-- The pool has told everything. -/
  signals : w.engine.signals = []
  /-- Everybody waits for the end of his call. -/
  detached : w.detached = []
  /-- The deletions under way have been started. -/
  begun : ∀ d ∈ w.engine.deletions, d.since ≤ w.now
  /-- The server has begun the deletions as the pool asked, and answers them as soon as it is asked. -/
  removals : ∀ r ∈ w.removals, r.1 < w.engine.nextNo ∧ r.2.failure = none ∧ r.2.due ≤ w.now ∧
    ∀ d ∈ w.engine.deletions, d.no = r.1 → d.id = r.2.id
  /-- When a closing has ended, nothing is left in the pool. -/
  emptied : w.closings ≠ [] →
    w.engine.pool.closed = true ∧ w.engine.pool.pending = 0 ∧ w.engine.deletions = []

/-- No session has been left behind on the server, and deletions can be started. -/
structure Whole (w : World) : Prop where
  /-- Deletions can be started. -/
  place : w.engine.background = true
  /-- Each session of the server is tracked, or it is being deleted. -/
  perm : w.engine.ledger.sessions.Perm w.server.cluster.names

/-- A server without faults for deletions answers them at once. -/
theorem beginDelete_eq {s : Server} (hspares : s.deleteFailures = [] ∧ s.deleteDelays = [])
    (id : SessionId) (now : Nat) : s.beginDelete id now = ⟨id, now, none⟩ := by
  unfold Server.beginDelete
  rw [hspares.1, hspares.2]
  simp [boundedWait]

theorem custody_begin (setup : Setup) (latency : Span) (g g' : Generator)
    (deeds : TaskNo → Nat → Deed) : (begin setup latency g g' deeds).Custody [] where
  atRest := Engine.atRest_fresh setup.limit g'
  subperm := .refl []
  balanced := Cluster.balanced_fresh g
  owned := fun d hd => by cases hd
  spares := ⟨rfl, rfl⟩
  signals := rfl
  detached := rfl
  begun := fun d hd => by cases hd
  removals := fun r hr => by cases hr
  emptied := fun hne => absurd rfl hne

theorem whole_begin (setup : Setup) (latency : Span) (g g' : Generator) (deeds : TaskNo → Nat → Deed) :
    (begin setup latency g g' deeds).Whole :=
  ⟨rfl, .refl []⟩

/-- The server `server` has done what the move `m` of the pool says, and the deletions `past` have ended
then. -/
structure Heeds (w : World) (m : Move DriverError Int) (server : Server)
    (past : List (SessionId × Option (Except RpcError Unit))) : Prop where
  /-- No fault is set for deletions. -/
  spares : server.deleteFailures = [] ∧ server.deleteDelays = []
  /-- The cluster has deleted each session once. -/
  balanced : server.cluster.Balanced past
  /-- A session that is named is new. -/
  new : ∀ id ∈ m.named?, id ∉ Cluster.namesUpTo w.server.cluster.created
  /-- The cluster has named it. -/
  known : m.named?.toList ++ Cluster.namesUpTo w.server.cluster.created =
    Cluster.namesUpTo server.cluster.created
  /-- It has come to the cluster, and the sessions of the deletions that end have left. -/
  kept : w.engine.keptAfter m w.server.cluster.names = server.cluster.names
  /-- A closing goes on only while no other one waits for deletions of its own. -/
  guard : ∀ no, m = .proceed no → ∀ k ∈ w.awaited, k = no

variable {w w' : World} {past past' : List (SessionId × Option (Except RpcError Unit))}

theorem Whole.withServer (hwhole : w.Whole) {server : Server} (hsteady : w.server.Steady server) :
    ({ w with server := server } : World).Whole :=
  { hwhole with perm := hwhole.perm.trans (.of_eq hsteady.cluster.names.symm) }

namespace Custody

theorem calls_nodup (h : w.Custody past) : (w.engine.calls.map (·.no)).Nodup :=
  Ledger.Sound.calls_nodup h.atRest

theorem monitors_nodup (h : w.Custody past) : (w.engine.monitors.map (·.no)).Nodup :=
  (List.nodup_append.mp (List.nodup_append.mp h.atRest.numbers_nodup).2.1).1

theorem monitor? (h : w.Custody past) {k : Monitor} (hk : k ∈ w.engine.monitors) :
    w.engine.monitor? k.no = some k := Engine.monitor?_of_mem h.monitors_nodup hk

theorem monitor_eq (h : w.Custody past) {j k : Monitor} (hj : j ∈ w.engine.monitors)
    (hk : k ∈ w.engine.monitors) (hno : j.no = k.no) : j = k :=
  List.inj_on_of_nodup_map h.monitors_nodup hj hk hno

/-- No call has the number of a task in the background. -/
theorem call?_eq_none (h : w.Custody past) {no : TaskNo}
    (hno : no ∈ w.engine.monitors.map (·.no) ++ w.engine.deletions.map (·.no)) : w.engine.call? no = none := by
  obtain ⟨-, -, hdisjoint⟩ := List.nodup_append.mp h.atRest.numbers_nodup
  refine List.find?_eq_none.mpr fun call hcall hsame => ?_
  exact hdisjoint call.no (List.mem_map_of_mem hcall) no hno (by simpa using hsame)

/-- No monitor has the number of a deletion. -/
theorem monitor?_eq_none (h : w.Custody past) {d : Deletion} (hd : d ∈ w.engine.deletions) :
    w.engine.monitor? d.no = none := by
  obtain ⟨-, -, hdisjoint⟩ := List.nodup_append.mp (List.nodup_append.mp h.atRest.numbers_nodup).2.1
  refine List.find?_eq_none.mpr fun k hk hsame => ?_
  exact hdisjoint k.no (List.mem_map_of_mem hk) d.no (List.mem_map_of_mem hd) (by simpa using hsame)

theorem names_nodup (h : w.Custody past) : w.server.cluster.names.Nodup :=
  (List.nodup_append.mp h.balanced.nodup).2.1

theorem sessions_nodup (h : w.Custody past) : w.engine.ledger.sessions.Nodup := by
  obtain ⟨ids, hperm, hsub⟩ := h.subperm
  exact hperm.nodup_iff.mp (h.names_nodup.sublist hsub)

theorem deletion_exists (h : w.Custody past) {d : Deletion} (hd : d ∈ w.engine.deletions) :
    d.id ∈ w.server.cluster.names :=
  h.subperm.subset (List.mem_append_right _ (List.mem_map_of_mem hd))

theorem deletions_nodup (h : w.Custody past) : (w.engine.deletions.map (·.no)).Nodup :=
  Ledger.Sound.deletions_nodup h.atRest

/-- The server answers a deletion as soon as it is asked. -/
theorem removal_eq (h : w.Custody past) {d : Deletion} (hd : d ∈ w.engine.deletions) :
    ∃ due ≤ w.now, w.removal d = ⟨d.id, due, none⟩ := by
  cases hr : w.removals.lookup d.no with
  | none =>
    refine ⟨d.since, h.begun d hd, ?_⟩
    rw [removal, hr, Option.getD_none, beginDelete_eq h.spares]
  | some r =>
    obtain ⟨-, hfailure, hdue, hid⟩ := h.removals (d.no, r) (Pool.mem_of_lookup hr)
    obtain ⟨id, due, failure⟩ := r
    refine ⟨due, hdue, ?_⟩
    rw [removal, hr, Option.getD_some, hid d hd rfl, show failure = none from hfailure]

/-- Where things happen next does not matter for what is kept. -/
theorem placed (h : w.Custody past) (place : Bool) : (w.placed place).Custody past :=
  { h with atRest := Ledger.Sound.withBackground h.atRest place }

/-- A steady server leaves the sessions in custody. -/
theorem withServer (h : w.Custody past) {server : Server} (hsteady : w.server.Steady server) :
    ({ w with server := server } : World).Custody past :=
  { h with
    atRest := by
      show w.engine.ledger.AtRest w.setup.limit (Cluster.namesUpTo server.cluster.created) none
      rw [hsteady.cluster.created]
      exact h.atRest
    subperm := h.subperm.trans (List.Perm.of_eq hsteady.cluster.names.symm).subperm
    balanced := h.balanced.of_steady hsteady.cluster
    spares := ⟨hsteady.deleteFailures.trans h.spares.1, hsteady.deleteDelays.trans h.spares.2⟩ }

/-! ## Moves -/

/-- Without creations in flight the server names no session. -/
theorem named?_eq_none (h : w.Custody past) {m : Move DriverError Int} {e : Engine DriverError Int}
    (hstep : w.engine.step w.setup m = some e) (hpending : w.engine.pool.pending = 0) :
    m.named? = none := by
  have hnobody : ∀ call ∈ w.engine.calls, call.point.creates = false := by
    intro call hcall
    have hcount := h.atRest.pending
    rw [show w.engine.ledger.pool.pending = 0 from hpending] at hcount
    simpa using List.countP_eq_zero.mp hcount.symm call hcall
  cases Engine.makes_of_step hstep with
  | created call client a since result hcall hpoint =>
    have hnot := hnobody call (Engine.mem_of_call? hcall).1
    rw [hpoint] at hnot
    cases hnot
  | _ => rfl

/-- A closing ends only when no creation and no deletion is in flight. -/
theorem empty_of_ended (h : w.Custody past) {m : Move DriverError Int} {e : Engine DriverError Int}
    (hstep : w.engine.step w.setup m = some e)
    (hguard : ∀ no, m = .proceed no → ∀ k ∈ w.awaited, k = no) {no : TaskNo}
    (hended : Signal.closed no ∈ e.signals) :
    w.engine.pool.closed = true ∧ w.engine.pool.pending = 0 ∧ w.engine.deletions = [] := by
  rcases Engine.ended_of_step h.calls_nodup h.owned hstep h.signals with
    hnone | ⟨call, hcall, rfl, hcloses, hpending, hothers⟩
  · exact absurd hended (hnone no)
  · refine ⟨Ledger.Sound.closed h.atRest call hcall hcloses, hpending, ?_⟩
    -- a deletion of another closing would keep this one from having its turn
    refine List.eq_nil_iff_forall_not_mem.mpr fun d hd => ?_
    obtain ⟨k, hk, hne⟩ := hothers d hd
    exact hne (hguard call.no rfl k (List.mem_filterMap.mpr ⟨d, hd, hk⟩))

/-- A closing has ended by the end of a move only when no creation and no deletion was in flight before
it. -/
theorem empty_of_closings_hearAll (h : w.Custody past) {server : Server} {m : Move DriverError Int}
    {e : Engine DriverError Int} (hstep : w.engine.step w.setup m = some e)
    (hguard : ∀ no, m = .proceed no → ∀ k ∈ w.awaited, k = no)
    (hne : (({ w with server := server } : World).hearAll e).closings ≠ []) :
    w.engine.pool.closed = true ∧ w.engine.pool.pending = 0 ∧ w.engine.deletions = [] := by
  by_cases hbefore : w.closings = []
  · rw [(heard_hearAll _ e).closings, show ({ w with server := server } : World).closings = []
      from hbefore, List.nil_append] at hne
    obtain ⟨no, hno⟩ := List.exists_mem_of_ne_nil _ hne
    obtain ⟨s, hs, hsome⟩ := List.mem_filterMap.mp hno
    cases s with
    | closed k => exact h.empty_of_ended hstep hguard hs
    | _ => cases hsome
  · exact h.emptied hbefore

/-- After a move the server has begun the deletions as the pool asked. -/
theorem removals_of_step (h : w.Custody past) {server : Server} {m : Move DriverError Int}
    {e : Engine DriverError Int} (hstep : w.engine.step w.setup m = some e)
    (hspares : server.deleteFailures = [] ∧ server.deleteDelays = [])
    (hlt : ∀ d ∈ e.deletions, d.no < e.nextNo) (hnd : (e.deletions.map (·.no)).Nodup)
    {r : TaskNo × Removal} (hr : r ∈ (({ w with server := server } : World).hearAll e).removals) :
    r.1 < e.nextNo ∧ r.2.failure = none ∧ r.2.due ≤ e.now ∧
      ∀ d ∈ e.deletions, d.no = r.1 → d.id = r.2.id := by
  obtain ⟨hnextNo, hlater⟩ := Engine.le_of_step hstep
  rcases removals_hearAll hr with hin | ⟨no, id, server', hbegun, hsteady, rfl⟩
  · -- a deletion that was begun before has a number that no new one gets
    obtain ⟨hno, hfailure, hdue, hid⟩ := h.removals r hin
    refine ⟨Nat.lt_of_lt_of_le hno hnextNo, hfailure, hdue.trans hlater, fun d hd hsame => ?_⟩
    rcases Engine.deletions_of_step hstep hd with hold | ⟨hle, -, -⟩
    · exact hid d hold hsame
    · exact absurd (hsame ▸ hle) (Nat.not_le_of_lt hno)
  · -- a deletion that begins in this move is answered from now on
    obtain ⟨d, hd, rfl, rfl⟩ := Engine.deletion_of_begun hstep h.signals hbegun
    rw [beginDelete_eq ⟨hsteady.deleteFailures.trans hspares.1,
      hsteady.deleteDelays.trans hspares.2⟩]
    refine ⟨hlt d hd, rfl, Nat.le_refl _, fun k hk hsame => ?_⟩
    rw [List.inj_on_of_nodup_map hnd hk hd hsame]

/-- After a move the pool answers for the sessions that it answered for before, but for those whose deletions
end, and for the one that was named. -/
theorem atRest_of_heeds (h : w.Custody past) {m : Move DriverError Int} {server : Server}
    {e : Engine DriverError Int} (hheeds : w.Heeds m server past')
    (hstep : w.engine.step w.setup m = some e) :
    e.ledger.AtRest w.setup.limit (Cluster.namesUpTo server.cluster.created)
      (some (w.engine.keptAfter m w.engine.ledger.sessions)) := by
  have hnow : w.engine.ledger.AtRest w.setup.limit (Cluster.namesUpTo w.server.cluster.created)
      (some w.engine.ledger.sessions) := by
    refine Ledger.Sound.account h.atRest fun ids hids => ?_
    cases hids
    exact .rfl h.sessions_nodup (List.Subset.trans h.subperm.subset h.balanced.names_known)
  have hrest := Engine.atRest_step hnow hstep hheeds.new
  rwa [hheeds.known] at hrest

/-- A pool that is closed and empty stays so: no creation is in flight that could bring it a session. -/
theorem emptied_of_heeds (h : w.Custody past) {m : Move DriverError Int} {server : Server}
    {e : Engine DriverError Int} (hheeds : w.Heeds m server past')
    (hstep : w.engine.step w.setup m = some e)
    (hempty : w.engine.pool.closed = true ∧ w.engine.pool.pending = 0 ∧ w.engine.deletions = []) :
    e.pool.closed = true ∧ e.pool.pending = 0 ∧ e.deletions = [] := by
  obtain ⟨hclosed, hpending, hdeletions⟩ := hempty
  have hstays := Engine.closed_of_step hclosed hstep
  have hnothing : w.engine.ledger.sessions = [] := by
    have hactive : w.engine.ledger.pool.active = [] := (h.atRest.tables.shut hclosed).2
    have hids : w.engine.ledger.deletions = [] := hdeletions
    rw [Ledger.sessions, Pool.names, hactive, hids]
    rfl
  have hsub := ((h.atRest_of_heeds hheeds hstep).accounts _ rfl).subperm
  rw [hnothing, Engine.keptAfter, h.named?_eq_none hstep hpending] at hsub
  refine ⟨hstays.1, Nat.le_zero.mp (hpending ▸ hstays.2), ?_⟩
  exact List.map_eq_nil_iff.mp (List.append_eq_nil_iff.mp (List.subperm_nil.mp hsub)).2

/-- A move keeps the sessions in custody, if the server has done what the move says. -/
theorem of_heeds (h : w.Custody past) {m : Move DriverError Int} {server : Server}
    (hheeds : w.Heeds m server past') (hmove : ({ w with server := server } : World).move m = some w') :
    w'.Custody past' := by
  obtain ⟨e, hstep, rfl⟩ := exists_of_move (w := { w with server := server }) h.detached hmove
  let w₀ : World := { w with server := server }
  show (w₀.hearAll e).Custody past'
  have hheard := heard_hearAll w₀ e
  have hnow : (w₀.hearAll e).now = e.now := hheard.now
  -- what the engine keeps by itself is carried over to the server that has done what the move says
  have hrest := h.atRest_of_heeds hheeds hstep
  have haccounts := hrest.accounts _ rfl
  refine
    { atRest := ?_
      subperm := ?_
      balanced := hheeds.balanced.of_steady hheard.server.cluster
      owned := ?_
      spares := ⟨hheard.server.deleteFailures.trans hheeds.spares.1,
        hheard.server.deleteDelays.trans hheeds.spares.2⟩
      signals := hheard.signals
      detached := hheard.detached.trans h.detached
      begun := ?_
      removals := ?_
      emptied := ?_ }
  · rw [hheard.setup, ledger_hearAll, hheard.server.cluster.created]
    exact Ledger.Sound.account hrest (by simp)
  · rw [ledger_hearAll, hheard.server.cluster.names]
    show e.ledger.sessions.Subperm server.cluster.names
    rw [← hheeds.kept]
    exact haccounts.subperm.trans (Engine.keptAfter_subperm h.subperm m)
  · rw [Engine.Owned, deletions_hearAll, calls_hearAll]
    exact Engine.owned_of_step h.owned h.calls_nodup hstep
  · intro d hd
    rw [deletions_hearAll] at hd
    rw [hnow]
    rcases Engine.deletions_of_step hstep hd with hin | ⟨-, hsince, -⟩
    · exact (h.begun d hin).trans (Engine.le_of_step hstep).2
    · exact hsince
  · intro r hr
    rw [show (w₀.hearAll e).engine.nextNo = e.nextNo from
      congrArg Ledger.nextNo (ledger_hearAll w₀ e), hnow, deletions_hearAll]
    have hlt : ∀ d ∈ e.deletions, d.no < e.nextNo := fun d hd => hrest.number_lt d.no
      (List.mem_append_right _ (List.mem_append_right _ (List.mem_map_of_mem hd)))
    exact h.removals_of_step hstep hheeds.spares hlt (Ledger.Sound.deletions_nodup hrest) hr
  · intro hne
    rw [pool_hearAll, deletions_hearAll]
    exact h.emptied_of_heeds hheeds hstep (h.empty_of_closings_hearAll hstep hheeds.guard hne)

/-- The server need not do anything for a quiet move. -/
theorem heeds_of_quiet (h : w.Custody past) {m : Move DriverError Int} {server : Server}
    (hquiet : w.Quiet m server) (hguard : ∀ no, m = .proceed no → ∀ k ∈ w.awaited, k = no) :
    w.Heeds m server past := by
  obtain ⟨hsteady, hnamed, hends⟩ := hquiet
  refine ⟨⟨hsteady.deleteFailures.trans h.spares.1, hsteady.deleteDelays.trans h.spares.2⟩,
    h.balanced.of_steady hsteady.cluster, ?_, ?_, ?_, hguard⟩
  · simp [hnamed]
  · rw [hnamed, hsteady.cluster.created]
    rfl
  · rw [Engine.keptAfter_of_endsWith hends, hnamed, hsteady.cluster.names]
    rfl

/-- When the server answers a creation, the pool answers for a new session, or the creation has failed. -/
theorem heeds_of_creation (h : w.Custody past) (no : TaskNo) :
    w.Heeds (.created no w.server.cluster.endCreate.1)
      { w.server with cluster := w.server.cluster.endCreate.2 } past := by
  rcases w.server.cluster.endCreate_cases with ⟨e, he, hsteady⟩ | ⟨hok, hnames, hcreated, -⟩
  · refine h.heeds_of_quiet ⟨⟨hsteady, rfl, rfl⟩, ?_, fun d _ => rfl⟩ fun k hk => by cases hk
    rw [he]
    rfl
  · have hnamed : (Move.created no w.server.cluster.endCreate.1 : Move DriverError Int).named? =
        some (Cluster.sessionName (w.server.cluster.created + 1)) := by
      rw [hok]
      rfl
    refine ⟨h.spares, h.balanced.endCreate, ?_, ?_, ?_, fun k hk => by cases hk⟩
    · intro id hid
      rw [hnamed, Option.mem_some_iff] at hid
      exact hid ▸ Cluster.sessionName_notMem _
    · rw [hnamed]
      exact (congrArg Cluster.namesUpTo hcreated).symm
    · rw [Engine.keptAfter_of_endsWith fun d _ => rfl, hnamed]
      exact hnames.symm

/-- A deletion that ends is answered, and the server deletes the session. -/
theorem heeds_of_deletion (h : w.Custody past) {d : Deletion} (hd : d ∈ w.engine.deletions)
    (hturn : w.turnDeletion d = some w') : ∃ m server,
      w.Heeds m server (past ++ [(d.id, w.verdict d)]) ∧
        ({ w with server := server } : World).move m = some w' := by
  have hexists := h.deletion_exists hd
  obtain ⟨due, hdue, hremoval⟩ := h.removal_eq hd
  have hanswer : w.server.endDelete (w.removal d) = ((w.server.cluster.delete d.id).1,
      { w.server with cluster := (w.server.cluster.delete d.id).2 }) := by
    rw [hremoval]
    rfl
  have hverdict : w.verdict d = some (w.server.cluster.delete d.id).1 := by
    rw [verdict, hanswer, hremoval]
    exact if_pos hdue
  unfold turnDeletion at hturn
  dsimp only at hturn
  rw [hanswer, if_pos (by rw [hremoval]; exact hdue)] at hturn
  rw [hverdict]
  refine ⟨_, _, ?_, hturn⟩
  refine ⟨h.spares, h.balanced.delete hexists, ?_, ?_, ?_, fun k hk => by cases hk⟩
  · intro id hid
    cases hid
  · rw [(Cluster.delete_of_mem hexists).2.2.1]
    rfl
  · -- the pool stops answering for this session only, since no two deletions have one number
    rw [(Cluster.delete_of_mem hexists).2.1]
    refine List.filter_congr fun id _ => ?_
    rw [Bool.eq_iff_iff, Bool.not_eq_true', decide_eq_true_iff, ← Bool.not_eq_true, not_iff_not,
      List.any_eq_true]
    constructor
    · rintro ⟨k, hk, hends⟩
      obtain ⟨hno, hid⟩ : k.no = d.no ∧ k.id = id := by simpa [Engine.endsWith] using hends
      rw [← hid, List.inj_on_of_nodup_map h.deletions_nodup hk hd hno]
    · rintro rfl
      exact ⟨d, hd, by simp [Engine.endsWith]⟩

/-- Whatever a task does in its turn, the server does its part. -/
theorem heeds_of_turn (h : w.Custody past) {no : TaskNo}
    (hguard : (w.engine.call? no).isSome → ∀ k ∈ w.awaited, k = no) (hturn : w.turn no = some w') :
    ∃ m server, w.Heeds m server (past ++ (w.answer? (.turn no)).toList) ∧
      ({ w with server := server } : World).move m = some w' := by
  have hanswer : w.answer? (.turn no) = (w.ending? no).map fun d => (d.id, w.verdict d) := rfl
  rw [hanswer]
  cases takes_of_turn hturn with
  | deletion d hending hturn =>
    rw [hending]
    exact h.heeds_of_deletion (mem_of_ending? hending) hturn
  | creation call client a since hending hcall hpoint hmove =>
    rw [hending, Option.map_none, Option.toList_none, List.append_nil]
    exact ⟨_, _, h.heeds_of_creation no, hmove⟩
  | quiet m server hending hmover hquiet hmove =>
    rw [hending, Option.map_none, Option.toList_none, List.append_nil]
    refine ⟨m, server, h.heeds_of_quiet hquiet fun k hk => ?_, hmove⟩
    obtain rfl := hmover k (by rw [hk]; rfl)
    refine hguard ?_
    obtain ⟨e, hstep, -⟩ := exists_of_move (w := { w with server := server }) h.detached hmove
    cases hk
    obtain ⟨call, hcall, -⟩ := Option.bind_eq_some_iff.mp hstep
    exact Option.isSome_iff_exists.mpr ⟨call, hcall⟩

/-- Whatever somebody outside does, the server has nothing to do. -/
theorem heeds_of_act (h : w.Custody past) {m : Move DriverError Int} (houtside : m.isOutside = true)
    (hawaited : w.awaited = []) : w.Heeds m w.server past := by
  -- no closing waits for its own deletions, so none is dropped together with its deletions
  have hfree : ∀ d ∈ w.engine.deletions, ∀ no, d.closer ≠ some no := by
    intro d hd no hcloser
    have hin : no ∈ w.awaited := List.mem_filterMap.mpr ⟨d, hd, hcloser⟩
    rw [hawaited] at hin
    cases hin
  have hnamed : m.named? = none := by
    cases m with
    | created => cases houtside
    | _ => rfl
  have hends : ∀ d ∈ w.engine.deletions, w.engine.endsWith m d = false := by
    intro d hd
    cases m with
    | deleted => cases houtside
    | deletionExpired => cases houtside
    | abandon no => simp [Engine.endsWith, hfree d hd]
    | _ => rfl
  refine h.heeds_of_quiet ⟨.rfl, hnamed, hends⟩ fun no hno => ?_
  rw [hno] at houtside
  cases houtside

/-- Whatever happens, the pool makes a move and the server does its part, or it is only steady. -/
theorem heeds_or_steady_of_happen (h : w.Custody past) {x : Happening} (hhappen : w.happen x = some w') :
    (∃ m server, w.Heeds m server (past ++ (w.answer? x).toList) ∧
        ({ w with server := server } : World).move m = some w') ∨
      ∃ server, w.server.Steady server ∧ w.answer? x = none ∧ w' = { w with server := server } := by
  cases x with
  | turn no =>
    unfold World.happen at hhappen
    dsimp only at hhappen
    split at hhappen
    · rename_i hguard
      exact Or.inl (h.heeds_of_turn (fun _ => hguard) hhappen)
    · cases hhappen
  | act m =>
    unfold World.happen at hhappen
    dsimp only at hhappen
    split at hhappen
    · rename_i hguard
      refine Or.inl ⟨m, w.server, ?_, hhappen⟩
      exact (List.append_nil past).symm ▸ h.heeds_of_act hguard.1 hguard.2
    · cases hhappen
  | server step =>
    unfold World.happen at hhappen
    dsimp only at hhappen
    split at hhappen
    · rename_i hspares
      exact Or.inr ⟨_, w.server.steady_take hspares, rfl, (Option.some.inj hhappen).symm⟩
    · cases hhappen
  | operate id =>
    have hsteady : w.server.Steady { w.server with cluster := (w.server.cluster.operate id).2 } :=
      ⟨w.server.cluster.steady_operate id, rfl, rfl⟩
    exact Or.inr ⟨_, hsteady, rfl, (Option.some.inj hhappen).symm⟩
  | attach id =>
    exact Or.inr ⟨_, w.server.steady_attach id, rfl, (Option.some.inj hhappen).symm⟩

/-- Whatever happens, the sessions stay in custody. -/
theorem happen (h : w.Custody past) {x : Happening} (hhappen : w.happen x = some w') :
    w'.Custody (past ++ (w.answer? x).toList) := by
  rcases h.heeds_or_steady_of_happen hhappen with
    ⟨m, server, hheeds, hmove⟩ | ⟨server, hsteady, hanswer, rfl⟩
  · exact h.of_heeds hheeds hmove
  · rw [hanswer, Option.toList_none, List.append_nil]
    exact h.withServer hsteady

/-- Wherever it happens, the sessions stay in custody. -/
theorem happenAt (h : w.Custody past) {x : Bool × Happening} (hhappen : w.happenAt x = some w') :
    w'.Custody (past ++ ((w.placed x.1).answer? x.2).toList) :=
  (h.placed x.1).happen hhappen

/-- After every run the sessions are in custody. -/
theorem run {xs : List (Bool × Happening)} (h : w.Custody past) (hrun : w.run xs = some w') :
    w'.Custody (past ++ w.answers xs) := by
  induction xs generalizing w past with
  | nil =>
    cases hrun
    rw [answers, List.append_nil]
    exact h
  | cons x xs ih =>
    obtain ⟨w₁, hfirst, hrest⟩ := Option.bind_eq_some_iff.mp hrun
    rw [answers, hfirst, ← List.append_assoc]
    exact ih (h.happenAt hfirst) hrest

/-- What is kept by everything that happens in a run while the sessions are in custody is kept by the run. -/
theorem holds_of_run {P : World → Prop} {xs : List (Bool × Happening)} (h : w.Custody past)
    (hkeeps : ∀ x ∈ xs, ∀ {u v : World} {past}, u.Custody past → u.happenAt x = some v → P u → P v)
    (hrun : w.run xs = some w') (hw : P w) : P w' := by
  induction xs generalizing w past with
  | nil =>
    cases hrun
    exact hw
  | cons x xs ih =>
    obtain ⟨w₁, hfirst, hrest⟩ := Option.bind_eq_some_iff.mp hrun
    obtain ⟨hx, hxs⟩ := List.forall_mem_cons.mp hkeeps
    exact ih (h.happenAt hfirst) hxs hrest (hx h hfirst hw)

end Custody

/-! ## Where deletions can be started -/

namespace Whole

/-- A move leaves nothing behind, if the server has done what the move says. -/
theorem of_heeds (hwhole : w.Whole) (h : w.Custody past) {m : Move DriverError Int} {server : Server}
    (hheeds : w.Heeds m server past') (hmove : ({ w with server := server } : World).move m = some w') :
    w'.Whole := by
  obtain ⟨e, hstep, rfl⟩ := exists_of_move (w := { w with server := server }) h.detached hmove
  have hledger := ledger_hearAll { w with server := server } e
  have hplace : e.background = true := (Engine.background_of_step hstep).trans hwhole.place
  refine ⟨(congrArg Ledger.background hledger).trans hplace, ?_⟩
  rw [hledger, (heard_hearAll _ e).server.cluster.names]
  show e.ledger.sessions.Perm server.cluster.names
  rw [← hheeds.kept]
  exact (((h.atRest_of_heeds hheeds hstep).accounts _ rfl).perm hplace).trans
    (Engine.keptAfter_perm hwhole.perm m)

theorem happenAt (hwhole : w.Whole) (h : w.Custody past) {x : Bool × Happening} (hplace : x.1 = true)
    (hhappen : w.happenAt x = some w') : w'.Whole := by
  have hplaced : (w.placed x.1).Whole := ⟨hplace, hwhole.perm⟩
  rcases (h.placed x.1).heeds_or_steady_of_happen hhappen with
    ⟨m, server, hheeds, hmove⟩ | ⟨server, hsteady, -, rfl⟩
  · exact hplaced.of_heeds (h.placed x.1) hheeds hmove
  · exact hplaced.withServer hsteady

/-- A run in which deletions can always be started leaves nothing behind. -/
theorem run {xs : List (Bool × Happening)} (hwhole : w.Whole) (h : w.Custody past)
    (hplace : ∀ x ∈ xs, x.1 = true) (hrun : w.run xs = some w') : w'.Whole :=
  h.holds_of_run (fun x hx _ _ _ hu hhappen hkept => hkept.happenAt hu (hplace x hx) hhappen) hrun hwhole

end Whole

namespace Custody

/-! ## What custody says -/

/-- A deletion under way will be answered that the session is deleted. -/
theorem verdict_eq (h : w.Custody past) {d : Deletion} (hd : d ∈ w.engine.deletions) :
    w.verdict d = some (.ok ()) := by
  obtain ⟨due, hdue, hremoval⟩ := h.removal_eq hd
  have hanswer : (w.server.endDelete (w.removal d)).1 = (w.server.cluster.delete d.id).1 := by
    rw [hremoval]
    rfl
  rw [verdict, hanswer, hremoval, if_pos hdue, (Cluster.delete_of_mem (h.deletion_exists hd)).1]

/-- A caller who parts with a lease on a session that is not tracked only loses the lease. -/
theorem part_untracked (h : w.Custody past) {k : Handle} (hk : k ∈ w.engine.held)
    (hnone : w.engine.pool.find? k.id = none) {m : Move DriverError Int}
    (hm : m = .release k.flag ∨ m = .invalidate k.flag ∨ m = .drop k.flag) :
    ∃ w', w.move m = some w' ∧ w'.engine.ledger =
      { w.engine.ledger with held := w.engine.held.filter (·.flag ≠ k.flag) } := by
  have hheld : w.engine.held? k.flag = some k := by
    have hsome : (w.engine.held? k.flag).isSome := List.find?_isSome.mpr ⟨k, hk, by simp⟩
    obtain ⟨k', hk'⟩ := Option.isSome_iff_exists.mp hsome
    obtain ⟨hin, hflag⟩ := Engine.mem_of_held? hk'
    rw [hk', Ledger.Sound.eq_of_flag_eq h.atRest (List.mem_append_left _ hin)
      (List.mem_append_left _ hk) hflag]
  have hparted : (w.engine.part k.flag).pool.find? k.id = none := hnone
  -- the three ways to part with a lease differ only in what they do to a tracked session
  have hstep : ∃ e, w.engine.step w.setup m = some e ∧ e.ledger = (w.engine.part k.flag).ledger := by
    rcases hm with rfl | rfl | rfl
    · exact ⟨(w.engine.part k.flag).giveBack w.setup k.id, by rw [Engine.step, hheld]; rfl,
        by rw [Engine.giveBack_of_none hparted]⟩
    · exact ⟨(w.engine.part k.flag).invalidate w.setup k.id, by rw [Engine.step, hheld]; rfl,
        by rw [Engine.invalidate_of_none hparted]⟩
    · exact ⟨(w.engine.part k.flag).loseLease w.setup k.id, by rw [Engine.step, hheld]; rfl,
        Engine.ledger_loseLease_of_none hparted⟩
  obtain ⟨e, hstep, hledger⟩ := hstep
  exact ⟨w.hearAll e, by rw [move_eq h.detached, hstep, Option.map_some],
    (ledger_hearAll w e).trans hledger⟩

end Custody

/-- After every run in which deletions can always be started, the sessions of the server are those that the
pool tracks and those that it is deleting, each in one of these places; only tracked sessions have monitors;
no session is deleted twice, and every deletion succeeds.  A lease on a session that was removed before
changes nothing when it comes back or is lost. -/
theorem sessions_conserved_of_run (setup : Setup) (latency : Span) (g g' : Generator)
    (deeds : TaskNo → Nat → Deed) (xs : List (Bool × Happening)) (w : World)
    (hplace : ∀ x ∈ xs, x.1 = true) (hrun : (begin setup latency g g' deeds).run xs = some w) :
    w.server.cluster.names.Perm
        (w.engine.pool.active.map (·.1) ++ w.engine.deletions.map (·.id)) ∧
      (w.engine.pool.active.map (·.1) ++ w.engine.deletions.map (·.id)).Nodup ∧
      (∀ m ∈ w.engine.monitors, ∃ t, w.engine.pool.find? m.id = some t ∧ t.flag = m.no) ∧
      (((begin setup latency g g' deeds).answers xs).map (·.1) ++
        w.engine.deletions.map (·.id)).Nodup ∧
      (∀ r ∈ (begin setup latency g g' deeds).answers xs, r.2 = some (.ok ())) ∧
      (∀ d ∈ w.engine.deletions, w.verdict d = some (.ok ())) ∧
      (∀ id, w.engine.pool.find? id = none → w.engine.giveBack w.setup id = w.engine ∧
        w.engine.invalidate w.setup id = w.engine ∧
        (w.engine.loseLease w.setup id).ledger = w.engine.ledger) ∧
      ∀ k ∈ w.engine.held, w.engine.pool.find? k.id = none →
        ∀ m, m = .release k.flag ∨ m = .invalidate k.flag ∨ m = .drop k.flag →
          ∃ w', w.move m = some w' ∧ w'.engine.ledger =
            { w.engine.ledger with held := w.engine.held.filter (·.flag ≠ k.flag) } := by
  have hbegin := custody_begin setup latency g g' deeds
  have h := hbegin.run hrun
  rw [List.nil_append] at h
  have hperm := ((whole_begin setup latency g g' deeds).run hbegin hplace hrun).perm
  refine ⟨hperm.symm, h.sessions_nodup, h.atRest.watched, ?_, h.balanced.succeeded,
    fun d hd => h.verdict_eq hd, fun id hnone => ⟨Engine.giveBack_of_none hnone,
      Engine.invalidate_of_none hnone, Engine.ledger_loseLease_of_none hnone⟩,
    fun k hk hnone m hm => h.part_untracked hk hnone hm⟩
  -- the deleted sessions, the tracked ones and those that are being deleted never had a name in common
  have hall := (hperm.append_left
    (((begin setup latency g g' deeds).answers xs).map (·.1))).nodup_iff.mpr h.balanced.nodup
  exact hall.sublist ((List.sublist_append_right _ _).append_left _)

/-- A caller acquires a session, which is then given up by its name while he holds the lease. -/
def leaseAndGiveUp : List (Bool × Happening) :=
  [(true, .act (.call .lease (.unnamed 0))), (true, .turn 0), (true, .turn 0),
    (true, .act (.invalidateId (Cluster.sessionName 1)))]

theorem sessions_conserved_of_leaseAndGiveUp :
    ∃ w, (begin (.ofConfig {} .standard none) .zero ⟨1⟩ ⟨2⟩ fun _ _ => ⟨false, 0, none⟩).run
        leaseAndGiveUp = some w ∧
      w.engine.pool.active = [] ∧ w.server.cluster.names = [Cluster.sessionName 1] ∧
      w.server.cluster.names.Perm
        (w.engine.pool.active.map (·.1) ++ w.engine.deletions.map (·.id)) :=
  ⟨_, rfl, rfl, rfl, (sessions_conserved_of_run (.ofConfig {} .standard none) .zero ⟨1⟩ ⟨2⟩
    (fun _ _ => ⟨false, 0, none⟩) leaseAndGiveUp _ (by simp [leaseAndGiveUp]) rfl).1⟩

end World

end PooledSessions
