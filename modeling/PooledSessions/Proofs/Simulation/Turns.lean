import PooledSessions.Simulation.World
import PooledSessions.Proofs.Cluster.Sessions
import PooledSessions.Proofs.Pool.Runs
/-!
# Turns of a world

When one of its tasks is given a turn, a world answers with a move of the pool and with the state of the
server in which the pool makes it (`World.answer`).  What the pool tells in that move is heard, which
changes neither what the pool has in hand nor the sessions on the server.
-/

namespace PooledSessions

/-! ## What is heard -/

/-- The closing that a signal says has ended. -/
def Signal.ended? {ε α : Type} : Signal ε α → Option TaskNo
  | .closed no => some no
  | _ => none

/-- The end of an acquisition that a signal tells. -/
def Signal.acquired? {ε α : Type} : Signal ε α → Option (TaskNo × Except PoolError Handle)
  | .acquired no r => some (no, r)
  | _ => none

/-- The session on which a signal says that an operation was started, with the call. -/
def Signal.visit? {ε α : Type} : Signal ε α → Option (TaskNo × SessionInfo)
  | .operationStarted no s => some (no, s)
  | _ => none

namespace World

/-- What hearing signals does to a world. -/
structure Heard (w w' : World) (told : List (Signal DriverError Int)) : Prop where
  /-- The pool is set up as before. -/
  setup : w'.setup = w.setup
  /-- The pool has in hand what it had. -/
  ledger : w'.engine.ledger = w.engine.ledger
  /-- The clock shows the same time. -/
  now : w'.engine.now = w.engine.now
  /-- The pool tells nothing. -/
  signals : w'.engine.signals = w.engine.signals
  /-- No session comes or goes. -/
  server : w.server.Steady w'.server
  /-- The operations are the same. -/
  deeds : w'.deeds = w.deeds
  /-- Nobody stops waiting. -/
  detached : w'.detached = w.detached
  /-- The ends of closings are kept. -/
  closings : w'.closings = w.closings ++ told.filterMap Signal.ended?
  /-- The ends of acquisitions are kept. -/
  acquired : w'.acquired = w.acquired ++ told.filterMap Signal.acquired?
  /-- The starts of operations are kept. -/
  visits : w'.visits = w.visits ++ told.filterMap Signal.visit?
  /-- The results of executions are kept. -/
  executed : w'.executed = w.executed ++ told.filterMap Signal.executed?

theorem heard_hear (w : World) (s : Signal DriverError Int) : Heard w (w.hear s) [s] := by
  cases s with
  | operationStarted no info =>
    -- an operation that cancels its call as it starts cancels a token, which is not in the ledger
    unfold hear
    dsimp only
    split
    · split
      · refine ⟨rfl, Engine.ledger_cancel _ _, ?_, ?_, .rfl, rfl, rfl, by simp [Signal.ended?],
          by simp [Signal.acquired?], rfl, by simp [Signal.executed?]⟩
        · unfold Engine.cancel
          split <;> rfl
        · unfold Engine.cancel
          split <;> rfl
      · exact ⟨rfl, rfl, rfl, rfl, .rfl, rfl, rfl, by simp [Signal.ended?],
          by simp [Signal.acquired?], rfl, by simp [Signal.executed?]⟩
    · exact ⟨rfl, rfl, rfl, rfl, .rfl, rfl, rfl, by simp [Signal.ended?],
        by simp [Signal.acquired?], rfl, by simp [Signal.executed?]⟩
  | createBegun no =>
    exact ⟨rfl, rfl, rfl, rfl, ⟨⟨rfl, rfl, rfl⟩, rfl, rfl⟩, rfl, rfl, by simp [hear, Signal.ended?],
      by simp [hear, Signal.acquired?], by simp [hear, Signal.visit?], by simp [hear, Signal.executed?]⟩
  | createAbandoned no =>
    exact ⟨rfl, rfl, rfl, rfl, ⟨⟨rfl, rfl, rfl⟩, rfl, rfl⟩, rfl, rfl, by simp [hear, Signal.ended?],
      by simp [hear, Signal.acquired?], by simp [hear, Signal.visit?], by simp [hear, Signal.executed?]⟩
  | _ =>
    exact ⟨rfl, rfl, rfl, rfl, .rfl, rfl, rfl, by simp [hear, Signal.ended?],
      by simp [hear, Signal.acquired?], by simp [hear, Signal.visit?], by simp [hear, Signal.executed?]⟩

theorem Heard.trans {w w' w'' : World} {told told' : List (Signal DriverError Int)}
    (h : Heard w w' told) (h' : Heard w' w'' told') : Heard w w'' (told ++ told') where
  setup := h'.setup.trans h.setup
  ledger := h'.ledger.trans h.ledger
  now := h'.now.trans h.now
  signals := h'.signals.trans h.signals
  server := h.server.trans h'.server
  deeds := h'.deeds.trans h.deeds
  detached := h'.detached.trans h.detached
  closings := by rw [h'.closings, h.closings, List.filterMap_append, List.append_assoc]
  acquired := by rw [h'.acquired, h.acquired, List.filterMap_append, List.append_assoc]
  visits := by rw [h'.visits, h.visits, List.filterMap_append, List.append_assoc]
  executed := by rw [h'.executed, h.executed, List.filterMap_append, List.append_assoc]

theorem heard_foldl (told : List (Signal DriverError Int)) (w : World) :
    Heard w (told.foldl hear w) told := by
  induction told generalizing w with
  | nil => exact ⟨rfl, rfl, rfl, rfl, .rfl, rfl, rfl, by simp, by simp, by simp, by simp⟩
  | cons s told ih => exact (heard_hear w s).trans (ih (w.hear s))

/-- What hearing everything that the pool tells in a move does to a world. -/
theorem heard_hearAll (w : World) (e : Engine DriverError Int) :
    Heard { w with engine := { e with signals := [] } } (w.hearAll e) e.signals :=
  heard_foldl e.signals _

@[simp] theorem ledger_hearAll (w : World) (e : Engine DriverError Int) :
    (w.hearAll e).engine.ledger = e.ledger :=
  (heard_hearAll w e).ledger

theorem pool_hearAll (w : World) (e : Engine DriverError Int) :
    (w.hearAll e).engine.pool = e.pool :=
  congrArg Ledger.pool (ledger_hearAll w e)

theorem calls_hearAll (w : World) (e : Engine DriverError Int) :
    (w.hearAll e).engine.calls = e.calls :=
  congrArg Ledger.calls (ledger_hearAll w e)

theorem held_hearAll (w : World) (e : Engine DriverError Int) :
    (w.hearAll e).engine.held = e.held :=
  congrArg Ledger.held (ledger_hearAll w e)

theorem deletions_hearAll (w : World) (e : Engine DriverError Int) :
    (w.hearAll e).engine.deletions = e.deletions :=
  congrArg Ledger.deletions (ledger_hearAll w e)

/-- If everybody waits for the end of his call, a move is heard and nothing else. -/
theorem move_eq {w : World} (hdetached : w.detached = []) (m : Move DriverError Int) :
    w.move m = (w.engine.step w.setup m).map w.hearAll := by
  have hnone : ∀ s, w.unwanted? s = none := by
    intro s
    unfold unwanted?
    split
    · simp [hdetached]
    · rfl
  have hnothing : ∀ told : List (Signal DriverError Int), told.filterMap w.unwanted? = [] := by
    intro told
    exact List.filterMap_eq_nil_iff.mpr fun s _ => hnone s
  simp only [move, hnothing, List.foldl_nil]

/-- What a move leads to: it is made and heard. -/
theorem exists_of_move {w w' : World} {m : Move DriverError Int} (hdetached : w.detached = [])
    (hmove : w.move m = some w') : ∃ e, w.engine.step w.setup m = some e ∧ w' = w.hearAll e := by
  rw [move_eq hdetached] at hmove
  obtain ⟨e, hstep, rfl⟩ := Option.map_eq_some_iff.mp hmove
  exact ⟨e, hstep, rfl⟩

theorem move_eq_none_iff {w : World} {m : Move DriverError Int} :
    w.move m = none ↔ w.engine.step w.setup m = none := by
  rw [move, Option.map_eq_none_iff]

/-! ## Removals -/

theorem removals_hear {w : World} {s : Signal DriverError Int} {r : TaskNo × Removal}
    (hr : r ∈ (w.hear s).removals) : r ∈ w.removals ∨
      ∃ no id, s = .deleteBegun no id ∧ r = (no, w.server.beginDelete id w.now) := by
  cases s with
  | deleteBegun no id =>
    rcases List.mem_cons.mp hr with rfl | hin
    · exact Or.inr ⟨no, id, rfl, rfl⟩
    · exact Or.inl (List.mem_of_mem_filter hin)
  | operationStarted no info =>
    left
    unfold hear at hr
    dsimp only at hr
    split at hr
    · split at hr <;> exact hr
    · exact hr
  | _ => exact Or.inl hr

/-- The server begins the deletions that it is told of. -/
theorem removals_foldl {told : List (Signal DriverError Int)} {w : World} {r : TaskNo × Removal}
    (hr : r ∈ (told.foldl hear w).removals) : r ∈ w.removals ∨
      ∃ no id server, Signal.deleteBegun no id ∈ told ∧ w.server.Steady server ∧
        r = (no, server.beginDelete id w.now) := by
  induction told generalizing w with
  | nil => exact Or.inl hr
  | cons s told ih =>
    have hheard := heard_hear w s
    rcases ih hr with hin | ⟨no, id, server, htold, hsteady, rfl⟩
    · rcases removals_hear hin with hin | ⟨no, id, rfl, rfl⟩
      · exact Or.inl hin
      · exact Or.inr ⟨no, id, w.server, List.mem_cons_self, .rfl, rfl⟩
    · refine Or.inr ⟨no, id, server, List.mem_cons_of_mem _ htold, hheard.server.trans hsteady, ?_⟩
      rw [now, now, hheard.now]

theorem removals_hearAll {w : World} {e : Engine DriverError Int} {r : TaskNo × Removal}
    (hr : r ∈ (w.hearAll e).removals) : r ∈ w.removals ∨
      ∃ no id server, Signal.deleteBegun no id ∈ e.signals ∧ w.server.Steady server ∧
        r = (no, server.beginDelete id e.now) :=
  removals_foldl hr

/-! ## The deletion that ends in a turn -/

/-- The deletion that ends when a task is given a turn: for a closing, the first of its own that can. -/
def ending? (w : World) (no : TaskNo) : Option Deletion :=
  match w.engine.call? no with
  | some call =>
    if call.point = .deleting then
      (w.engine.deletions.filter (·.closer = some call.no)).find? fun d => (w.turnDeletion d).isSome
    else none
  | none =>
    match w.engine.monitor? no with
    | some _ => none
    | none => w.engine.deletion? no

/-- What the server answers a deletion now, or nothing if the time limit of the deletion passes first. -/
def verdict (w : World) (d : Deletion) : Option (Except RpcError Unit) :=
  if (w.removal d).due ≤ w.now then some (w.server.endDelete (w.removal d)).1 else none

theorem mem_of_ending? {w : World} {no : TaskNo} {d : Deletion} (h : w.ending? no = some d) :
    d ∈ w.engine.deletions := by
  unfold ending? at h
  split at h
  · split at h
    · exact List.mem_of_mem_filter (List.mem_of_find?_eq_some h)
    · cases h
  · split at h
    · cases h
    · exact (Engine.mem_of_deletion? h).1

/-- A call that waits where it does not look for cancellation makes its move. -/
theorem noticed_eq_none {w : World} {no : TaskNo} {call : Call} (hcall : w.engine.call? no = some call)
    (hnone : w.engine.noticed w.setup call = none) : w.move (.noticed no) = none := by
  rw [move_eq_none_iff, Engine.step, hcall]
  show (if w.engine.isCancelled call.token then w.engine.noticed w.setup call else none) = none
  split
  · exact hnone
  · rfl

/-! ## What a turn can be -/

/-- A move that names no session and ends no deletion, made while the server is steady. -/
structure Quiet (w : World) (m : Move DriverError Int) (server : Server) : Prop where
  /-- No session comes or goes on the server. -/
  steady : w.server.Steady server
  /-- The server names no session. -/
  named : m.named? = none
  /-- No deletion ends. -/
  ends : ∀ d ∈ w.engine.deletions, w.engine.endsWith m d = false

/-- What a task that is given a turn can do, and what it leads to. -/
inductive Takes (w : World) (no : TaskNo) (w' : World) : Prop
  /-- A deletion is answered or given up. -/
  | deletion (d : Deletion) (hending : w.ending? no = some d) (hturn : w.turnDeletion d = some w')
  /-- A creation is answered. -/
  | creation (call : Call) (client : Client) (a : Attempt) (since : Nat)
      (hending : w.ending? no = none) (hcall : w.engine.call? no = some call)
      (hpoint : call.point = .creating client a since)
      (hmove : { w with server := { w.server with cluster := w.server.cluster.endCreate.2 } }.move
        (.created no w.server.cluster.endCreate.1) = some w')
  /-- Anything else, which is quiet. -/
  | quiet (m : Move DriverError Int) (server : Server) (hending : w.ending? no = none)
      (hmover : ∀ k ∈ m.call?, k = no) (hquiet : w.Quiet m server)
      (hmove : { w with server := server }.move m = some w')

variable {w w' : World} {no : TaskNo}

theorem perform_steady (w : World) (d : Deed) (s : SessionInfo) :
    ∃ server, w.server.Steady server ∧ (w.perform d s).2 = { w with server := server } := by
  unfold perform
  split
  · exact ⟨w.server, .rfl, rfl⟩
  · exact ⟨{ w.server with cluster := (w.server.cluster.operate s.id).2 },
      ⟨w.server.cluster.steady_operate s.id, rfl, rfl⟩, rfl⟩

theorem takes_of_turnCall {call : Call} (hcall : w.engine.call? no = some call)
    (hturn : w.turnCall call = some w') : w.Takes no w' := by
  obtain ⟨_, rfl⟩ := Engine.mem_of_call? hcall
  -- whatever the call does, it is the one that moves, and most of what it does is quiet
  have hself : ∀ m : Move DriverError Int, m.call? = some call.no → ∀ k ∈ m.call?, k = call.no := by
    intro m hm k hk
    rw [hm] at hk
    exact (Option.some.inj hk).symm
  have hstill : ∀ m : Move DriverError Int, m.named? = none →
      (∀ d, w.engine.endsWith m d = false) → w.Quiet m w.server :=
    fun m hnamed hends => ⟨.rfl, hnamed, fun d _ => hends d⟩
  have hending : call.point ≠ .deleting → w.ending? call.no = none := by
    intro hne
    rw [ending?, hcall]
    exact if_neg hne
  unfold turnCall at hturn
  rw [Option.orElse_eq_or, Option.or_eq_some_iff] at hturn
  rcases hturn with hnoticed | ⟨-, hturn⟩
  · refine .quiet (.noticed call.no) w.server (hending fun hpoint => ?_) (hself _ rfl)
      (hstill _ rfl fun _ => rfl) hnoticed
    rw [noticed_eq_none hcall (by rw [Engine.noticed, hpoint])] at hnoticed
    cases hnoticed
  · split at hturn
    · rename_i hpoint
      exact .quiet (.start call.no) w.server (hending (by simp [hpoint])) (hself _ rfl)
        (hstill _ rfl fun _ => rfl) hturn
    · rename_i client a since hpoint
      split at hturn
      · exact .creation call client a since (hending (by simp [hpoint])) hcall hpoint hturn
      · exact .quiet (.createExpired call.no) w.server (hending (by simp [hpoint])) (hself _ rfl)
          (hstill _ rfl fun _ => rfl) hturn
    · rename_i hpoint
      exact .quiet (.woken call.no) w.server (hending (by simp [hpoint])) (hself _ rfl)
        (hstill _ rfl fun _ => rfl) hturn
    · rename_i a h since hpoint
      dsimp only at hturn
      split at hturn
      · obtain ⟨server, hsteady, hperformed⟩ :=
          w.perform_steady (w.deeds call.no (call.started - 1)) h.info
        rw [hperformed] at hturn
        exact .quiet _ server (hending (by simp [hpoint])) (hself (.operated call.no _ _) rfl)
          ⟨hsteady, rfl, fun _ _ => rfl⟩ hturn
      · cases hturn
    · rename_i hpoint
      exact .quiet (.woken call.no) w.server (hending (by simp [hpoint])) (hself _ rfl)
        (hstill _ rfl fun _ => rfl) hturn
    · rename_i hpoint
      have heq : w.ending? call.no = (w.engine.deletions.filter (·.closer = some call.no)).find?
          fun d => (w.turnDeletion d).isSome := by
        rw [ending?, hcall]
        exact if_pos hpoint
      -- the closing hears of the first of its deletions that ends, or goes on if none is left
      rw [Option.orElse_eq_or, Option.or_eq_some_iff] at hturn
      rcases hturn with hdeleted | ⟨hnone, hproceed⟩
      · obtain ⟨before, d, after, hlist, hd, hbefore⟩ := List.findSome?_eq_some_iff.mp hdeleted
        refine .deletion d ?_ hd
        rw [heq, List.find?_eq_some_iff_append]
        exact ⟨by simp [hd], before, after, hlist, fun k hk => by simp [hbefore k hk]⟩
      · refine .quiet (.proceed call.no) w.server ?_ (hself _ rfl) (hstill _ rfl fun _ => rfl) hproceed
        rw [heq, List.find?_eq_none]
        intro d hd
        simp [List.findSome?_eq_none_iff.mp hnone d hd]
    · rename_i hpoint
      exact .quiet (.proceed call.no) w.server (hending (by simp [hpoint])) (hself _ rfl)
        (hstill _ rfl fun _ => rfl) hturn
    · rename_i hpoint
      exact .quiet (.proceed call.no) w.server (hending (by simp [hpoint])) (hself _ rfl)
        (hstill _ rfl fun _ => rfl) hturn

theorem takes_of_turnMonitor {m : Monitor} (hending : w.ending? no = none)
    (hturn : w.turnMonitor m = some w') : w.Takes no w' := by
  have hnobody : ∀ m : Move DriverError Int, m.call? = none → ∀ k ∈ m.call?, k = no := by
    intro m hm k hk
    rw [hm] at hk
    cases hk
  unfold turnMonitor at hturn
  split at hturn
  · exact .quiet (.attached m.no (w.server.attach m.id).1) (w.server.attach m.id).2 hending
      (hnobody _ rfl) ⟨w.server.steady_attach m.id, rfl, fun _ _ => rfl⟩ hturn
  · rename_i stream hwatch
    have hsteady := w.server.steady_read stream
    split at hturn
    · cases hturn
    · rename_i r server hread
      rw [hread] at hsteady
      exact .quiet (.heard m.no r) server hending (hnobody _ rfl) ⟨hsteady, rfl, fun _ _ => rfl⟩ hturn
    · exact .quiet (.streamEnded m.no) w.server hending (hnobody _ rfl) ⟨.rfl, rfl, fun _ _ => rfl⟩
        hturn

/-- A turn that is possible is one of these. -/
theorem takes_of_turn (hturn : w.turn no = some w') : w.Takes no w' := by
  unfold turn at hturn
  split at hturn
  · rename_i call hcall
    exact takes_of_turnCall hcall hturn
  · rename_i hcall
    split at hturn
    · rename_i m hm
      exact takes_of_turnMonitor (by rw [ending?, hcall, hm]) hturn
    · rename_i hm
      split at hturn
      · rename_i d hd
        exact .deletion d (by rw [ending?, hcall, hm, hd]) hturn
      · cases hturn

end World

end PooledSessions
