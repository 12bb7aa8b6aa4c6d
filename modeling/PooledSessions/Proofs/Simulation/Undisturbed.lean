import PooledSessions.Proofs.Cluster.Untroubled
import PooledSessions.Proofs.Pool.Effort
import PooledSessions.Proofs.Pool.Leases
import PooledSessions.Proofs.Simulation.Load
/-!
# Undisturbed worlds

In an undisturbed world (`World.Undisturbed`) operations run on the server's sessions, nobody cancels and
nobody acts from outside, and the server creates and deletes sessions at once, whenever it is asked to.  What
can happen then in a turn is little (`World.Calm`): no time limit passes, and of everything that the server is
asked only operations fail, and the attaching to a session that such a failure has killed.
-/

namespace PooledSessions

/-! ## The cluster -/

theorem Cluster.Untroubled.heed {c : Cluster} {rate : Binary64} (h : c.Untroubled rate) (asked : List Request) :
    (asked.foldl Cluster.heed c).Untroubled rate := by
  obtain ⟨calls, creating, peak, heq⟩ := Cluster.foldl_heed asked c
  rw [heq]
  exact ⟨h.createFailures, h.operationFailures, h.failureRate, h.alive⟩

/-- The creations that begin are called and under way. -/
theorem Cluster.called_heed {asked : List Request} (hasked : .giveUp ∉ asked) {c : Cluster}
    (h : c.createCalls = c.created + c.creating) :
    (asked.foldl heed c).createCalls = (asked.foldl heed c).created + (asked.foldl heed c).creating := by
  induction asked generalizing c with
  | nil => exact h
  | cons r asked ih =>
    refine ih (fun hin => hasked (List.mem_cons_of_mem _ hin)) ?_
    cases r with
    | create => exact congrArg (· + 1) h
    | giveUp => exact absurd List.mem_cons_self hasked
    | operate => exact h

theorem Cluster.operations_heed (asked : List Request) (c : Cluster) :
    (asked.foldl heed c).operations = c.operations := by
  obtain ⟨calls, creating, peak, heq⟩ := foldl_heed asked c
  rw [heq]

/-- What an operation answers that runs on a session of the cluster. -/
def Cluster.answer (c : Cluster) (id : SessionId) : Except DriverError Int :=
  match (c.operate id).1 with
  | .ok n => .ok (n : Int)
  | .error e => .error (.rpc e)

namespace World

/-! ## Turns -/

/-- Operations run on the server's sessions, nobody cancels and nobody holds a lease, and the server does at
once what it is asked for. -/
structure Undisturbed (rate : Binary64) (w : World) : Prop where
  /-- The sessions are in custody. -/
  custody : ∃ past, w.Custody past
  /-- None has been left behind. -/
  whole : w.Whole
  /-- The cluster counts the creations in flight. -/
  laden : w.Laden
  /-- The calls are in order. -/
  orderly : w.engine.Orderly
  /-- Nobody asks for a lease. -/
  serves : w.engine.ServesExecutions
  /-- Nobody has been cancelled. -/
  cancelled : w.engine.cancelled = []
  /-- Nobody is going to be cancelled. -/
  observer : w.setup.observer = none
  /-- Operations run on the server's sessions. -/
  deeds : w.deeds = fun _ _ => ⟨false, 0, none⟩
  /-- Creations take no time. -/
  latency : w.server.latency = .zero
  /-- Operations fail at random only. -/
  untroubled : w.server.cluster.Untroubled rate
  /-- Each creation that was begun has ended with a session or is under way. -/
  called : w.server.cluster.createCalls = w.server.cluster.created + w.server.cluster.creating

/-- What a task can do in its turn in an undisturbed world, and what becomes of the server. -/
inductive Calm (w : World) (no : TaskNo) : Move DriverError Int → Server → Prop
  /-- A call is started, or goes on after a delay. -/
  | goesOn (m : Move DriverError Int) (hm : m = .start no ∨ m = .woken no) (call : Call)
      (hcall : w.engine.call? no = some call) (hcreating : call.point.isCreating = false)
      (hcloses : call.point.closes = false) : Calm w no m w.server
  /-- A closing goes on. -/
  | proceeds (call : Call) (hcall : w.engine.call? no = some call) (hcloses : call.point.closes = true) :
      Calm w no (.proceed no) w.server
  /-- The server has created a session. -/
  | created (call : Call) (hcall : w.engine.call? no = some call) (hcreating : call.point.isCreating = true)
      (s : SessionInfo) (hs : w.server.cluster.endCreate.1 = .ok s) :
      Calm w no (.created no (.ok s)) { w.server with cluster := w.server.cluster.endCreate.2 }
  /-- An operation has run on its session. -/
  | operated (call : Call) (hcall : w.engine.call? no = some call) (a : Attempt) (k : Handle) (since : Nat)
      (hpoint : call.point = .operating a k since) :
      Calm w no (.operated no false (w.server.cluster.answer k.id))
        { w.server with cluster := (w.server.cluster.operate k.id).2 }
  /-- A monitor attaches to its session. -/
  | attached (k : Monitor) (hk : k ∈ w.engine.monitors) (hwatch : k.watch = .attaching) :
      Calm w no (.attached k.no (w.server.attach k.id).1) (w.server.attach k.id).2
  /-- A monitor hears what is on its stream. -/
  | heard (k : Monitor) (hk : k ∈ w.engine.monitors) (stream : StreamNo) (hwatch : k.watch = .listening stream)
      (r : Except RpcError SessionStatus) (server : Server)
      (hread : w.server.read stream = (.message r, server)) : Calm w no (.heard k.no r) server
  /-- The stream of a monitor has ended. -/
  | ended (k : Monitor) (hk : k ∈ w.engine.monitors) : Calm w no (.streamEnded k.no) w.server
  /-- The server has deleted a session. -/
  | deleted (d : Deletion) (hd : d ∈ w.engine.deletions) :
      Calm w no (.deleted d.no (.ok ())) { w.server with cluster := (w.server.cluster.delete d.id).2 }

variable {w w' : World} {no : TaskNo} {rate : Binary64}

namespace Calm

variable {m : Move DriverError Int} {server : Server}

theorem isCalm (h : w.Calm no m server) : m.isCalm = true := by
  cases h with
  | goesOn m hm => rcases hm with rfl | rfl <;> rfl
  | _ => rfl

theorem ne_call (h : w.Calm no m server) (purpose : Purpose) (token : Token) : m ≠ .call purpose token := by
  rintro rfl
  exact Bool.false_ne_true h.isCalm

theorem ne_abandon (h : w.Calm no m server) (k : TaskNo) : m ≠ .abandon k := by
  rintro rfl
  exact Bool.false_ne_true h.isCalm

theorem call?_eq {k : TaskNo} (h : w.Calm no m server) (hm : m.call? = some k) : k = no := by
  cases h with
  | goesOn m hmove => rcases hmove with rfl | rfl <;> exact (Option.some.inj hm).symm
  | proceeds | created | operated => exact (Option.some.inj hm).symm
  | attached | heard | ended | deleted => cases hm

/-- An operation answers what the cluster answers, and cancels nothing. -/
theorem answer_of_operated {k : TaskNo} {cancels : Bool} {result : Except DriverError Int}
    (h : w.Calm no (.operated k cancels result) server) :
    cancels = false ∧ ∃ call, w.engine.call? no = some call ∧ ∃ a lease since,
      call.point = .operating a lease since ∧ result = w.server.cluster.answer lease.id := by
  generalize hm : Move.operated k cancels result = m at h
  cases h with
  | goesOn m hmove => rcases hmove with rfl | rfl <;> cases hm
  | operated call hcall a lease since hpoint =>
    cases hm
    exact ⟨rfl, call, hcall, a, lease, since, hpoint, rfl⟩
  | _ => cases hm

end Calm

/-- Where operations cancel nothing, the pool is as it was when everything that it tells has been heard. -/
theorem engine_hearAll (hdeeds : w.deeds = fun _ _ => ⟨false, 0, none⟩) (e : Engine DriverError Int) :
    (w.hearAll e).engine = { e with signals := [] } := by
  have hhear : ∀ (w : World) (s : Signal DriverError Int), w.deeds = (fun _ _ => ⟨false, 0, none⟩) →
      (w.hear s).engine = w.engine := by
    intro w s hdeeds
    cases s with
    | operationStarted no info =>
      unfold hear
      simp only [hdeeds, Bool.false_and, Bool.false_eq_true, if_false]
      split <;> rfl
    | _ => rfl
  have hall : ∀ (told : List (Signal DriverError Int)) (w : World), w.deeds = (fun _ _ => ⟨false, 0, none⟩) →
      (told.foldl hear w).engine = w.engine := by
    intro told
    induction told with
    | nil => exact fun _ _ => rfl
    | cons s told ih =>
      intro w hdeeds
      exact (ih (w.hear s) ((heard_hear w s).deeds.trans hdeeds)).trans (hhear w s hdeeds)
  exact hall e.signals { w with engine := { e with signals := [] } } hdeeds

/-- A bound on the turns that can be taken, unless somebody sets up another call. -/
def effort (w : World) : Nat :=
  w.engine.effort w.setup.operations.policy + w.server.cluster.live + w.server.cluster.unread

namespace Undisturbed

theorem not_cancelled (h : w.Undisturbed rate) (token : Token) : w.engine.isCancelled token = false := by
  rw [Engine.isCancelled, h.cancelled]
  rfl

theorem unnoticed (h : w.Undisturbed rate) {call : Call} (hcall : w.engine.call? no = some call) :
    w.move (.noticed no) = none := by
  rw [move_eq_none_iff]
  simp [Engine.step, hcall, h.not_cancelled]

theorem createDue_eq (h : w.Undisturbed rate) (since : Nat) : w.server.createDue since = since := by
  rw [Server.createDue, h.latency]
  rfl

theorem calm_of_turnDeletion (h : w.Undisturbed rate) {d : Deletion} (hd : d ∈ w.engine.deletions)
    (hturn : w.turnDeletion d = some w') :
    ∃ m server, w.Calm no m server ∧ { w with server := server }.move m = some w' := by
  obtain ⟨past, hcustody⟩ := h.custody
  obtain ⟨due, hdue, hremoval⟩ := hcustody.removal_eq hd
  have hanswer : w.server.endDelete (w.removal d) =
      (.ok (), { w.server with cluster := (w.server.cluster.delete d.id).2 }) := by
    rw [hremoval, ← (Cluster.delete_of_mem (hcustody.deletion_exists hd)).1]
    rfl
  unfold turnDeletion at hturn
  dsimp only at hturn
  rw [hanswer, if_pos (by rw [hremoval]; exact hdue)] at hturn
  exact ⟨_, _, .deleted d hd, hturn⟩

theorem calm_of_turnMonitor {k : Monitor} (hk : k ∈ w.engine.monitors) (hturn : w.turnMonitor k = some w') :
    ∃ m server, w.Calm no m server ∧ { w with server := server }.move m = some w' := by
  unfold turnMonitor at hturn
  split at hturn
  · rename_i hwatch
    exact ⟨_, _, .attached k hk hwatch, hturn⟩
  · rename_i stream hwatch
    split at hturn
    · cases hturn
    · rename_i r server hread
      exact ⟨_, _, .heard k hk stream hwatch r server hread, hturn⟩
    · exact ⟨_, _, .ended k hk, hturn⟩

theorem calm_of_turnCall (h : w.Undisturbed rate) {call : Call} (hcall : w.engine.call? call.no = some call)
    (hturn : w.turnCall call = some w') :
    ∃ m server, w.Calm call.no m server ∧ { w with server := server }.move m = some w' := by
  unfold turnCall at hturn
  rw [h.unnoticed hcall] at hturn
  cases hpoint : call.point with
  | fresh purpose =>
    rw [hpoint] at hturn
    exact ⟨_, _, .goesOn _ (Or.inl rfl) call hcall (by rw [hpoint]; rfl) (by rw [hpoint]; rfl), hturn⟩
  | createPause | pausing =>
    rw [hpoint] at hturn
    exact ⟨_, _, .goesOn _ (Or.inr rfl) call hcall (by rw [hpoint]; rfl) (by rw [hpoint]; rfl), hturn⟩
  | creating client a since =>
    rw [hpoint] at hturn
    have hdue := h.createDue_eq since
    by_cases hlater : since ≤ w.now
    · have hcreated := h.untroubled.endCreate.1
      replace hturn : { w with server := { w.server with cluster := w.server.cluster.endCreate.2 } }.move
          (.created call.no w.server.cluster.endCreate.1) = some w' := by
        simpa [hdue, hlater] using hturn
      rw [hcreated] at hturn
      refine ⟨_, _, .created call hcall (by rw [hpoint]; rfl) _ (congrArg Prod.fst hcreated), ?_⟩
      rwa [hcreated]
    · -- what is still to begin has not taken too long
      have hearly : w.engine.now < since + w.setup.createTimeout.waitMillis := by
        have : w.now = w.engine.now := rfl
        omega
      have hexpired : w.move (.createExpired call.no) = none := by
        rw [move_eq_none_iff]
        simp [Engine.step, hcall, hpoint, hearly]
      simp [hdue, hlater, hexpired] at hturn
  | operating a k since =>
    rw [hpoint] at hturn
    -- the operations of an undisturbed world take no time and answer what the server says
    have hdeed : w.deeds call.no (call.started - 1) = ⟨false, 0, none⟩ := by rw [h.deeds]
    simp only [hdeed, Option.orElse_none] at hturn
    obtain ⟨-, hturn⟩ := Option.ite_none_right_eq_some.mp hturn
    exact ⟨_, _, .operated call hcall a k since hpoint, hturn⟩
  | deleting =>
    rw [hpoint] at hturn
    simp only [Option.orElse_none] at hturn
    rw [Option.orElse_eq_or, Option.or_eq_some_iff] at hturn
    rcases hturn with hdeleted | ⟨-, hproceed⟩
    · obtain ⟨d, hd, hturn⟩ := List.exists_of_findSome?_eq_some hdeleted
      exact h.calm_of_turnDeletion (List.mem_filter.mp hd).1 hturn
    · exact ⟨_, _, .proceeds call hcall (by rw [hpoint]; rfl), hproceed⟩
  | draining | settling =>
    rw [hpoint] at hturn
    exact ⟨_, _, .proceeds call hcall (by rw [hpoint]; rfl), hturn⟩

/-- Whatever a task does in its turn is one of these. -/
theorem calm_of_turn (h : w.Undisturbed rate) (hturn : w.turn no = some w') :
    ∃ m server, w.Calm no m server ∧ { w with server := server }.move m = some w' := by
  unfold turn at hturn
  split at hturn
  · rename_i call hcall
    obtain ⟨-, rfl⟩ := Engine.mem_of_call? hcall
    exact h.calm_of_turnCall hcall hturn
  · split at hturn
    · rename_i k hk
      exact calm_of_turnMonitor (Engine.mem_of_monitor? hk).1 hturn
    · split at hturn
      · rename_i d hd
        exact h.calm_of_turnDeletion (List.mem_of_find?_eq_some hd) hturn
      · cases hturn

/-- What the pool does in such a turn, the world hears after that. -/
theorem exists_step (h : w.Undisturbed rate) (hturn : w.turn no = some w') :
    ∃ m server e, w.Calm no m server ∧ w.engine.step w.setup m = some e ∧
      w' = hearAll { w with server := server } e := by
  obtain ⟨past, hcustody⟩ := h.custody
  obtain ⟨m, server, hcalm, hmove⟩ := h.calm_of_turn hturn
  obtain ⟨e, hstep, rfl⟩ := exists_of_move (w := { w with server := server }) hcustody.detached hmove
  exact ⟨m, server, e, hcalm, hstep, rfl⟩

/-- Nobody is cancelled in such a turn. -/
theorem not_cancelled_of_step (h : w.Undisturbed rate) {m : Move DriverError Int} {server : Server}
    {e : Engine DriverError Int} (hcalm : w.Calm no m server) (hstep : w.engine.step w.setup m = some e)
    (token : Token) : e.isCancelled token = false := by
  rw [Engine.isCancelled, Engine.cancelled_of_calm h.observer hcalm.isCalm hstep, h.cancelled]
  rfl

/-! ## What is kept -/

theorem creating_pos (h : w.Undisturbed rate) {call : Call} (hcall : w.engine.call? no = some call)
    (hcreating : call.point.isCreating = true) : 0 < w.server.cluster.creating := by
  rw [h.laden]
  refine List.countP_pos_iff.mpr ⟨_, Engine.mem_stops (Engine.mem_of_call? hcall).1, ?_⟩
  rw [Point.isCreating_roused]
  exact hcreating

/-- A calm server stays so: it counts its creations, and scripts no failures. -/
theorem server_of_calm (h : w.Undisturbed rate) {m : Move DriverError Int} {server : Server}
    (hcalm : w.Calm no m server) : server.latency = .zero ∧ server.cluster.Untroubled rate ∧
      server.cluster.creating = w.engine.itinerary.flights - m.isAnswer.toNat ∧
      server.cluster.createCalls = server.cluster.created + server.cluster.creating := by
  -- most of what happens neither begins nor ends a creation
  have heven : ∀ {server : Server}, server.latency = w.server.latency → server.cluster.Untroubled rate →
      w.server.cluster.Even server.cluster → server.cluster.created = w.server.cluster.created →
      server.latency = .zero ∧ server.cluster.Untroubled rate ∧
        server.cluster.creating = w.engine.itinerary.flights ∧
        server.cluster.createCalls = server.cluster.created + server.cluster.creating := by
    intro server hlatency huntroubled heven hcreated
    refine ⟨hlatency.trans h.latency, huntroubled, heven.creating.trans h.laden, ?_⟩
    rw [heven.createCalls, heven.creating, hcreated, h.called]
  have hsame := heven rfl h.untroubled .rfl rfl
  cases hcalm with
  | goesOn m hm => rcases hm with rfl | rfl <;> exact hsame
  | proceeds => exact hsame
  | created call hcall hcreating =>
    have hpos := h.creating_pos hcall hcreating
    have hladen := h.laden
    obtain ⟨hends, huntroubled⟩ := h.untroubled.endCreate
    refine ⟨h.latency, huntroubled, ?_, ?_⟩
    · rw [hends]
      show w.server.cluster.creating - 1 = _ - 1
      rw [h.laden]
    · rw [hends]
      show w.server.cluster.createCalls = w.server.cluster.created + 1 + (w.server.cluster.creating - 1)
      rw [h.called]
      omega
  | operated call hcall a k =>
    exact heven rfl (h.untroubled.operate k.id) (w.server.cluster.even_operate k.id)
      (w.server.cluster.steady_operate k.id).created
  | attached k =>
    refine heven ?_ ?_ (w.server.even_attach k.id) (w.server.steady_attach k.id).cluster.created
    · unfold Server.attach
      split <;> rfl
    · unfold Server.attach
      split
      · exact h.untroubled
      · exact h.untroubled.attach k.id
  | heard k hk stream hwatch r server hread =>
    have hserver : server = (w.server.read stream).2 := by rw [hread]
    rw [hserver]
    refine heven ?_ ?_ (w.server.even_read stream) (w.server.steady_read stream).cluster.created
    all_goals
      unfold Server.read
      repeat' split
      all_goals first
        | rfl
        | exact ⟨h.untroubled.createFailures, h.untroubled.operationFailures, h.untroubled.failureRate,
            h.untroubled.alive⟩
  | ended => exact hsame
  | deleted d hd =>
    obtain ⟨past, hcustody⟩ := h.custody
    exact heven rfl (h.untroubled.delete d.id) (w.server.cluster.even_delete d.id)
      (Cluster.delete_of_mem (hcustody.deletion_exists hd)).2.2.1

/-- Whoever is in flight for a call that moves has been answered. -/
theorem point_of_calm {m : Move DriverError Int} {server : Server} (hcalm : w.Calm no m server)
    {call : Call} (hcall : w.engine.call? call.no = some call) (hm : m.call? = some call.no) :
    m.isAnswer = true ∨ call.point.isCreating = false := by
  have hsame : ∀ call', w.engine.call? no = some call' → no = call.no → call' = call := by
    rintro call' hcall' rfl
    exact Option.some.inj (hcall'.symm.trans hcall)
  cases hcalm with
  | goesOn m hmove call' hcall' hcreating =>
    have hno : no = call.no := by rcases hmove with rfl | rfl <;> exact Option.some.inj hm
    exact Or.inr (hsame call' hcall' hno ▸ hcreating)
  | proceeds call' hcall' hcloses =>
    rw [← hsame call' hcall' (Option.some.inj hm)]
    exact Or.inr (by cases hpoint : call'.point <;> first | rfl | (rw [hpoint] at hcloses; cases hcloses))
  | created => exact Or.inl rfl
  | operated call' hcall' a k since hpoint =>
    rw [← hsame call' hcall' (Option.some.inj hm), hpoint]
    exact Or.inr rfl
  | attached | heard | ended | deleted => cases hm

/-- In a turn no creation is given up. -/
theorem giveUp_notMem (h : w.Undisturbed rate) {m : Move DriverError Int} {server : Server}
    {e : Engine DriverError Int} (hcalm : w.Calm no m server) (hstep : w.engine.step w.setup m = some e) :
    .giveUp ∉ e.itinerary.requests.map (·.2) := by
  have hnothing : w.engine.itinerary.requests = [] := by
    obtain ⟨past, hcustody⟩ := h.custody
    rw [Engine.itinerary, hcustody.signals]
    rfl
  cases Engine.travels_of_step hstep with
  | stays hm hi => rw [hi, hnothing]; exact List.not_mem_nil
  | comes purpose token hm hi => rw [hi, hnothing]; exact List.not_mem_nil
  | goes call hcall hm asked p hleg hi =>
    have hasked : e.itinerary.requests.map (·.2) = asked := by
      rw [hi, Itinerary.go, hnothing, List.nil_append, List.map_map]
      exact List.map_id _
    rw [hasked, ← List.count_pos_iff]
    have hbalance := hleg.balance.2.1
    have hle : call.point.flights ≤ 1 := by
      unfold Point.flights
      split <;> omega
    rcases point_of_calm hcalm hcall hm with hanswer | hnot
    · have hone : m.isAnswer.toNat = 1 := by rw [hanswer]; rfl
      omega
    · have hzero : call.point.flights = 0 := by rw [Point.flights, hnot]; rfl
      omega

/-- An undisturbed world stays so, if a closing that waits for its own deletions is left alone. -/
theorem turn (h : w.Undisturbed rate) (hguard : (w.engine.call? no).isSome → ∀ k ∈ w.awaited, k = no)
    (hturn : w.turn no = some w') : w'.Undisturbed rate := by
  obtain ⟨past, hcustody⟩ := h.custody
  obtain ⟨m, server, hcalm, hmove⟩ := h.calm_of_turn hturn
  obtain ⟨hlatency, huntroubled, hcreating, hcalled⟩ := h.server_of_calm hcalm
  have hladen := (laden_of_move hcustody hcreating hmove).1
  obtain ⟨m', server', hheeds, hmove'⟩ := hcustody.heeds_of_turn hguard hturn
  obtain ⟨e, hstep, rfl⟩ := exists_of_move (w := { w with server := server }) hcustody.detached hmove
  have hheard := heard_hearAll { w with server := server } e
  have hengine := engine_hearAll (w := { w with server := server }) h.deeds e
  have horderly := Engine.orderly_of_step h.orderly hstep
  have hserves := h.serves.step h.orderly hstep fun token => hcalm.ne_call .lease token
  refine
    { custody := ⟨_, hcustody.of_heeds hheeds hmove'⟩
      whole := h.whole.of_heeds hcustody hheeds hmove'
      laden := hladen
      orderly := by rw [hengine]; exact { horderly with }
      serves := by rw [hengine]; exact { hserves with }
      cancelled := by
        rw [hengine]
        exact (Engine.cancelled_of_calm h.observer hcalm.isCalm hstep).trans h.cancelled
      observer := by rw [hheard.setup]; exact h.observer
      deeds := hheard.deeds.trans h.deeds
      latency := by rw [server_hearAll]; exact hlatency
      untroubled := by rw [server_hearAll]; exact huntroubled.heed _
      called := ?_ }
  rw [server_hearAll]
  exact Cluster.called_heed (h.giveUp_notMem hcalm hstep) hcalled

/-- A turn changes nothing about how the pool is set up, gives no number away twice, and leaves a pool that
executes operations at that. -/
theorem keeps_of_turn (h : w.Undisturbed rate) (hturn : w.turn no = some w') :
    w'.setup = w.setup ∧ w.engine.nextNo ≤ w'.engine.nextNo ∧
      (w.engine.Executing → w'.engine.Executing) := by
  obtain ⟨past, hcustody⟩ := h.custody
  obtain ⟨m, server, e, hcalm, hstep, rfl⟩ := h.exists_step hturn
  rw [engine_hearAll (w := { w with server := server }) h.deeds]
  refine ⟨(heard_hearAll { w with server := server } e).setup, (Engine.le_of_step hstep).1, fun hexecuting => ?_⟩
  exact { hexecuting.step h.orderly hcustody.atRest hcalm.isCalm hstep with }

/-- A turn takes no time. -/
theorem now_of_turn (h : w.Undisturbed rate) (hturn : w.turn no = some w') : w'.now = w.now := by
  obtain ⟨m, server, e, hcalm, hstep, rfl⟩ := h.exists_step hturn
  refine (heard_hearAll { w with server := server } e).now.trans ?_
  show e.itinerary.now = w.engine.itinerary.now
  have hcalm := hcalm.isCalm
  cases Engine.travels_of_step hstep with
  | stays hm hi =>
    rw [hi]
    cases m with
    | advance => cases hcalm
    | _ => rfl
  | comes purpose token hm => rw [hm] at hcalm; cases hcalm
  | goes call hcall hm asked p hleg hi =>
    rw [hi]
    rfl

/-! ## What is left to do -/

theorem effort_hearAll (hdeeds : w.deeds = fun _ _ => ⟨false, 0, none⟩) (e : Engine DriverError Int) :
    (w.hearAll e).effort = e.effort (w.hearAll e).setup.operations.policy + w.server.cluster.live +
      w.server.cluster.unread := by
  obtain ⟨calls, creating, peak, heq⟩ :=
    Cluster.foldl_heed (e.itinerary.requests.map (·.2)) w.server.cluster
  rw [effort, server_hearAll, engine_hearAll hdeeds, heq]
  rfl

/-- When a monitor moves, less is left to do: a message that it has been sent by attaching is less than what
it had to do before. -/
theorem effort_attached (h : w.Undisturbed rate) {e : Engine DriverError Int} {k : Monitor}
    (hstep : w.engine.step w.setup (.attached k.no (w.server.attach k.id).1) = some e) :
    e.watching + (w.server.attach k.id).2.cluster.unread < w.engine.watching + w.server.cluster.unread := by
  obtain ⟨past, hcustody⟩ := h.custody
  have hfails : ∀ error, (w.server.attach k.id).1 = .error error → e.watching < w.engine.watching := by
    intro error herror
    rw [herror] at hstep
    exact Engine.watching_lt_of_condemned hcustody.atRest.tables.names_nodup hcustody.monitors_nodup rfl hstep
  unfold Server.attach at hstep hfails ⊢
  cases hfault : w.server.attachFailures.lookup k.id with
  | some error =>
    simp only [hfault] at hfails ⊢
    exact Nat.add_lt_add_right (hfails error rfl) _
  | none =>
    simp only [hfault] at hstep hfails ⊢
    rcases w.server.cluster.unread_attach k.id with ⟨error, heq⟩ | ⟨⟨stream, hok⟩, hunread⟩
    · rw [heq] at hfails ⊢
      exact Nat.add_lt_add_right (hfails error rfl) _
    · rw [hok] at hstep
      rw [hunread]
      cases Engine.relieves_of_step hcustody.atRest.tables.names_nodup hstep with
      | attends hm => cases hm
      | registers _ _ hm => cases hm
      | condemns _ _ hm => cases hm
      | listens j hj stream' hm hwatch _ _ hmonitors =>
        have := Engine.watching_listens hcustody.monitors_nodup hj hwatch hmonitors
        omega

/-- A message that has been heard is gone. -/
theorem effort_heard (h : w.Undisturbed rate) {e : Engine DriverError Int} {k : Monitor} {stream : StreamNo}
    {r : Except RpcError SessionStatus} {server : Server} (hread : w.server.read stream = (.message r, server))
    (hnd : (e.monitors.map (·.no)).Nodup) (hstep : w.engine.step w.setup (.heard k.no r) = some e) :
    e.watching + server.cluster.unread < w.engine.watching + w.server.cluster.unread := by
  obtain ⟨past, hcustody⟩ := h.custody
  have hnames := hcustody.atRest.tables.names_nodup
  unfold Server.read at hread
  split at hread
  · cases hread
    exact Nat.add_lt_add_right
      (Engine.watching_lt_of_condemned hnames hcustody.monitors_nodup rfl hstep) _
  · split at hread
    · cases hread
    · rename_i s hs
      split at hread
      · rename_i status rest hwaiting
        cases hread
        have hunread := Cluster.unread_takeMessage hs hwaiting
        -- one message less is unread, and nobody watches more than before
        have hwatching : e.watching ≤ w.engine.watching := by
          cases status with
          | ready =>
            exact Engine.watching_le_of_subset
              (Engine.monitors_subset_of_step hnames rfl rfl hstep) (List.Nodup.of_map _ hnd)
          | unusable code =>
            exact (Engine.watching_lt_of_condemned hnames hcustody.monitors_nodup rfl hstep).le
        show e.watching + (w.server.cluster.takeMessage stream).unread < _
        omega
      · split at hread <;> cases hread

/-- Of a session that has been deleted nothing is left to do. -/
theorem effort_deleted (h : w.Undisturbed rate) {e : Engine DriverError Int} {d : Deletion}
    (hd : d ∈ w.engine.deletions) (hnd : (e.monitors.map (·.no)).Nodup)
    (hstep : w.engine.step w.setup (.deleted d.no (.ok ())) = some e) :
    e.watching + (w.server.cluster.delete d.id).2.live + (w.server.cluster.delete d.id).2.unread <
      w.engine.watching + w.server.cluster.live + w.server.cluster.unread := by
  obtain ⟨past, hcustody⟩ := h.custody
  have hwatching : e.watching ≤ w.engine.watching := Engine.watching_le_of_subset
    (Engine.monitors_subset_of_step hcustody.atRest.tables.names_nodup rfl rfl hstep) (List.Nodup.of_map _ hnd)
  have hexists := hcustody.deletion_exists hd
  have hbefore := hcustody.balanced.conserved
  have hafter := (hcustody.balanced.delete hexists).conserved
  obtain ⟨-, -, hcreated, hdeleted⟩ := Cluster.delete_of_mem hexists
  rw [w.server.cluster.unread_delete d.id]
  omega

section Steps

variable {m : Move DriverError Int} {server : Server} {e : Engine DriverError Int}

/-- What a monitor or a deletion does changes nothing about what the calls have left to do. -/
theorem effort_of_task (hcalm : w.Calm no m server) (hstep : w.engine.step w.setup m = some e) (hm : m.call? = none)
    (hless : e.watching + server.cluster.live + server.cluster.unread <
      w.engine.watching + w.server.cluster.live + w.server.cluster.unread) :
    ({ w with engine := e, server := server } : World).effort < w.effort := by
  have hsame := Engine.effort_itinerary_of_task w.setup.operations.policy hm hcalm.ne_call hstep
  show e.itinerary.effort w.setup.operations.policy + e.watching + server.cluster.live + server.cluster.unread <
    w.engine.itinerary.effort w.setup.operations.policy + w.engine.watching + _ + _
  rw [hsame]
  omega

/-- A call that does not wait for the server goes on to less. -/
theorem effort_of_call (h : w.Undisturbed rate) (hcalm : w.Calm no m server)
    (hstep : w.engine.step w.setup m = some e) (hnd : (e.monitors.map (·.no)).Nodup) (call : Call)
    (hcall : w.engine.call? no = some call) (hm : m.call? = some no) (hdecides : m.decides = false)
    (hanswer : m.isAnswer = false) (hcreating : call.point.isCreating = false)
    (hcloses : call.point.closes = false) :
    e.effort w.setup.operations.policy < w.engine.effort w.setup.operations.policy := by
  obtain ⟨past, hcustody⟩ := h.custody
  obtain ⟨hin, rfl⟩ := Engine.mem_of_call? hcall
  have hsub := Engine.monitors_subset_of_step hcustody.atRest.tables.names_nodup hdecides hanswer hstep
  exact Engine.effort_lt_of_step h.orderly hsub hnd hcall hm hcalm.ne_call hanswer (h.serves.purpose call hin)
    hcreating hcloses hstep

/-- A session that has been created is more to do, but no more than the call has less to do. -/
theorem effort_of_created (h : w.Undisturbed rate) {s : SessionInfo}
    (hstep : w.engine.step w.setup (.created no (.ok s)) = some e) (hnd : (e.monitors.map (·.no)).Nodup)
    {call : Call} (hcall : w.engine.call? no = some call) (hcreating : call.point.isCreating = true) :
    ({ w with engine := e, server.cluster := w.server.cluster.endCreate.2 } : World).effort < w.effort := by
  have hexecutes : call.point.executes = true := by
    have hserves := h.serves.purpose call (Engine.mem_of_call? hcall).1
    cases hpoint : call.point with
    | creating client =>
      cases client with
      | caller =>
        rw [hpoint] at hserves
        exact absurd rfl hserves
      | attempt => rfl
    | _ =>
      rw [hpoint] at hcreating
      cases hcreating
  have hless := Engine.effort_created w.setup.operations.policy h.orderly hnd
    (fun call' hcall' => Option.some.inj (hcall.symm.trans hcall') ▸ hexecutes) hstep
  show e.effort w.setup.operations.policy + w.server.cluster.endCreate.2.live +
    w.server.cluster.endCreate.2.unread < w.effort
  obtain ⟨hends, -⟩ := h.untroubled.endCreate
  have hlive : w.server.cluster.endCreate.2.live = w.server.cluster.live + 1 := by rw [hends]; rfl
  have hunread : w.server.cluster.endCreate.2.unread = w.server.cluster.unread := by rw [hends]; rfl
  rw [hlive, hunread, effort]
  omega

end Steps

/-- In every turn something is done, so that less is left. -/
theorem effort_turn (h : w.Undisturbed rate)
    (hpending : ∀ call, w.engine.call? no = some call → call.point.closes = true → w.engine.pool.pending = 0)
    (hturn : w.turn no = some w') (hkept : w'.Undisturbed rate) : w'.effort < w.effort := by
  obtain ⟨past, hcustody⟩ := h.custody
  obtain ⟨past', hcustody'⟩ := hkept.custody
  obtain ⟨m, server, e, hcalm, hstep, rfl⟩ := h.exists_step hturn
  have hnd : (e.monitors.map (·.no)).Nodup := by
    have := hcustody'.monitors_nodup
    rwa [engine_hearAll (w := { w with server := server }) h.deeds] at this
  rw [effort_hearAll (w := { w with server := server }) h.deeds, (heard_hearAll _ e).setup]
  -- if the server has the same sessions and messages, it is the pool that has less to do
  have hsteady : server.cluster.live = w.server.cluster.live → server.cluster.unread = w.server.cluster.unread →
      e.effort w.setup.operations.policy < w.engine.effort w.setup.operations.policy →
      ({ w with engine := e, server := server } : World).effort < w.effort := by
    intro hlive hunread hless
    show _ + server.cluster.live + server.cluster.unread < w.effort
    rw [hlive, hunread]
    exact Nat.add_lt_add_right (Nat.add_lt_add_right hless _) _
  have hcall := h.effort_of_call hcalm hstep hnd
  have htask := effort_of_task hcalm hstep
  cases hcalm with
  | goesOn m hm call hgoes hcreating hcloses =>
    exact hsteady rfl rfl (by rcases hm with rfl | rfl <;> exact hcall call hgoes rfl rfl rfl hcreating hcloses)
  | proceeds call hgoes hcloses =>
    obtain ⟨hin, rfl⟩ := Engine.mem_of_call? hgoes
    have hproceed : w.engine.proceed call = some e := by
      simpa [Engine.step, hgoes] using hstep
    obtain ⟨hmonitors, p, hi, hlt⟩ := Engine.proceeds_to_less w.setup.operations.policy
      (hpending call hgoes hcloses) hproceed
    exact hsteady rfl rfl (Engine.effort_lt_of_leg h.orderly (hmonitors ▸ List.Subset.refl _) hnd hin hi hlt)
  | created call hgoes hcreating s =>
    have hless := h.effort_of_created hstep hnd hgoes hcreating
    exact hless
  | operated call hgoes a k since hpoint =>
    refine hsteady (Cluster.live_of_steady (w.server.cluster.steady_operate k.id))
      (Cluster.unread_operate h.untroubled.operationFailures k.id) ?_
    exact hcall call hgoes rfl rfl rfl (by rw [hpoint]; rfl) (by rw [hpoint]; rfl)
  | attached k =>
    refine htask rfl ?_
    have hless := h.effort_attached hstep
    rw [Cluster.live_of_steady (w.server.steady_attach k.id).cluster]
    omega
  | heard k hk stream hwatch r server hread =>
    refine htask rfl ?_
    have hless := h.effort_heard hread hnd hstep
    have hserver : server = (w.server.read stream).2 := by rw [hread]
    rw [Cluster.live_of_steady (hserver ▸ (w.server.steady_read stream).cluster)]
    omega
  | ended k =>
    refine htask rfl ?_
    have hless := Engine.watching_lt_of_condemned hcustody.atRest.tables.names_nodup hcustody.monitors_nodup rfl hstep
    omega
  | deleted d hd => exact htask rfl (h.effort_deleted hd hnd hstep)

end Undisturbed

end World

end PooledSessions
