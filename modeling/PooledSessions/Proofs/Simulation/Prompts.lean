import PooledSessions.Proofs.Simulation.Custody
import PooledSessions.Proofs.Pool.Itinerary
/-!
# What prompts a move

When one of its tasks is given a turn, a world first lets the server answer, if the task waits for an
answer, and then lets the pool make a move (`World.Prompts`).  Of everything that happens, it can be told
in the same way what it does to the server and which move of the pool it causes (`World.Causes`).

What the pool tells in that move is heard:
of all that is told, only what is asked for creations reaches the cluster (`World.server_hearAll`), and
nothing else about the server changes.
-/

namespace PooledSessions

/-- What is asked for a call as the cluster takes it: a creation begins or is given up. -/
def Cluster.heed (c : Cluster) : Request → Cluster
  | .create => c.beginCreate
  | .giveUp => c.abandonCreate
  | .operate => c

/-- What is asked for creations changes only what the cluster counts of them. -/
theorem Cluster.foldl_heed (asked : List Request) (c : Cluster) : ∃ calls creating peak,
    asked.foldl heed c = { c with createCalls := calls, creating := creating, peakLoad := peak } := by
  induction asked generalizing c with
  | nil => exact ⟨_, _, _, rfl⟩
  | cons r asked ih =>
    obtain ⟨calls, creating, peak, heq⟩ := ih (c.heed r)
    refine ⟨calls, creating, peak, ?_⟩
    rw [List.foldl_cons, heq]
    cases r <;> rfl

/-- Whether a task makes the move without an answer of the server or of an operation. -/
def Move.isAlone {ε α : Type} : Move ε α → Bool
  | .start _ => true
  | .createExpired _ => true
  | .woken _ => true
  | .noticed _ => true
  | .proceed _ => true
  | .deletionExpired _ => true
  | _ => false

namespace World

/-! ## What is heard by the cluster -/

theorem server_hear (w : World) (s : Signal DriverError Int) :
    (w.hear s).server = { w.server with
      cluster := (s.request?.toList.map (·.2)).foldl Cluster.heed w.server.cluster } := by
  cases s with
  | operationStarted no info =>
    unfold hear
    dsimp only
    split
    · split <;> rfl
    · rfl
  | _ => rfl

theorem server_foldl (told : List (Signal DriverError Int)) (w : World) :
    (told.foldl hear w).server = { w.server with
      cluster := ((told.filterMap Signal.request?).map (·.2)).foldl Cluster.heed w.server.cluster } := by
  induction told generalizing w with
  | nil => rfl
  | cons s told ih =>
    rw [List.foldl_cons, ih, server_hear]
    cases hs : s.request? with
    | none => rw [List.filterMap_cons_none hs]; rfl
    | some r => rw [List.filterMap_cons_some hs]; rfl

/-- Of what is told in a move, the server hears what is asked for creations. -/
theorem server_hearAll (w : World) (e : Engine DriverError Int) :
    (w.hearAll e).server = { w.server with
      cluster := (e.itinerary.requests.map (·.2)).foldl Cluster.heed w.server.cluster } :=
  server_foldl e.signals _

/-! ## What a task does in its turn -/

/-- The moves that a world may make when it gives a turn to a task, with the server as it is when the
pool makes them. -/
inductive Prompts (w : World) (no : TaskNo) : Move DriverError Int → Server → Prop
  /-- Nobody is asked. -/
  | alone (m : Move DriverError Int) (hm : m.isAlone = true) : Prompts w no m w.server
  /-- The server answers a creation. -/
  | created : Prompts w no (.created no w.server.cluster.endCreate.1)
      { w.server with cluster := w.server.cluster.endCreate.2 }
  /-- An operation answers what it was told to answer. -/
  | answered (cancels : Bool) (result : Except DriverError Int) :
      Prompts w no (.operated no cancels result) w.server
  /-- An operation answers what it has seen on the server's session. -/
  | operated (call : Call) (hcall : w.engine.call? no = some call) (a : Attempt) (k : Handle)
      (since : Nat) (hpoint : call.point = .operating a k since)
      (hdeed : (w.deeds no (call.started - 1)).result = none) (cancels : Bool)
      (result : Except DriverError Int) : Prompts w no (.operated no cancels result)
        { w.server with cluster := (w.server.cluster.operate k.id).2 }
  /-- A monitor attaches to its session. -/
  | attached (k : Monitor) (hk : k ∈ w.engine.monitors) (hwatch : k.watch = .attaching) :
      Prompts w no (.attached k.no (w.server.attach k.id).1) (w.server.attach k.id).2
  /-- A monitor hears what is on its stream. -/
  | heard (k : Monitor) (hk : k ∈ w.engine.monitors) (stream : StreamNo)
      (hwatch : k.watch = .listening stream) (r : Except RpcError SessionStatus) (server : Server)
      (hread : w.server.read stream = (.message r, server)) : Prompts w no (.heard k.no r) server
  /-- The stream of a monitor has ended. -/
  | ended (k : Monitor) (hk : k ∈ w.engine.monitors) (stream : StreamNo)
      (hwatch : k.watch = .listening stream) (hread : (w.server.read stream).1 = .ended) :
      Prompts w no (.streamEnded k.no) w.server
  /-- The server answers a deletion. -/
  | deleted (d : Deletion) (hending : w.ending? no = some d) :
      Prompts w no (.deleted d.no (w.server.endDelete (w.removal d)).1)
        (w.server.endDelete (w.removal d)).2

variable {w w' : World} {no : TaskNo}

theorem prompts_of_turnDeletion {d : Deletion} (hending : w.ending? no = some d)
    (hturn : w.turnDeletion d = some w') :
    ∃ m server, w.Prompts no m server ∧ { w with server := server }.move m = some w' := by
  unfold turnDeletion at hturn
  dsimp only at hturn
  split at hturn
  · exact ⟨_, _, .deleted d hending, hturn⟩
  · exact ⟨_, _, .alone (.deletionExpired d.no) rfl, hturn⟩

theorem prompts_of_turnMonitor {k : Monitor} (hk : k ∈ w.engine.monitors)
    (hturn : w.turnMonitor k = some w') :
    ∃ m server, w.Prompts no m server ∧ { w with server := server }.move m = some w' := by
  unfold turnMonitor at hturn
  split at hturn
  · rename_i hwatch
    exact ⟨_, _, .attached k hk hwatch, hturn⟩
  · rename_i stream hwatch
    split at hturn
    · cases hturn
    · rename_i r server hread
      exact ⟨_, _, .heard k hk stream hwatch r server hread, hturn⟩
    · rename_i server hread
      exact ⟨_, _, .ended k hk stream hwatch (congrArg Prod.fst hread), hturn⟩

theorem prompts_of_perform {call : Call} (hcall : w.engine.call? call.no = some call) {a : Attempt}
    {k : Handle} {since : Nat} (hpoint : call.point = .operating a k since) {d : Deed}
    (hd : d = w.deeds call.no (call.started - 1))
    (hturn : (w.perform d k.info).2.move (.operated call.no d.cancels (w.perform d k.info).1) = some w') :
    ∃ m server, w.Prompts call.no m server ∧ { w with server := server }.move m = some w' := by
  unfold perform at hturn
  cases hresult : d.result with
  | some r =>
    rw [hresult] at hturn
    exact ⟨_, _, .answered d.cancels r, hturn⟩
  | none =>
    rw [hresult] at hturn
    exact ⟨_, _, .operated call hcall a k since hpoint (hd ▸ hresult) d.cancels _, hturn⟩

theorem prompts_of_turnCall {call : Call} (hcall : w.engine.call? call.no = some call)
    (hturn : w.turnCall call = some w') :
    ∃ m server, w.Prompts call.no m server ∧ { w with server := server }.move m = some w' := by
  -- whoever is not waiting for an answer moves without the server
  have halone : ∀ m : Move DriverError Int, m.isAlone = true → w.move m = some w' →
      ∃ m server, w.Prompts call.no m server ∧ { w with server := server }.move m = some w' :=
    fun m hm hmove => ⟨m, w.server, .alone m hm, hmove⟩
  unfold turnCall at hturn
  rw [Option.orElse_eq_or, Option.or_eq_some_iff] at hturn
  rcases hturn with hnoticed | ⟨-, hturn⟩
  · exact halone (.noticed call.no) rfl hnoticed
  · split at hturn
    · exact halone (.start call.no) rfl hturn
    · split at hturn
      · exact ⟨_, _, .created, hturn⟩
      · exact halone (.createExpired call.no) rfl hturn
    · exact halone (.woken call.no) rfl hturn
    · rename_i a k since hpoint
      dsimp only at hturn
      split at hturn
      · exact prompts_of_perform hcall hpoint rfl hturn
      · cases hturn
    · exact halone (.woken call.no) rfl hturn
    · rename_i hpoint
      rw [Option.orElse_eq_or, Option.or_eq_some_iff] at hturn
      rcases hturn with hdeleted | ⟨-, hproceed⟩
      · -- the closing hears of the first of its deletions that ends
        obtain ⟨before, d, after, hlist, hd, hbefore⟩ := List.findSome?_eq_some_iff.mp hdeleted
        refine prompts_of_turnDeletion ?_ hd
        rw [ending?, hcall]
        refine (if_pos hpoint).trans (List.find?_eq_some_iff_append.mpr ?_)
        exact ⟨by simp [hd], before, after, hlist, fun k hk => by simp [hbefore k hk]⟩
      · exact halone (.proceed call.no) rfl hproceed
    · exact halone (.proceed call.no) rfl hturn
    · exact halone (.proceed call.no) rfl hturn

/-- Whatever a task does in its turn is one of these. -/
theorem prompts_of_turn (hturn : w.turn no = some w') :
    ∃ m server, w.Prompts no m server ∧ { w with server := server }.move m = some w' := by
  unfold turn at hturn
  split at hturn
  · rename_i call hcall
    obtain ⟨-, rfl⟩ := Engine.mem_of_call? hcall
    exact prompts_of_turnCall hcall hturn
  · rename_i hcall
    split at hturn
    · rename_i k hk
      exact prompts_of_turnMonitor (Engine.mem_of_monitor? hk).1 hturn
    · rename_i hk
      split at hturn
      · rename_i d hd
        exact prompts_of_turnDeletion (by rw [ending?, hcall, hk, hd]) hturn
      · cases hturn

/-! ## What happens -/

/-- What a happening does to the server, and the move that the pool makes then, if it makes one. -/
inductive Causes (w : World) : Happening → Option (Move DriverError Int) → Server → Prop
  /-- A task is given a turn. -/
  | turn (no : TaskNo) (m : Move DriverError Int) (server : Server) (hprompts : w.Prompts no m server) :
      Causes w (.turn no) (some m) server
  /-- Somebody outside acts. -/
  | act (m : Move DriverError Int) (houtside : m.isOutside = true) : Causes w (.act m) (some m) w.server
  /-- A step is taken at the server. -/
  | server (step : ServerStep) (hspares : step.sparesDeletions = true) :
      Causes w (.server step) none (w.server.take step).2
  /-- Somebody runs an operation. -/
  | operate (id : SessionId) :
      Causes w (.operate id) none { w.server with cluster := (w.server.cluster.operate id).2 }
  /-- Somebody attaches to a session. -/
  | attach (id : SessionId) : Causes w (.attach id) none (w.server.attach id).2

/-- Lets the pool make a move, if there is one to make. -/
def moveIf (w : World) (m : Option (Move DriverError Int)) : Option World := m.elim (some w) w.move

/-- Whatever happens is one of these. -/
theorem causes_of_happen {x : Happening} (hhappen : w.happen x = some w') :
    ∃ m server, w.Causes x m server ∧ ({ w with server := server } : World).moveIf m = some w' := by
  cases x with
  | turn no =>
    unfold World.happen at hhappen
    dsimp only at hhappen
    split at hhappen
    · obtain ⟨m, server, hprompts, hmove⟩ := prompts_of_turn hhappen
      exact ⟨some m, server, .turn no m server hprompts, hmove⟩
    · cases hhappen
  | act m =>
    unfold World.happen at hhappen
    dsimp only at hhappen
    split at hhappen
    · rename_i hguard
      exact ⟨some m, w.server, .act m hguard.1, hhappen⟩
    · cases hhappen
  | server step =>
    unfold World.happen at hhappen
    dsimp only at hhappen
    split at hhappen
    · rename_i hspares
      exact ⟨none, _, .server step hspares, hhappen⟩
    · cases hhappen
  | operate id => exact ⟨none, _, .operate id, hhappen⟩
  | attach id => exact ⟨none, _, .attach id, hhappen⟩

/-- In everything that happens the pool makes a move, of which the world hears, or stays as it is. -/
theorem step_of_happen {x : Happening} (hdetached : w.detached = []) (hhappen : w.happen x = some w') :
    (∃ m server e, w.engine.step w.setup m = some e ∧
        w' = ({ w with server := server } : World).hearAll e) ∨
      ∃ server, w' = { w with server := server } := by
  obtain ⟨m, server, -, hmove⟩ := causes_of_happen hhappen
  cases m with
  | none => exact Or.inr ⟨server, (Option.some.inj hmove).symm⟩
  | some m =>
    obtain ⟨e, hstep, heq⟩ := exists_of_move (w := { w with server := server }) hdetached hmove
    exact Or.inl ⟨m, server, e, hstep, heq⟩

/-- A pool is set up once and for all. -/
theorem setup_of_happen {x : Happening} (hdetached : w.detached = [])
    (hhappen : w.happen x = some w') : w'.setup = w.setup := by
  rcases step_of_happen hdetached hhappen with ⟨m, server, e, -, rfl⟩ | ⟨server, rfl⟩
  · exact (heard_hearAll _ e).setup
  · rfl

theorem setup_of_happenAt {x : Bool × Happening} (hdetached : w.detached = [])
    (hhappen : w.happenAt x = some w') : w'.setup = w.setup :=
  setup_of_happen (w := w.placed x.1) hdetached hhappen

theorem setup_of_run {past : List (SessionId × Option (Except RpcError Unit))} {xs : List (Bool × Happening)}
    (h : w.Custody past) (hrun : w.run xs = some w') : w'.setup = w.setup :=
  h.holds_of_run (P := fun u => u.setup = w.setup)
    (fun _ _ _ _ _ hu hhappen hsame => (setup_of_happenAt hu.detached hhappen).trans hsame) hrun rfl

end World

end PooledSessions
