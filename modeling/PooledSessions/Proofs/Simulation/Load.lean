import PooledSessions.Proofs.Simulation.Prompts
/-!
# The load of the server

The cluster counts the creations that it has begun and that have neither ended nor been given up, and the
pool counts the places that it keeps for creations.  The two counts are kept apart from each other.  In
every state between two happenings the creations on the cluster are those of the calls that wait for one
(`World.Laden`), each of which has a place.  Where deletions can be started, the pool so bounds what the server
carries: its tracked sessions, its places and the deletions under way.

As long as no session has left the pool, every session of the server is tracked by an open pool, and then the
sessions and the creations of the server, taken together, stay within the limit, wherever things happen
(`World.Roomy`).
-/

namespace PooledSessions

/-! ## Creations on the cluster -/

namespace Cluster

/-- No creation has begun or ended between two states of a cluster. -/
structure Even (c c' : Cluster) : Prop where
  /-- The same creations are under way. -/
  creating : c'.creating = c.creating
  /-- None has begun. -/
  createCalls : c'.createCalls = c.createCalls
  /-- The largest load is the same. -/
  peakLoad : c'.peakLoad = c.peakLoad

protected theorem Even.rfl {c : Cluster} : Even c c := ⟨rfl, rfl, rfl⟩

theorem Even.trans {c c' c'' : Cluster} (h : Even c c') (h' : Even c' c'') : Even c c'' :=
  ⟨h'.creating.trans h.creating, h'.createCalls.trans h.createCalls, h'.peakLoad.trans h.peakLoad⟩

theorem Even.of_tally {c c' : Cluster} (h : c'.tally = c.tally) : Even c c' :=
  ⟨congrArg Tally.creating h, congrArg Tally.createCalls h, congrArg Tally.peakLoad h⟩

theorem even_kill (c : Cluster) (id : SessionId) : Even c (c.kill id) := .of_tally (tally_kill c id)

theorem even_send (c : Cluster) (id : SessionId) (status : SessionStatus) :
    Even c (c.send id status) :=
  .of_tally (tally_send c id status)

theorem even_attach (c : Cluster) (id : SessionId) : Even c (c.attach id).2 := .of_tally (tally_attach c id)

theorem even_delete (c : Cluster) (id : SessionId) : Even c (c.delete id).2 := by
  unfold delete
  split
  · exact Even.rfl
  · rename_i s _
    exact (Even.of_tally (tally_endStream c s.stream)).trans ⟨rfl, rfl, rfl⟩

theorem even_operate (c : Cluster) (id : SessionId) : Even c (c.operate id).2 := by
  obtain ⟨n, htally⟩ := c.tally_operate id
  exact ⟨congrArg Tally.creating htally, congrArg Tally.createCalls htally, congrArg Tally.peakLoad htally⟩

/-- A creation that is answered is no longer under way. -/
theorem counts_endCreate (c : Cluster) : c.endCreate.2.creating = c.creating - 1 ∧
    c.endCreate.2.createCalls = c.createCalls ∧ c.endCreate.2.peakLoad = c.peakLoad := by
  unfold endCreate
  dsimp only
  split <;> exact ⟨rfl, rfl, rfl⟩

/-- At most one creation has begun between two states of a cluster, and if so, the load that it led to has
been noted. -/
def Notes (c c' : Cluster) : Prop :=
  (c'.createCalls = c.createCalls ∧ c'.peakLoad = c.peakLoad) ∨
    (c'.createCalls = c.createCalls + 1 ∧ c'.peakLoad = max c.peakLoad (c'.live + c'.creating))

theorem Even.notes {c c' : Cluster} (h : Even c c') : c.Notes c' := Or.inl ⟨h.createCalls, h.peakLoad⟩

end Cluster

theorem Server.even_take (s : Server) (step : ServerStep) :
    s.cluster.Even (s.take step).2.cluster := by
  cases step with
  | kill id => exact s.cluster.even_kill id
  | send id status => exact s.cluster.even_send id status
  | _ => exact ⟨rfl, rfl, rfl⟩

theorem Server.even_attach (s : Server) (id : SessionId) :
    s.cluster.Even (s.attach id).2.cluster := by
  unfold Server.attach
  split
  · exact .rfl
  · exact s.cluster.even_attach id

theorem Server.even_read (s : Server) (n : StreamNo) : s.cluster.Even (s.read n).2.cluster := by
  unfold Server.read
  repeat' split
  all_goals exact ⟨rfl, rfl, rfl⟩

theorem Server.even_endDelete (s : Server) (r : Removal) :
    s.cluster.Even (s.endDelete r).2.cluster := by
  unfold Server.endDelete
  split
  · exact .rfl
  · exact s.cluster.even_delete r.id

/-! ## Creations of the calls -/

/-- How many creations a call that waits at the point waits for. -/
def Point.flights (p : Point) : Nat := if p.isCreating then 1 else 0

/-- How many creations a call waits for after a leg. -/
def Point.flights? (p : Option Point) : Nat := p.elim 0 Point.flights

/-- How many creations the calls wait for. -/
def Itinerary.flights (i : Itinerary) : Nat := i.stops.countP (·.2.isCreating)

theorem Point.isCreating_roused (p : Point) : p.roused.isCreating = p.isCreating := by
  cases p <;> rfl

/-- The creations that the other calls wait for stay the same when a call goes a leg. -/
theorem Itinerary.flights_go {i : Itinerary} {no : TaskNo} {p : Point}
    (hnd : (i.stops.map (·.1)).Nodup) (hin : (no, p.roused) ∈ i.stops) (asked : List Request)
    (p' : Option Point) :
    ∃ n, i.flights = n + p.flights ∧ (i.go no asked p').flights = n + Point.flights? p' := by
  refine ⟨(i.others no).countP (·.2.isCreating), ?_, ?_⟩
  · rw [flights, (perm_stops hnd hin).countP_eq, List.countP_cons, p.isCreating_roused, Point.flights]
  · rw [flights, (perm_go hnd hin asked p').countP_eq, List.countP_append, Nat.add_comm]
    congr 1
    cases p' with
    | none => rfl
    | some p' => simp [Point.flights?, Point.flights, List.countP_cons, p'.isCreating_roused]

theorem Leases.balance {now : Nat} {client : Client} {asked : List Request} {p : Option Point}
    (h : Leases now client asked p) : (asked = [] ∨ asked = [.operate]) ∧ Point.flights? p = 0 := by
  cases h with
  | ends => exact ⟨Or.inl rfl, rfl⟩
  | operates => exact ⟨Or.inr rfl, rfl⟩

theorem Acquires.balance {now : Nat} {client : Client} {asked : List Request} {p : Option Point}
    (h : Acquires now client asked p) : (asked = [] ∨ asked = [.operate] ∨ asked = [.create]) ∧
      Point.flights? p = asked.count .create := by
  cases h with
  | leases h =>
    obtain ⟨rfl | rfl, hp⟩ := h.balance
    · exact ⟨Or.inl rfl, hp⟩
    · exact ⟨Or.inr (Or.inl rfl), hp⟩
  | creates => exact ⟨Or.inr (Or.inr rfl), rfl⟩

theorem Retries.balance {c : Setup} {now : Nat} {client : Client} {a : Attempt}
    {asked : List Request} {p : Option Point} (h : Retries c now client a asked p) :
    (asked = [] ∨ asked = [.create]) ∧ Point.flights? p = asked.count .create := by
  cases h with
  | ends => exact ⟨Or.inl rfl, rfl⟩
  | again => exact ⟨Or.inr rfl, rfl⟩
  | pauses => exact ⟨Or.inl rfl, rfl⟩

/-- What is asked on a leg, and what it does to the creations that the call waits for. -/
theorem Leg.balance {c : Setup} {now : Nat} {answered : Bool} {p : Point} {asked : List Request}
    {p' : Option Point} (h : Leg c now answered p asked p') :
    (asked = [] ∨ asked = [.operate] ∨ asked = [.giveUp] ∨ asked = [.create] ∨
        asked = [.giveUp, .create]) ∧
      answered.toNat + asked.count .giveUp ≤ p.flights ∧
      p.flights + asked.count .create = answered.toNat + asked.count .giveUp + Point.flights? p' := by
  -- from where nothing is created yet, the call waits for what it asks for
  have hfrom : ∀ {client : Client} {p : Point} {asked : List Request} {p' : Option Point},
      p.isCreating = false → Acquires now client asked p' →
      (asked = [] ∨ asked = [.operate] ∨ asked = [.giveUp] ∨ asked = [.create] ∨
          asked = [.giveUp, .create]) ∧
        false.toNat + asked.count .giveUp ≤ p.flights ∧
        p.flights + asked.count .create = false.toNat + asked.count .giveUp + Point.flights? p' := by
    intro client p asked p' hp h
    obtain ⟨rfl | rfl | rfl, hp'⟩ := h.balance
    all_goals simp [Point.flights, hp, hp']
  have hcloses : ∀ p : Point, p.closes = true → p.isCreating = false := by
    intro p hp
    cases p <;> first | rfl | cases hp
  cases h with
  | ends hp => simp [Point.flights, Point.flights?, hp]
  | acquires h => exact hfrom rfl h
  | executes idempotent h => exact hfrom rfl h
  | closes hp hp' =>
    have hnone : p.isCreating = false := by
      rcases hp with rfl | hp
      · rfl
      · exact hcloses p hp
    simp [Point.flights, Point.flights?, hnone, hcloses _ hp']
  | created client a since h =>
    obtain ⟨rfl | rfl, hp'⟩ := h.balance
    all_goals simp [Point.flights, Point.isCreating, hp']
  | refused client a since h =>
    obtain ⟨rfl | rfl, hp'⟩ := h.balance
    all_goals simp [Point.flights, Point.isCreating, hp']
  | givesUp client a since h =>
    obtain ⟨rfl | rfl, hp'⟩ := h.balance
    all_goals simp [Point.flights, Point.isCreating, hp']
  | recreates client a wake => simp [Point.flights, Point.flights?, Point.isCreating]
  | repeats a k since ha h => exact hfrom rfl h
  | pauses a k since ha wake hwake hnow => simp [Point.flights, Point.flights?, Point.isCreating]
  | resumes a wake h => exact hfrom rfl h

/-- The cluster follows a leg: afterwards it counts the creation that the call waits for then. -/
theorem Cluster.heed_of_leg {c : Setup} {now : Nat} {answered : Bool} {p : Point}
    {asked : List Request} {p' : Option Point} (h : Leg c now answered p asked p') {n : Nat}
    {cluster : Cluster} (hcreating : cluster.creating = n + p.flights - answered.toNat) :
    (asked.foldl heed cluster).creating = n + Point.flights? p' ∧
      cluster.Notes (asked.foldl heed cluster) := by
  obtain ⟨hasked, hle, hbalance⟩ := h.balance
  rcases hasked with rfl | rfl | rfl | rfl | rfl
  all_goals simp at hle hbalance
  · exact ⟨by simp only [List.foldl_nil]; omega, Even.rfl.notes⟩
  · exact ⟨by simp only [List.foldl_cons, List.foldl_nil, heed]; omega, Even.rfl.notes⟩
  · refine ⟨?_, Or.inl ⟨rfl, rfl⟩⟩
    simp only [List.foldl_cons, List.foldl_nil, heed, abandonCreate]
    omega
  · refine ⟨?_, Or.inr ⟨rfl, rfl⟩⟩
    simp only [List.foldl_cons, List.foldl_nil, heed, beginCreate]
    omega
  · refine ⟨?_, Or.inr ⟨rfl, rfl⟩⟩
    simp only [List.foldl_cons, List.foldl_nil, heed, beginCreate, abandonCreate]
    omega

theorem Cluster.Even.notes_trans {c c' c'' : Cluster} (h : c.Even c') (h' : c'.Notes c'') :
    c.Notes c'' := by
  rcases h' with ⟨hcalls, hpeak⟩ | ⟨hcalls, hpeak⟩
  · exact Or.inl ⟨hcalls.trans h.createCalls, hpeak.trans h.peakLoad⟩
  · exact Or.inr ⟨by rw [hcalls, h.createCalls], by rw [hpeak, h.peakLoad]⟩

namespace World

/-! ## The load between two happenings -/

/-- The cluster counts the creations that the calls wait for. -/
def Laden (w : World) : Prop := w.server.cluster.creating = w.engine.itinerary.flights

variable {w w' : World} {x : Happening} {past : List (SessionId × Option (Except RpcError Unit))}

theorem flights_hearAll (w : World) (e : Engine DriverError Int) :
    (w.hearAll e).engine.itinerary.flights = e.itinerary.flights := by
  rw [Itinerary.flights, Itinerary.flights, Engine.itinerary, Engine.itinerary, calls_hearAll]

/-- In every move the cluster hears of the creations that begin and of those that are given up. -/
theorem laden_of_move (h : w.Custody past) {server : Server} {m : Move DriverError Int}
    (hcreating : server.cluster.creating = w.engine.itinerary.flights - m.isAnswer.toNat)
    (hmove : ({ w with server := server } : World).move m = some w') :
    w'.Laden ∧ server.cluster.Notes w'.server.cluster := by
  obtain ⟨e, hstep, rfl⟩ := exists_of_move (w := { w with server := server }) h.detached hmove
  rw [Laden, flights_hearAll, server_hearAll]
  have hnothing : w.engine.itinerary.requests = [] := by
    rw [Engine.itinerary, h.signals]
    rfl
  -- what monitors and callers do beside the calls asks for no creation
  have hquiet : m.call? = none → m.isAnswer = false := by
    intro hm
    cases m <;> first | rfl | cases hm
  cases Engine.travels_of_step hstep with
  | stays hm hi =>
    rw [hquiet hm] at hcreating
    rw [hi, hnothing]
    exact ⟨hcreating, Cluster.Even.rfl.notes⟩
  | comes purpose token hm hi =>
    rw [hm] at hcreating
    rw [hi, hnothing]
    refine ⟨hcreating.trans ?_, Cluster.Even.rfl.notes⟩
    simp [Itinerary.flights, List.countP_append, Point.isCreating, Move.isAnswer]
  | goes call hcall hm asked p hleg hi =>
    have hin : (call.no, call.point.roused) ∈ w.engine.itinerary.stops :=
      List.mem_map.mpr ⟨call, (Engine.mem_of_call? hcall).1, rfl⟩
    have hnd : (w.engine.itinerary.stops.map (·.1)).Nodup := by
      rw [Engine.itinerary, List.map_map]
      exact h.calls_nodup
    obtain ⟨n, hbefore, hafter⟩ := Itinerary.flights_go hnd hin asked p
    rw [hbefore] at hcreating
    have hheeded := Cluster.heed_of_leg hleg hcreating
    have hasked : (e.itinerary.requests.map (·.2)) = asked := by
      rw [hi, Itinerary.go, hnothing, List.nil_append, List.map_map]
      exact List.map_id _
    rw [hasked, hi, hafter]
    exact hheeded

/-- Whatever happens, the cluster goes on counting the creations that the calls wait for. -/
theorem laden_of_happen (h : w.Custody past) (hladen : w.Laden) (hhappen : w.happen x = some w') :
    w'.Laden ∧ w.server.cluster.Notes w'.server.cluster := by
  -- whoever does not answer a creation leaves the count of the server as it is
  have heven : ∀ {server : Server} {m : Move DriverError Int}, w.server.cluster.Even server.cluster →
      m.isAnswer = false → ({ w with server := server } : World).move m = some w' →
      w'.Laden ∧ w.server.cluster.Notes w'.server.cluster := by
    intro server m heven hanswer hmove
    have hcreating : server.cluster.creating = w.engine.itinerary.flights - m.isAnswer.toNat := by
      rw [heven.creating, hladen, hanswer]
      rfl
    exact (laden_of_move h hcreating hmove).imp_right heven.notes_trans
  have hrests : ∀ {server : Server}, w.server.cluster.Even server.cluster →
      some ({ w with server := server } : World) = some w' →
      w'.Laden ∧ w.server.cluster.Notes w'.server.cluster := by
    intro server heven hsame
    rw [← Option.some.inj hsame]
    exact ⟨heven.creating.trans hladen, heven.notes⟩
  obtain ⟨m, server, hcauses, hmove⟩ := causes_of_happen hhappen
  cases hcauses with
  | turn no m server hprompts =>
    cases hprompts with
    | alone m hm => exact heven .rfl (by cases m <;> first | rfl | cases hm) hmove
    | created =>
      -- an answer takes one from the count before the call asks for the next creation
      obtain ⟨hcreating, hcalls, hpeak⟩ := w.server.cluster.counts_endCreate
      have hcreating' : w.server.cluster.endCreate.2.creating = w.engine.itinerary.flights - 1 := by
        rw [hcreating, hladen]
      refine (laden_of_move h ?_ hmove).imp_right fun hnotes => ?_
      · exact hcreating'
      · rcases hnotes with ⟨hcalls', hpeak'⟩ | ⟨hcalls', hpeak'⟩
        · exact Or.inl ⟨hcalls'.trans hcalls, hpeak'.trans hpeak⟩
        · exact Or.inr ⟨by rw [hcalls', hcalls], by rw [hpeak', hpeak]⟩
    | answered cancels result => exact heven .rfl rfl hmove
    | operated call hcall a k => exact heven (w.server.cluster.even_operate k.id) rfl hmove
    | attached k hk hwatch => exact heven (w.server.even_attach k.id) rfl hmove
    | heard k hk stream hwatch r server hread =>
      have heven' := w.server.even_read stream
      rw [hread] at heven'
      exact heven heven' rfl hmove
    | ended k hk stream hwatch hread => exact heven .rfl rfl hmove
    | deleted d hending => exact heven (w.server.even_endDelete _) rfl hmove
  | act m houtside => exact heven .rfl (by cases m <;> first | rfl | cases houtside) hmove
  | server step hspares => exact hrests (w.server.even_take step) hmove
  | operate id => exact hrests (w.server.cluster.even_operate id) hmove
  | attach id => exact hrests (w.server.even_attach id) hmove

/-- Wherever it happens, the cluster goes on counting the creations that the calls wait for. -/
theorem laden_of_happenAt (h : w.Custody past) (hladen : w.Laden) {x : Bool × Happening}
    (hhappen : w.happenAt x = some w') : w'.Laden ∧ w.server.cluster.Notes w'.server.cluster :=
  laden_of_happen (w := w.placed x.1) (h.placed x.1) hladen hhappen

/-- The calls that wait for a creation have a place each. -/
theorem creating_le_pending (h : w.Custody past) (hladen : w.Laden) :
    w.server.cluster.creating ≤ w.engine.pool.pending := by
  have hpending : w.engine.pool.pending = Call.creations w.engine.calls := h.atRest.pending
  rw [hladen, hpending, Itinerary.flights, Engine.itinerary, List.countP_map, Call.creations]
  refine List.countP_mono_left fun k _ hk => ?_
  have hcreating : k.point.isCreating = true := k.point.isCreating_roused ▸ hk
  cases hpoint : k.point <;> first | rfl | (rw [hpoint] at hcreating; cases hcreating)

/-- If none has been left behind, the sessions of the server are as many as the pool tracks and deletes. -/
theorem live_eq (h : w.Whole) : w.server.cluster.live =
    w.engine.pool.active.length + w.engine.deletions.length := by
  have hlength := h.perm.length_eq
  rw [Ledger.sessions, List.length_append, Pool.names, List.length_map, List.length_map,
    Cluster.length_names] at hlength
  exact hlength.symm

/-! ## As long as no session leaves -/

/-- No session has left the pool while it was open: the sessions of the server and the places are together
within the limit. -/
structure Roomy (w : World) : Prop where
  /-- They are within the limit. -/
  room : w.server.cluster.live + w.engine.pool.pending ≤ w.setup.limit
  /-- An open pool tracks every session of the server. -/
  keeps : w.engine.pool.closed = false → w.server.cluster.names ⊆ w.engine.pool.names

/-- A session that the server has created is tracked, or its place has been given back because the pool
was closed. -/
theorem tracked_of_created {b e : Engine DriverError Int} {c : Setup} {no : TaskNo} {s : SessionInfo}
    (hstep : b.step c (.created no (.ok s)) = some e) :
    (b.pool.closed = false ∧ s.id ∈ e.pool.names) ∨
      (b.pool.closed = true ∧ e.pool.pending = b.pool.pending - 1) := by
  have hreject : ∀ (e : Engine DriverError Int) no client p, (e.reject no client p).pool = e.pool := by
    intro e no client p
    cases client <;> rfl
  have hlease : ∀ (e : Engine DriverError Int) no client k, (e.lease no client k).pool = e.pool := by
    intro e no client k
    cases client <;> rfl
  cases Engine.makes_of_step hstep with
  | created call client a since result hcall hpoint hgo =>
    show (_ ∧ s.id ∈ (b.register c call.no client s).pool.names) ∨
      (_ ∧ (b.register c call.no client s).pool.pending = _)
    unfold Engine.register
    by_cases hclosed : b.pool.closed = true
    · right
      simp only [if_pos hclosed]
      refine ⟨hclosed, ?_⟩
      rw [hreject]
      exact congrArg (fun p => p.pending - 1) (Engine.pool_deleteInBackground _ c s.id)
    · left
      simp only [if_neg hclosed]
      refine ⟨by simpa using hclosed, ?_⟩
      rw [hlease]
      exact List.mem_cons_self

/-- A session that the server names is tracked, or it has been taken for the place of its call. -/
theorem names_of_created (h : w.Custody past) {no : TaskNo} {s : SessionInfo} {e : Engine DriverError Int}
    (hstep : w.engine.step w.setup (.created no (.ok s)) = some e) :
    (w.engine.pool.closed = false ∧ s.id ∈ e.pool.names) ∨
      (w.engine.pool.closed = true ∧ e.pool.pending + 1 = w.engine.pool.pending) := by
  -- the call that is answered has a place
  have hplace : 0 < w.engine.pool.pending := by
    rw [show w.engine.pool.pending = Call.creations w.engine.calls from h.atRest.pending]
    cases Engine.makes_of_step hstep with
    | created call client a since result hcall hpoint hgo =>
      exact List.countP_pos_iff.mpr ⟨call, (Engine.mem_of_call? hcall).1, by rw [hpoint]; rfl⟩
  refine (tracked_of_created hstep).imp_right fun ⟨hclosed, hpending⟩ => ⟨hclosed, ?_⟩
  rw [hpending]
  exact Nat.sub_add_cancel hplace

/-- The server has no new session after a happening, or one that the pool has taken for a place. -/
theorem names_of_happen (h : w.Custody past) (hhappen : w.happen x = some w') :
    w'.server.cluster.names.Sublist w.server.cluster.names ∨
      ∃ id, w'.server.cluster.names = id :: w.server.cluster.names ∧
        ((w.engine.pool.closed = false ∧ id ∈ w'.engine.pool.names) ∨
          (w.engine.pool.closed = true ∧ w'.engine.pool.pending + 1 = w.engine.pool.pending)) := by
  rcases h.heeds_or_steady_of_happen hhappen with
    ⟨m, server, hheeds, hmove⟩ | ⟨server, hsteady, -, rfl⟩
  · obtain ⟨e, hstep, rfl⟩ := exists_of_move (w := { w with server := server }) h.detached hmove
    have hkept := hheeds.kept
    rw [(heard_hearAll _ e).server.cluster.names, pool_hearAll]
    cases hnamed : m.named? with
    | none =>
      left
      rw [Engine.keptAfter, hnamed, Option.toList_none, List.nil_append] at hkept
      exact hkept ▸ List.filter_sublist
    | some id =>
      right
      obtain ⟨no, s, rfl⟩ : ∃ no s, m = .created no (.ok s) := by
        cases m with
        | created no result =>
          cases result with
          | ok s => exact ⟨no, s, rfl⟩
          | error error => cases hnamed
        | _ => cases hnamed
      rw [Engine.keptAfter_of_endsWith fun d _ => rfl] at hkept
      exact ⟨s.id, hkept.symm, names_of_created h hstep⟩
  · left
    rw [show ({ w with server := server } : World).server.cluster.names = w.server.cluster.names
      from hsteady.cluster.names]

/-- A closed pool stays closed, and takes no further place. -/
theorem closed_of_happen (h : w.Custody past) (hhappen : w.happen x = some w')
    (hclosed : w.engine.pool.closed = true) :
    w'.engine.pool.closed = true ∧ w'.engine.pool.pending ≤ w.engine.pool.pending := by
  rcases step_of_happen h.detached hhappen with ⟨m, server, e, hstep, rfl⟩ | ⟨server, rfl⟩
  · rw [pool_hearAll]
    exact Engine.closed_of_step hclosed hstep
  · exact ⟨hclosed, Nat.le_refl _⟩

/-- An open pool that no session leaves goes on tracking every session of the server. -/
theorem names_subset_of_stays (h : w.Custody past) (hroomy : w.Roomy) (hhappen : w.happen x = some w')
    (hstays : w.engine.pool.names ⊆ w'.engine.pool.names) (hopen' : w'.engine.pool.closed = false) :
    w'.server.cluster.names ⊆ w'.engine.pool.names := by
  have hopen : w.engine.pool.closed = false := by
    rw [← Bool.not_eq_true]
    intro hclosed
    rw [(closed_of_happen h hhappen hclosed).1] at hopen'
    cases hopen'
  have hkept := List.Subset.trans (hroomy.keeps hopen) hstays
  rcases names_of_happen h hhappen with hsub | ⟨id, hnew, ⟨-, hid⟩ | ⟨hclosed, -⟩⟩
  · exact List.Subset.trans hsub.subset hkept
  · rw [hnew]
    exact List.cons_subset.mpr ⟨hid, hkept⟩
  · rw [hopen] at hclosed
    cases hclosed

/-- A closed pool takes a new session only for a place. -/
theorem room_of_closed (h : w.Custody past) (hroomy : w.Roomy) (hhappen : w.happen x = some w')
    (hclosed : w.engine.pool.closed = true) :
    w'.server.cluster.live + w'.engine.pool.pending ≤ w'.setup.limit := by
  have hpending := (closed_of_happen h hhappen hclosed).2
  have hroom := hroomy.room
  rw [setup_of_happen h.detached hhappen]
  rcases names_of_happen h hhappen with hsub | ⟨id, hnew, ⟨hopen, -⟩ | ⟨-, hplace⟩⟩
  · have hle := hsub.length_le
    rw [Cluster.length_names, Cluster.length_names] at hle
    omega
  · rw [hclosed] at hopen
    cases hopen
  · have hlength := congrArg List.length hnew
    rw [List.length_cons, Cluster.length_names, Cluster.length_names] at hlength
    omega

/-- A pool that is closed with sessions in it loses them. -/
theorem names_eq_nil_of_closing (h : w.Custody past) (hroomy : w.Roomy) (hhappen : w.happen x = some w')
    (hstays : w.engine.pool.names ⊆ w'.engine.pool.names) (hopen : w.engine.pool.closed = false)
    (hclosed' : w'.engine.pool.closed = true) : w'.server.cluster.names = [] := by
  have hactive : w'.engine.pool.active = [] := ((h.happen hhappen).atRest.tables.shut hclosed').2
  have hempty : w'.engine.pool.names = [] := by rw [Pool.names, hactive, List.map_nil]
  rw [hempty] at hstays
  have hnone : w.server.cluster.names = [] := List.subset_nil.mp (List.Subset.trans (hroomy.keeps hopen) hstays)
  rcases names_of_happen h hhappen with hsub | ⟨id, -, ⟨-, hid⟩ | ⟨hshut, -⟩⟩
  · rw [hnone] at hsub
    exact List.sublist_nil.mp hsub
  · rw [hempty] at hid
    cases hid
  · rw [hopen] at hshut
    cases hshut

/-- The pool stays roomy as long as no session leaves it. -/
theorem roomy_of_happen (h : w.Custody past) (hroomy : w.Roomy) (hhappen : w.happen x = some w')
    (hstays : w.engine.pool.names ⊆ w'.engine.pool.names) : w'.Roomy := by
  have h' := h.happen hhappen
  have hlimit : w'.engine.pool.active.length + w'.engine.pool.pending ≤ w'.setup.limit :=
    h'.atRest.tables.room
  have hkeeps := names_subset_of_stays h hroomy hhappen hstays
  refine ⟨?_, hkeeps⟩
  cases hclosed' : w'.engine.pool.closed with
  | false =>
    have hle := (List.subperm_of_subset h'.names_nodup (hkeeps hclosed')).length_le
    rw [Cluster.length_names, Pool.names, List.length_map] at hle
    omega
  | true =>
    cases hclosed : w.engine.pool.closed with
    | true => exact room_of_closed h hroomy hhappen hclosed
    | false =>
      have hlive := congrArg List.length (names_eq_nil_of_closing h hroomy hhappen hstays hclosed hclosed')
      rw [Cluster.length_names, List.length_nil] at hlive
      omega

/-! ## Runs -/

/-- No session leaves the pool in a run. -/
def Stays (w : World) : List (Bool × Happening) → Prop
  | [] => True
  | x :: xs =>
    match w.happenAt x with
    | some w' => w.engine.pool.names ⊆ w'.engine.pool.names ∧ Stays w' xs
    | none => True

theorem run_append (w : World) (xs ys : List (Bool × Happening)) :
    w.run (xs ++ ys) = (w.run xs).bind fun w => w.run ys := by
  induction xs generalizing w with
  | nil => rfl
  | cons x xs ih =>
    rw [List.cons_append, run, run, Option.bind_assoc]
    exact congrArg _ (funext ih)

theorem laden_begin (setup : Setup) (latency : Span) (g g' : Generator)
    (deeds : TaskNo → Nat → Deed) : (begin setup latency g g' deeds).Laden := rfl

theorem roomy_begin (setup : Setup) (latency : Span) (g g' : Generator)
    (deeds : TaskNo → Nat → Deed) : (begin setup latency g g' deeds).Roomy :=
  ⟨Nat.zero_le _, fun _ => List.nil_subset _⟩

/-- After every run the cluster counts the creations that the calls wait for.  If none has begun in the
run, the largest load is what it was. -/
theorem laden_of_run {xs : List (Bool × Happening)} (h : w.Custody past) (hladen : w.Laden)
    (hrun : w.run xs = some w') : w'.Laden ∧
      w.server.cluster.createCalls ≤ w'.server.cluster.createCalls ∧
      (w'.server.cluster.createCalls = w.server.cluster.createCalls →
        w'.server.cluster.peakLoad = w.server.cluster.peakLoad) := by
  refine h.holds_of_run (P := fun u => u.Laden ∧
    w.server.cluster.createCalls ≤ u.server.cluster.createCalls ∧
    (u.server.cluster.createCalls = w.server.cluster.createCalls →
      u.server.cluster.peakLoad = w.server.cluster.peakLoad))
    (fun x _ u v past hu hhappen ⟨hladen, hle, hpeak⟩ => ?_) hrun ⟨hladen, Nat.le_refl _, fun _ => rfl⟩
  obtain ⟨hladen', ⟨hcalls, hsame⟩ | ⟨hcalls, -⟩⟩ := laden_of_happenAt hu hladen hhappen
  · exact ⟨hladen', hcalls ▸ hle, fun hnone => hsame.trans (hpeak (hcalls.symm.trans hnone))⟩
  · exact ⟨hladen', by omega, fun hnone => by omega⟩

/-- As long as no session leaves the pool, the load stays within the limit. -/
theorem peakLoad_le_of_stays {xs : List (Bool × Happening)} (h : w.Custody past) (hladen : w.Laden)
    (hroomy : w.Roomy) (hpeak : w.server.cluster.peakLoad ≤ w.setup.limit)
    (hrun : w.run xs = some w') (hstays : w.Stays xs) :
    w'.server.cluster.peakLoad ≤ w'.setup.limit := by
  induction xs generalizing w past with
  | nil =>
    cases hrun
    exact hpeak
  | cons x xs ih =>
    obtain ⟨w₁, hfirst, hrest⟩ := Option.bind_eq_some_iff.mp hrun
    rw [Stays, hfirst] at hstays
    obtain ⟨hstay, hstays⟩ := hstays
    obtain ⟨hladen₁, hnotes⟩ := laden_of_happenAt h hladen hfirst
    have h₁ := h.happenAt hfirst
    have hroomy₁ := roomy_of_happen (h.placed x.1) ⟨hroomy.room, hroomy.keeps⟩ hfirst hstay
    refine ih h₁ hladen₁ hroomy₁ ?_ hrest hstays
    have hsetup := setup_of_happenAt h.detached hfirst
    rcases hnotes with ⟨-, hsame⟩ | ⟨-, hnoted⟩
    · rw [hsame, hsetup]
      exact hpeak
    · -- the load that a new creation leads to is bounded by what the pool counts
      have hroom := hroomy₁.room
      have hcreating := creating_le_pending h₁ hladen₁
      rw [hnoted, Nat.max_le, hsetup]
      rw [hsetup] at hroom
      exact ⟨hpeak, by omega⟩

/-- After every run no more creations are under way on the server than the pool keeps places for.  If
deletions could always be started, no more sessions exist than the pool tracks and deletes; so together they
exceed the limit at most by the deletions under way.  If no session has left the pool by the time when the last
creation began, the sessions and the creations of the server were never together more than the limit. -/
theorem load_bounded_of_run (setup : Setup) (latency : Span) (g g' : Generator)
    (deeds : TaskNo → Nat → Deed) (xs : List (Bool × Happening)) (w : World)
    (hrun : (begin setup latency g g' deeds).run xs = some w) :
    w.server.cluster.creating ≤ w.engine.pool.pending ∧
      ((∀ x ∈ xs, x.1 = true) →
        w.server.cluster.live ≤ w.engine.pool.active.length + w.engine.deletions.length ∧
        w.server.cluster.live + w.server.cluster.creating ≤
          setup.limit + w.engine.deletions.length) ∧
      ∀ before after u, xs = before ++ after →
        (begin setup latency g g' deeds).run before = some u →
        u.server.cluster.createCalls = w.server.cluster.createCalls →
        (begin setup latency g g' deeds).Stays before →
        w.server.cluster.peakLoad ≤ setup.limit := by
  have hbegin := custody_begin setup latency g g' deeds
  have hladen₀ := laden_begin setup latency g g' deeds
  have h := hbegin.run hrun
  obtain ⟨hladen, -⟩ := laden_of_run hbegin hladen₀ hrun
  have hcreating := creating_le_pending h hladen
  refine ⟨hcreating, fun hplace => ?_, ?_⟩
  · have hlive := live_eq ((whole_begin setup latency g g' deeds).run hbegin hplace hrun)
    have hroom : w.engine.pool.active.length + w.engine.pool.pending ≤ w.setup.limit :=
      h.atRest.tables.room
    rw [setup_of_run hbegin hrun] at hroom
    refine ⟨hlive.le, ?_⟩
    show _ ≤ (begin setup latency g g' deeds).setup.limit + _
    omega
  · rintro before after u rfl hbefore hlast hstays
    rw [run_append, hbefore, Option.bind_some] at hrun
    have hpeak := peakLoad_le_of_stays hbegin hladen₀ (roomy_begin setup latency g g' deeds)
      (Nat.zero_le _) hbefore hstays
    rw [setup_of_run hbegin hbefore] at hpeak
    -- the largest load was reached by the time when the last creation began
    obtain ⟨-, -, hsame⟩ := laden_of_run (hbegin.run hbefore) (laden_of_run hbegin hladen₀ hbefore).1 hrun
    rw [hsame hlast.symm]
    exact hpeak

/-- Two callers acquire a session each at the same time. -/
def leaseTwice : List (Bool × Happening) :=
  [(true, .act (.call .lease (.unnamed 0))), (true, .act (.call .lease (.unnamed 1))), (true, .turn 0),
    (true, .turn 1), (true, .turn 0)]

/-- Nothing is tracked before the first of them has his session. -/
theorem stays_leaseTwice :
    (begin (.ofConfig {} .standard none) .zero ⟨1⟩ ⟨2⟩ fun _ _ => ⟨false, 0, none⟩).Stays leaseTwice :=
  ⟨List.nil_subset _, List.nil_subset _, List.nil_subset _, List.nil_subset _, List.nil_subset _, trivial⟩

theorem load_bounded_of_leaseTwice :
    ∃ w, (begin (.ofConfig {} .standard none) .zero ⟨1⟩ ⟨2⟩ fun _ _ => ⟨false, 0, none⟩).run
        leaseTwice = some w ∧
      w.server.cluster.creating = 1 ∧ w.server.cluster.live = 1 ∧
      w.server.cluster.creating ≤ w.engine.pool.pending ∧
      w.server.cluster.live ≤ w.engine.pool.active.length + w.engine.deletions.length ∧
      w.server.cluster.peakLoad ≤ (Setup.ofConfig {} .standard none).limit := by
  have hbounded := load_bounded_of_run (.ofConfig {} .standard none) .zero ⟨1⟩ ⟨2⟩
    (fun _ _ => ⟨false, 0, none⟩) leaseTwice _ rfl
  exact ⟨_, rfl, rfl, rfl, hbounded.1, (hbounded.2.1 (by simp [leaseTwice])).1,
    hbounded.2.2 leaseTwice [] _ (List.append_nil _).symm rfl rfl stays_leaseTwice⟩

/-- A caller acquires a session and loses the lease where no deletion can be started. -/
def dropOutside : List (Bool × Happening) :=
  [(true, .act (.call .lease (.unnamed 0))), (true, .turn 0), (true, .turn 0), (false, .act (.drop 1))]

/-- The server carries a session that the pool neither tracks nor deletes. -/
theorem live_exceeds_of_dropOutside :
    ∃ w, (begin (.ofConfig {} .standard none) .zero ⟨1⟩ ⟨2⟩ fun _ _ => ⟨false, 0, none⟩).run
        dropOutside = some w ∧
      w.engine.pool.active = [] ∧ w.engine.deletions = [] ∧ w.server.cluster.live = 1 ∧
      ¬ w.server.cluster.live ≤ w.engine.pool.active.length + w.engine.deletions.length :=
  ⟨_, rfl, rfl, rfl, rfl, by decide⟩

end World

end PooledSessions
