import PooledSessions.Proofs.Workload.Interleaving
/-!
# Workloads lose nothing

When all workers have finished, each operation is accounted for (`Workload.Balanced`): its result was taken by one
worker, and the server has counted it if it succeeded.  No session is lost either: before the pool is closed all of
its sessions are idle, and once it is closed (`Workload.Shuts`) the server has deleted whatever it has created.
-/

namespace PooledSessions

theorem Binary64.clampFraction_of_isFraction {x : Binary64} (h : x.isFraction = true) :
    x.clampFraction = x := by
  obtain ⟨hzero, hone⟩ : x.lt zero = false ∧ one.lt x = false := by
    cases x with
    | nan => cases h
    | _ => simpa [isFraction] using h
  rw [clampFraction, hzero, hone, if_neg Bool.false_ne_true, if_neg Bool.false_ne_true]

/-- A world in which nothing has happened is undisturbed. -/
theorem World.undisturbed_fresh {setup : Setup} (hobserver : setup.observer = none) (g g' : Generator)
    (rate : Binary64) (events : List Event) :
    ({ World.fresh setup (.ofCluster ((Cluster.fresh g).setFailureRate rate) .zero) g' with
      events := events } : World).Undisturbed rate.clampFraction where
  custody := ⟨[], { World.custody_begin setup .zero g g' fun _ _ => ⟨false, 0, none⟩ with
    balanced := { Cluster.balanced_fresh g with } }⟩
  whole := { World.whole_begin setup .zero g g' fun _ _ => ⟨false, 0, none⟩ with }
  laden := rfl
  orderly := Engine.orderly_fresh g'
  serves := ⟨rfl, fun k hk => by cases hk⟩
  cancelled := rfl
  observer := hobserver
  deeds := rfl
  latency := rfl
  untroubled := ⟨rfl, rfl, rfl, fun _ x hx => by cases hx⟩
  called := rfl

namespace Workload

variable {rate : Binary64} {total : Nat} {results : List (TaskNo × Except DriverError Int)}
  {w w' : Workload} {c : Config} {o : WorkloadOptions} {g : Generator}

/-! ## Runs -/

theorem giveAll_append (w : Workload) (xs ys : List Turn) :
    w.giveAll (xs ++ ys) = (w.giveAll xs).bind (·.giveAll ys) := by
  induction xs generalizing w with
  | nil => rfl
  | cons x xs ih =>
    rw [List.cons_append, giveAll, giveAll, Option.bind_assoc]
    exact congrArg _ (funext ih)

/-- The books of a workload that has not begun. -/
theorem consistent_start (c : Config) (o : WorkloadOptions) (g : Generator) :
    (start c o g).Consistent o.failureRate.clampFraction (o.workers * o.operations) [] := by
  unfold start
  generalize g.spawn = drawn
  obtain ⟨own, g⟩ := drawn
  dsimp only
  generalize (o.seed.map Generator.ofSeed).getD own = own
  generalize hsetup : Setup.ofConfig { c with pool.sizeLimit := o.poolSize.getD c.pool.sizeLimit } .standard none =
    setup
  have hready : ∀ k ∈ List.replicate o.workers (⟨o.operations, .ready⟩ : Worker), k = ⟨o.operations, .ready⟩ :=
    fun k hk => List.eq_of_mem_replicate hk
  have hwaited : (List.replicate o.workers (⟨o.operations, .ready⟩ : Worker)).filterMap Worker.call? = [] :=
    List.filterMap_eq_nil_iff.mpr fun k hk => hready k hk ▸ rfl
  exact
    { undisturbed := World.undisturbed_fresh (hsetup ▸ rfl) own g o.failureRate _
      executing := ⟨rfl, (fun _ hcall => by cases hcall), fun _ hcall => by cases hcall⟩
      calls := by rw [waited, hwaited]; exact .rfl
      nodup := List.nodup_nil
      no_lt := fun x hx => by cases hx
      expected := fun x hx => by cases hx
      answers := .rfl
      counts := ⟨rfl, rfl, Or.inl rfl, Or.inl rfl⟩
      conserved := by
        rw [waited, hwaited, left, List.map_replicate, List.sum_replicate]
        simp
      finished := fun k hk hfinished => by rw [hready k hk] at hfinished; cases hfinished }

/-- The books are kept in a run, and each turn leaves less to do. -/
theorem Consistent.giveAll (h : w.Consistent rate total results) {xs : List Turn}
    (hrun : w.giveAll xs = some w') :
    w'.Consistent rate total (results ++ w.taken xs) ∧ w'.world.setup = w.world.setup ∧
      w'.workers.length = w.workers.length ∧ w'.effort + xs.countP Turn.isMove ≤ w.effort := by
  induction xs generalizing w results with
  | nil =>
    obtain rfl := Option.some.inj hrun
    exact ⟨(List.append_nil results).symm ▸ h, rfl, rfl, Nat.le_refl _⟩
  | cons x xs ih =>
    obtain ⟨u, hgive, hrest⟩ := Option.bind_eq_some_iff.mp hrun
    obtain ⟨hsetup, hlength, -⟩ := h.fixed_of_give hgive
    have hless := h.effort_give hgive
    obtain ⟨h', hsetup', hlength', hless'⟩ := ih (h.give hgive) hrest
    refine ⟨?_, hsetup'.trans hsetup, hlength'.trans hlength, ?_⟩
    · rw [taken, hgive, ← List.append_assoc]
      exact h'
    · rw [List.countP_cons]
      cases hmove : x.isMove <;> rw [hmove] at hless <;> simp at hless ⊢ <;> omega

/-! ## The end of the workload -/

/-- The most sessions that the pool of a workload has. -/
def mostSessions (c : Config) (o : WorkloadOptions) : Nat := max 1 (o.poolSize.getD c.pool.sizeLimit).toNat

/-- The books of a workload that has come to its end balance, whose workers have taken the given results. -/
structure Balanced (c : Config) (o : WorkloadOptions) (results : List (TaskNo × Except DriverError Int))
    (w : Workload) : Prop where
  /-- Each operation was counted once. -/
  total : w.tally.ok + w.tally.rejected + w.tally.failed = o.workers * o.operations
  /-- The workers have counted as many successes as the server. -/
  ok : w.tally.ok = w.world.server.cluster.operations
  /-- No call has two results. -/
  calls : (results.map (·.1)).Nodup
  /-- Each success was answered to one call. -/
  answers : (results.filterMap answer?).Perm (answersUpTo w.world.server.cluster.operations)
  /-- No operation is turned away unless there are more workers than sessions. -/
  rejected : o.workers ≤ mostSessions c o → w.tally.rejected = 0
  /-- No operation fails unless some are made to fail. -/
  failed : Binary64.zero.lt o.failureRate = false → w.tally.failed = 0
  /-- All sessions of the pool are idle. -/
  idle : ∀ x ∈ w.world.engine.pool.active, x.2.use = .idle ∧ x.1 ∈ w.world.engine.pool.idle
  /-- No creation is under way. -/
  pending : w.world.engine.pool.pending = 0

/-- How many sessions and workers there are is settled when a workload begins. -/
theorem fixed_start (c : Config) (o : WorkloadOptions) (g : Generator) :
    (start c o g).world.setup.limit = mostSessions c o ∧ (start c o g).workers.length = o.workers := by
  unfold start
  generalize g.spawn = drawn
  exact ⟨rfl, List.length_replicate⟩

theorem allFinished_iff : allFinished.reached w = true ↔ ∀ k ∈ w.workers, k.activity = .finished := by
  simp [allFinished]

/-- When nothing is under way, all sessions are idle. -/
theorem idle_of_calls (h : w.world.Undisturbed rate) (hcalls : w.world.engine.calls = []) :
    ∀ x ∈ w.world.engine.pool.active, x.2.use = .idle ∧ x.1 ∈ w.world.engine.pool.idle := by
  obtain ⟨past, hcustody⟩ := h.custody
  have hrest := hcustody.atRest
  have hnone : w.world.engine.held ++ Call.leases w.world.engine.calls = [] := by
    rw [h.serves.held, hcalls]
    rfl
  rintro ⟨id, t⟩ hin
  have ht : w.world.engine.pool.find? id = some t := Pool.lookup_of_mem hrest.tables.names_nodup hin
  have huse : t.use = .idle := by
    cases huse : t.use with
    | idle => rfl
    | leased =>
      obtain ⟨k, hk, -⟩ := hrest.lent.exists_lease id t ht huse
      replace hk : k ∈ w.world.engine.held ++ Call.leases w.world.engine.calls := hk
      rw [hnone] at hk
      cases hk
  exact ⟨huse, (hrest.tables.mem_idle id).mpr ⟨t, ht, huse⟩⟩

/-- When all workers have finished, no call is under way and no result waits for anybody. -/
theorem Consistent.ended (h : w.Consistent rate total results) (hfinished : ∀ k ∈ w.workers, k.activity = .finished) :
    w.waited = [] ∧ w.world.engine.calls = [] ∧ w.world.executed = [] := by
  have hwaited : w.waited = [] := List.filterMap_eq_nil_iff.mpr fun k hk => by
    rw [Worker.call?, hfinished k hk]
  have hcalls := h.calls
  rw [hwaited, List.nil_perm, List.append_eq_nil_iff] at hcalls
  exact ⟨hwaited, List.map_eq_nil_iff.mp hcalls.1, List.map_eq_nil_iff.mp hcalls.2⟩

theorem Consistent.balanced (h : w.Consistent o.failureRate.clampFraction (o.workers * o.operations) results)
    (hfraction : o.failureRate.isFraction = true) (hlimit : w.world.setup.limit = mostSessions c o)
    (hworkers : w.workers.length = o.workers) (hfinished : ∀ k ∈ w.workers, k.activity = .finished) :
    w.Balanced c o results := by
  obtain ⟨hwaited, hnumbers, hexecuted⟩ := h.ended hfinished
  have hleft : w.left = 0 := List.sum_eq_zero fun m hm => by
    obtain ⟨k, hk, rfl⟩ := List.mem_map.mp hm
    exact h.finished k hk (hfinished k hk)
  have hnodup := (List.nodup_append.mp h.nodup).2.1
  have hanswers := h.answers
  rw [hexecuted, List.append_nil] at hnodup hanswers
  have hconserved := h.conserved
  rw [hwaited, hleft, List.length_nil, Nat.add_zero] at hconserved
  refine
    { total := h.counts.total.trans hconserved
      ok := h.counts.ok.trans (hanswers.length_eq.trans (by simp [answersUpTo]))
      calls := hnodup
      answers := hanswers
      rejected := fun hroom => h.counts.rejected.resolve_right ?_
      failed := fun hnone => h.counts.failed.resolve_right ?_
      idle := idle_of_calls h.undisturbed hnumbers
      pending := by rw [h.undisturbed.orderly.pending, hnumbers]; rfl }
  · rw [hworkers, hlimit]
    exact Nat.not_lt.mpr hroom
  · rw [Binary64.clampFraction_of_isFraction hfraction, hnone]
    exact Bool.false_ne_true

/-! ## The closing of the pool -/

/-- A workload whose pool is going to be closed. -/
def closing (w : Workload) : Workload :=
  { w with world := (w.world.setUp .closing (.unnamed w.world.engine.nextNo) PoolScene.noDeeds).2 }

/-- The workers have finished, and the pool is being closed by the call of that number. -/
structure Shuts (rate : Binary64) (no : TaskNo) (w : Workload) : Prop where
  /-- Nobody disturbs the pool and its server. -/
  undisturbed : w.world.Undisturbed rate
  /-- Nobody does anything but to close the pool. -/
  closes : w.world.Closes no
  /-- The workers have finished. -/
  finished : ∀ k ∈ w.workers, k.activity = .finished

variable {no : TaskNo}

theorem Consistent.shuts (h : w.Consistent rate total results)
    (hfinished : ∀ k ∈ w.workers, k.activity = .finished) : w.closing.Shuts rate w.world.engine.nextNo := by
  obtain ⟨-, hcalls, -⟩ := h.ended hfinished
  rw [closing, h.undisturbed.setUp_eq]
  have honly : (w.world.withCall .closing (.unnamed w.world.engine.nextNo)).engine.calls =
      [⟨w.world.engine.nextNo, .unnamed w.world.engine.nextNo, 0, .fresh .closing⟩] :=
    congrArg (· ++ _) hcalls
  refine ⟨h.undisturbed.withCall h.awaited (fun hpurpose => by cases hpurpose) _, ⟨?_, ?_⟩, hfinished⟩
  · intro call hcall
    rw [honly, List.mem_singleton] at hcall
    exact hcall ▸ ⟨rfl, rfl⟩
  · intro hnone
    rw [honly] at hnone
    cases hnone

namespace Shuts

theorem give (h : w.Shuts rate no) {x : Turn} (hgive : w.give x = some w') :
    w'.Shuts rate no ∧ w'.effort + x.isMove.toNat ≤ w.effort := by
  cases x with
  | pass millis =>
    rw [Workload.give, h.undisturbed.tryMove_advance] at hgive
    exact Option.some.inj hgive ▸ ⟨⟨h.undisturbed.after millis, { h.closes with }, h.finished⟩, Nat.le_refl _⟩
  | move a =>
    cases a with
    | worker n =>
      obtain ⟨k, hk, hworks⟩ := works_of_move hgive
      have hfinished := h.finished k (List.mem_of_getElem? hk)
      cases hworks <;> cases hfinished
    | task k =>
      obtain ⟨world, hturn, rfl⟩ := Option.map_eq_some_iff.mp hgive
      have hundisturbed := h.undisturbed.turn (h.closes.guard h.undisturbed) hturn
      have hless := h.undisturbed.effort_turn (fun _ _ _ => h.closes.pending h.undisturbed) hturn hundisturbed
      have hsetup := (h.undisturbed.keeps_of_turn hturn).1
      refine ⟨⟨hundisturbed, h.closes.turn h.undisturbed hturn, h.finished⟩, ?_⟩
      rw [effort, effort, cost, cost, hsetup]
      exact Nat.add_lt_add_left hless _

theorem giveAll (h : w.Shuts rate no) {xs : List Turn} (hrun : w.giveAll xs = some w') :
    w'.Shuts rate no ∧ w'.effort + xs.countP Turn.isMove ≤ w.effort := by
  induction xs generalizing w with
  | nil => exact Option.some.inj hrun ▸ ⟨h, Nat.le_refl _⟩
  | cons x xs ih =>
    obtain ⟨u, hgive, hrest⟩ := Option.bind_eq_some_iff.mp hrun
    obtain ⟨hkept, hless⟩ := h.give hgive
    obtain ⟨h', hless'⟩ := ih hkept hrest
    refine ⟨h', ?_⟩
    rw [List.countP_cons]
    cases hmove : x.isMove <;> rw [hmove] at hless <;> simp at hless ⊢ <;> omega

/-- As long as the closing has not ended, somebody has a move to make. -/
theorem exists_move (h : w.Shuts rate no) (hrunning : w.world.isRunning no = true) :
    ∃ a, (w.give (.move a)).isSome := by
  have hcalls : w.world.engine.calls ≠ [] := fun hnone => by
    have hin := isRunning_iff.mp hrunning
    rw [Engine.numbers, hnone] at hin
    cases hin
  obtain ⟨k, hturn⟩ := h.closes.exists_turn h.undisturbed hcalls
  exact ⟨.task k, (Option.isSome_map ..).trans hturn⟩

end Shuts

end Workload

end PooledSessions
