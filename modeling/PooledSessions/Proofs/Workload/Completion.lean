import PooledSessions.Proofs.Simulation.Settling
import PooledSessions.Proofs.Workload.Conservation
/-!
# Workloads that are run

A workload that is run takes turns until its workers have finished, and then its pool is closed
(`Workload.exists_turns_of_run`).  If there is patience for all of that, it comes to its end
(`Workload.exists_run`).
-/

namespace PooledSessions

/-- A call that leases nothing for its caller has something to do. -/
theorem Point.effort_pos {p : Point} (h : p.purpose ≠ .lease) (policy : Policy) : 0 < p.effort policy := by
  cases p with
  | fresh purpose =>
    cases purpose with
    | lease => exact absurd rfl h
    | operation | closing => exact Nat.succ_pos _
  | creating client =>
    cases client with
    | caller => exact absurd rfl h
    | attempt a => exact Nat.succ_pos _
  | _ => exact Nat.succ_pos _

namespace World

variable {w w' : World} {no : TaskNo} {rate : Binary64}

/-- Each task in the background has something to do. -/
theorem Undisturbed.length_backgroundTasks_le (h : w.Undisturbed rate) :
    w.backgroundTasks.length ≤ w.effort := by
  obtain ⟨past, hcustody⟩ := h.custody
  have hcalls : w.engine.calls.length ≤ w.engine.itinerary.effort w.setup.operations.policy := by
    have hpositive := List.length_le_sum_of_one_le
      (w.engine.itinerary.stops.map (·.2.effort w.setup.operations.policy)) fun m hm => by
        obtain ⟨x, hx, rfl⟩ := List.mem_map.mp hm
        obtain ⟨call, hcall, rfl⟩ := List.mem_map.mp hx
        rw [Point.effort_roused]
        exact Point.effort_pos (h.serves.purpose call hcall) _
    have hstops : w.engine.itinerary.stops.length = w.engine.calls.length := List.length_map ..
    rwa [List.length_map, hstops] at hpositive
  have hmonitors : w.engine.monitors.length ≤ w.engine.watching := by
    have hpositive := List.length_le_sum_of_one_le (w.engine.monitors.map (·.watch.effort)) fun m hm => by
      obtain ⟨k, -, rfl⟩ := List.mem_map.mp hm
      cases k.watch with
      | attaching => decide
      | listening stream => exact Nat.le_refl 1
    rwa [List.length_map] at hpositive
  have hdeletions : (w.engine.deletions.filter (·.closer.isNone)).length ≤ w.server.cluster.live := by
    rw [live_eq h.whole]
    exact (List.length_filter_le ..).trans (Nat.le_add_left ..)
  rw [backgroundTasks, List.length_mergeSort, List.length_append, List.length_append, List.length_map,
    List.length_map, List.length_map, effort, Engine.effort]
  omega

theorem mem_backgroundTasks_of_monitor {k : Monitor} (hk : k ∈ w.engine.monitors) : k.no ∈ w.backgroundTasks :=
  List.mem_mergeSort.mpr (List.mem_append_left _ (List.mem_append_right _ (List.mem_map_of_mem hk)))

theorem mem_backgroundTasks_of_deletion {d : Deletion} (hd : d ∈ w.engine.deletions) (hcloser : d.closer = none) :
    d.no ∈ w.backgroundTasks :=
  List.mem_mergeSort.mpr (List.mem_append_right _ (List.mem_map_of_mem
    (List.mem_filter.mpr ⟨hd, by rw [hcloser]; rfl⟩)))

/-- When the closing and the background wait, all tasks wait. -/
theorem Closes.waits (hcloses : w.Closes no) (h : w.Undisturbed rate) (hno : w.turn no = none)
    (hothers : ∀ k ∈ w.backgroundTasks, k ≠ no → w.turn k = none) (k : TaskNo) : w.turn k = none := by
  obtain ⟨past, hcustody⟩ := h.custody
  by_cases hsame : k = no
  · exact hsame ▸ hno
  cases hcall : w.engine.call? k with
  | some call =>
    obtain ⟨hin, rfl⟩ := Engine.mem_of_call? hcall
    exact absurd (hcloses.calls call hin).1 hsame
  | none =>
    cases hmonitor : w.engine.monitor? k with
    | some j =>
      obtain ⟨hin, rfl⟩ := Engine.mem_of_monitor? hmonitor
      exact hothers _ (mem_backgroundTasks_of_monitor hin) hsame
    | none =>
      cases hdeletion : w.engine.deletion? k with
      | none => rw [World.turn, hcall, hmonitor, hdeletion]
      | some d =>
        have hd := List.mem_of_find?_eq_some hdeletion
        have hnumber : d.no = k := by simpa using List.find?_some hdeletion
        subst hnumber
        cases hcloser : d.closer with
        | none => exact hothers _ (mem_backgroundTasks_of_deletion hd hcloser) hsame
        | some j =>
          -- the closing would end this deletion
          obtain ⟨call, hin, rfl, hpoint⟩ := hcustody.owned d hd j hcloser
          obtain rfl := (hcloses.calls call hin).1
          rw [turn_of_deleting (Engine.call?_of_mem hcustody.calls_nodup hin) hpoint, Option.orElse_eq_or,
            Option.or_eq_none_iff, List.findSome?_eq_none_iff] at hno
          have hown : d ∈ w.engine.deletions.filter (·.closer = some call.no) :=
            List.mem_filter.mpr ⟨hd, by simp [hcloser]⟩
          exact absurd (hno.1 d hown) (hcustody.turnDeletion_ne_none hd)

/-- The pool is being closed before a time limit, and no more than `m` is left to do. -/
structure Shutting (rate : Binary64) (no : TaskNo) (limit m : Nat) (w : World) : Prop where
  /-- Nobody disturbs the pool and its server. -/
  undisturbed : w.Undisturbed rate
  /-- Nobody does anything but to close the pool. -/
  closes : w.Closes no
  /-- The time limit has not passed. -/
  now_lt : w.now < limit
  /-- No more is left to do. -/
  effort_le : w.effort ≤ m

namespace Shutting

variable {limit m : Nat}

theorem turn (h : w.Shutting rate no limit m) {k : TaskNo} (hturn : w.turn k = some w') :
    w'.Shutting rate no limit m ∧ w'.effort < w.effort := by
  have hundisturbed := h.undisturbed.turn (h.closes.guard h.undisturbed) hturn
  have hless := h.undisturbed.effort_turn (fun _ _ _ => h.closes.pending h.undisturbed) hturn hundisturbed
  exact ⟨⟨hundisturbed, h.closes.turn h.undisturbed hturn, (h.undisturbed.now_of_turn hturn).symm ▸ h.now_lt,
    hless.le.trans h.effort_le⟩, hless⟩

/-- Each turn of a closing leaves less to do. -/
theorem tasks_wane (hpatience : m * (m + 1) + m ≤ patience) :
    (World.tasks (some no)).Wanes (Shutting rate no limit m) effort m where
  moves := fun k s s' h hmove => h.turn hmove
  crowded := fun s h =>
    (List.length_filter_le ..).trans (h.undisturbed.length_backgroundTasks_le.trans h.effort_le)
  patient := fun s h => by
    have hmul := Nat.mul_le_mul_right (m + 1) h.effort_le
    omega

/-- With patience enough the closing ends. -/
theorem exists_drive (h : w.Shutting rate no limit m) (hpatience : m * (m + 1) + m + 2 ≤ patience) :
    ∃ w', (World.tasks (some no)).drive (callGoal no limit) w = some w' ∧ w'.Shutting rate no limit m := by
  refine (tasks_wane (Nat.le_of_add_right_le hpatience)).driveFor (fun _ _ hs hmove => hs.turn hmove)
    (fun s hs hrunning hno hwaiting => ?_) h (Or.inl ?_)
  · -- before the closing has ended somebody has a move to make
    exfalso
    have hwaits := hs.closes.waits hs.undisturbed hno fun k hk hother =>
      hwaiting k (List.mem_filter.mpr ⟨hk, decide_eq_true fun hsame => hother (Option.some.inj hsame)⟩)
    have hcalls : s.engine.calls ≠ [] := fun hnone => by
      simp [callGoal, isRunning, Engine.call?, hnone] at hrunning
    obtain ⟨k, hk⟩ := hs.closes.exists_turn hs.undisturbed hcalls
    rw [hwaits k] at hk
    cases hk
  · have heffort := h.effort_le
    have hmul : m * 1 ≤ m * (m + 1) := Nat.mul_le_mul_left _ (Nat.le_add_left 1 m)
    omega

theorem not_isRunning (h : w.Shutting rate no limit m) (hreached : (callGoal no limit).reached w = true) :
    w.isRunning no = false := by
  have hnow : ¬ limit ≤ w.now := Nat.not_le.mpr h.now_lt
  simpa [callGoal, hnow] using hreached

end Shutting

end World

namespace Workload

variable {rate : Binary64} {total : Nat} {results : List (TaskNo × Except DriverError Int)}
  {w w' : Workload} {c : Config} {o : WorkloadOptions} {g : Generator} {no : TaskNo}

/-! ## The run -/

/-- Whatever can be reached in a turn can be reached. -/
theorem exists_giveAll {w₀ : Workload} (hreached : ∃ xs, w₀.giveAll xs = some w) {x : Turn}
    (hgive : w.give x = some w') : ∃ xs, w₀.giveAll xs = some w' := by
  obtain ⟨xs, hrun⟩ := hreached
  refine ⟨xs ++ [x], ?_⟩
  rw [giveAll_append, hrun, Option.bind_some, Workload.giveAll, hgive]
  rfl

/-- Waiting until the workers have finished gives turns. -/
theorem exists_giveAll_of_drive {w₀ : Workload} (hdrive : tasks.drive allFinished w₀ = some w) :
    ∃ xs, w₀.giveAll xs = some w :=
  Tasks.keeps_of_drive (P := fun w => ∃ xs, w₀.giveAll xs = some w)
    (fun due s hs => exists_giveAll hs (x := .pass (due - s.world.now)) rfl)
    (fun x _ _ hs hmove => exists_giveAll hs (x := .move x) hmove) (fun _ _ _ hmove => by cases hmove)
    ⟨[], rfl⟩ hdrive

/-- So does waiting for the closing. -/
theorem exists_giveAll_of_callGoal {limit : Nat} {w₀ : Workload} {world : World}
    (hdrive : (World.tasks (some no)).drive (World.callGoal no limit) w₀.world = some world) :
    ∃ ys, w₀.giveAll ys = some { w₀ with world := world } := by
  have hturn : ∀ k s s', (∃ ys, w₀.giveAll ys = some { w₀ with world := s }) → s.turn k = some s' →
      ∃ ys, w₀.giveAll ys = some { w₀ with world := s' } := fun k s s' hs hmove =>
    exists_giveAll hs (x := .move (.task k)) (by
      show (s.turn k).map _ = _
      rw [hmove]
      rfl)
  exact Tasks.keeps_of_drive (P := fun s => ∃ ys, w₀.giveAll ys = some { w₀ with world := s })
    (fun due s hs => exists_giveAll hs (x := .pass (due - s.now)) rfl) hturn (hturn no) ⟨[], rfl⟩ hdrive

theorem Consistent.setUp_closing (h : w.Consistent rate total results) :
    w.world.setUp .closing (.unnamed w.world.engine.nextNo) PoolScene.noDeeds =
      (w.world.engine.nextNo, w.closing.world) := by
  rw [closing, h.undisturbed.setUp_eq]

/-- What is reported was counted when the workers had finished, and when the closing had ended after that. -/
theorem Consistent.report (h : w.Consistent rate total results)
    (hfinished : ∀ k ∈ w.workers, k.activity = .finished) {r : Report} (hreport : w.report? = .ok r) :
    r.tally = w.tally ∧ r.stats = w.world.engine.stats w.world.setup ∧
      ∃ ys v, w.closing.giveAll ys = some v ∧ w.world.engine.nextNo ∈ v.world.closings ∧
        r.server = v.world.server.cluster := by
  have hshuts := h.shuts hfinished
  unfold report? World.makeCall at hreport
  rw [h.setUp_closing] at hreport
  dsimp only at hreport
  generalize hworld : ((World.tasks (some w.world.engine.nextNo)).drive
    (World.callGoal w.world.engine.nextNo (w.closing.world.now + longestWait)) w.closing.world).getD
      w.closing.world = world at hreport
  obtain ⟨ys, hrun⟩ : ∃ ys, w.closing.giveAll ys = some { w.closing with world := world } := by
    rw [← hworld]
    cases hdrive : (World.tasks (some w.world.engine.nextNo)).drive
        (World.callGoal w.world.engine.nextNo (w.closing.world.now + longestWait)) w.closing.world with
    | none => exact ⟨[], rfl⟩
    | some last => exact exists_giveAll_of_callGoal hdrive
  have hkept := (hshuts.giveAll hrun).1
  -- a closing that takes too long is dropped, which the server does not notice
  obtain ⟨e, hlast⟩ : ∃ e, (if world.isRunning w.world.engine.nextNo then
      world.tryMove (.abandon w.world.engine.nextNo) else world) = { world with engine := e } := by
    split
    · exact hkept.closes.abandon hkept.undisturbed
    · exact ⟨world.engine, rfl⟩
  rw [hlast] at hreport
  split at hreport
  · rename_i hclosed
    obtain rfl := Except.ok.inj hreport
    exact ⟨rfl, rfl, ys, _, hrun, List.contains_iff_mem.mp hclosed, rfl⟩
  · cases hreport

/-! ## Patience -/

/-- A state of a workload with no more to do than `m`. -/
structure Runs (rate : Binary64) (total workers m : Nat) (w : Workload) : Prop where
  /-- The books are kept. -/
  consistent : ∃ results, w.Consistent rate total results
  /-- No workers come or go. -/
  workers : w.workers.length = workers
  /-- No more is left to do. -/
  effort : w.effort ≤ m

variable {workers m : Nat}

theorem Runs.give (h : w.Runs rate total workers m) {x : Turn} (hgive : w.give x = some w') :
    w'.Runs rate total workers m ∧ w'.effort + x.isMove.toNat ≤ w.effort := by
  obtain ⟨results, hconsistent⟩ := h.consistent
  have hless := hconsistent.effort_give hgive
  refine ⟨⟨⟨_, hconsistent.give hgive⟩, ?_, ?_⟩, hless⟩
  · exact (hconsistent.fixed_of_give hgive).2.1.trans h.workers
  · exact (Nat.le_of_add_right_le hless).trans h.effort

/-- Each turn of a workload leaves less to do. -/
theorem tasks_wane (hpatience : m * (workers + m + 1) + (workers + m) ≤ patience) :
    tasks.Wanes (Runs rate total workers m) effort (workers + m) where
  moves := fun x w w' h hmove => h.give (x := .move x) hmove
  crowded := fun w h => by
    obtain ⟨results, hconsistent⟩ := h.consistent
    have htasks := hconsistent.undisturbed.length_backgroundTasks_le
    have heffort : w.world.effort ≤ m := (Nat.le_add_left ..).trans h.effort
    show ((List.range w.workers.length).map Actor.worker ++
      (w.world.backgroundTasks.filter fun no => !w.world.isRunning no).map Actor.task).length ≤ _
    rw [List.length_append, List.length_map, List.length_map, List.length_range, h.workers]
    have hfewer := List.length_filter_le (fun no => !w.world.isRunning no) w.world.backgroundTasks
    omega
  patient := fun w h => by
    have hmul := Nat.mul_le_mul_right (workers + m + 1) h.effort
    omega

/-- A call moves no earlier than it is due. -/
theorem ready_le_of_mem_callDues {w : World} {call : Call} {due : Nat} (hdue : due ∈ w.callDues call) :
    call.point.ready ≤ due := by
  unfold World.callDues at hdue
  cases hpoint : call.point with
  | creating client a since =>
    rw [hpoint] at hdue
    simp only [List.mem_cons, List.not_mem_nil, or_false] at hdue
    show since ≤ due
    rcases hdue with rfl | rfl <;> exact Nat.le_add_right ..
  | createPause client a wake | pausing a wake =>
    rw [hpoint] at hdue
    exact (List.mem_singleton.mp hdue).ge
  | operating a k since =>
    rw [hpoint] at hdue
    exact List.mem_singleton.mp hdue ▸ Nat.le_add_right ..
  | fresh | deleting | draining | settling =>
    rw [hpoint] at hdue
    cases hdue

/-- The time at which an execution moves is due. -/
theorem mem_callDues_of_ready {w : World} (h : w.Undisturbed rate) {call : Call}
    (hlater : w.now < call.point.ready) : call.point.ready ∈ w.callDues call := by
  unfold World.callDues
  cases hpoint : call.point with
  | creating client a since =>
    exact List.mem_cons.mpr (Or.inl (h.createDue_eq since).symm)
  | createPause client a wake | pausing a wake => exact List.mem_singleton_self wake
  | operating a k since =>
    rw [h.deeds]
    exact List.mem_singleton_self since
  | fresh | deleting | draining | settling =>
    rw [hpoint] at hlater
    cases hlater

theorem exists_unfinished (h : allFinished.reached w = false) : ∃ k ∈ w.workers, k.activity ≠ .finished := by
  by_contra hnone
  have hreached : allFinished.reached w = true :=
    allFinished_iff.mpr fun k hk => by_contra fun hactivity => hnone ⟨k, hk, hactivity⟩
  rw [h] at hreached
  cases hreached

/-- A worker in its place has a turn. -/
theorem mem_background {k : Worker} {n : Nat} (hk : w.workers[n]? = some k) : .worker n ∈ tasks.background w :=
  List.mem_append_left _ (List.mem_map_of_mem (List.mem_range.mpr (List.getElem?_eq_some_iff.mp hk).1))

/-- The time at which a worker goes on that waits is due. -/
theorem Consistent.ready_mem_dues (h : w.Consistent rate total results) {k : Worker} (hk : k ∈ w.workers)
    (hlater : w.world.now < w.ready k) : w.ready k ∈ tasks.dues w := by
  obtain ⟨left, activity⟩ := k
  cases activity with
  | ready | finished => cases hlater
  | resting wake => exact List.mem_append_right _ (List.mem_filterMap.mpr ⟨_, hk, rfl⟩)
  | executing no =>
    replace hlater : w.world.now < (w.world.engine.call? no).elim 0 (·.point.ready) := hlater
    show (w.world.engine.call? no).elim 0 (·.point.ready) ∈ _
    cases hcall : w.world.engine.call? no with
    | none => rw [hcall] at hlater; cases hlater
    | some call =>
      rw [hcall] at hlater
      exact List.mem_append_left _ (List.mem_append_left _ (List.mem_flatMap.mpr
        ⟨call, (Engine.mem_of_call? hcall).1, mem_callDues_of_ready h.undisturbed hlater⟩))

/-- When everybody waits, only workers are due that have not finished. -/
theorem Consistent.exists_worker_of_due (h : w.Consistent rate total results) (hwaiting : tasks.Waiting w)
    {due : Nat} (hdue : due ∈ tasks.dues w) :
    ∃ (n : Nat) (k : Worker), w.workers[n]? = some k ∧ k.activity ≠ .finished ∧ w.ready k ≤ due := by
  obtain ⟨past, hcustody⟩ := h.undisturbed.custody
  rcases List.mem_append.mp hdue with hdue | hdue
  · rcases List.mem_append.mp hdue with hdue | hdue
    · -- a worker waits for the call that is due
      obtain ⟨call, hcall, hdue⟩ := List.mem_flatMap.mp hdue
      have hwaits := h.calls.symm.subset (List.mem_append_left _ (List.mem_map_of_mem (f := (·.no)) hcall))
      obtain ⟨⟨left, activity⟩, hk, hwaits⟩ := List.mem_filterMap.mp hwaits
      obtain ⟨n, hlt, hn⟩ := List.getElem_of_mem hk
      refine ⟨n, _, hn ▸ List.getElem?_eq_getElem hlt, ?_⟩
      cases activity with
      | executing no =>
        obtain rfl : no = call.no := Option.some.inj hwaits
        refine ⟨(fun hfinished => by cases hfinished), ?_⟩
        show (w.world.engine.call? call.no).elim 0 (·.point.ready) ≤ due
        rw [Engine.call?_of_mem hcustody.calls_nodup hcall]
        exact ready_le_of_mem_callDues hdue
      | _ => cases hwaits
    · -- no deletion waits
      obtain ⟨d, hd, -⟩ := List.mem_flatMap.mp hdue
      have hcloser : d.closer = none := List.filterMap_eq_nil_iff.mp h.awaited d hd
      have hturn := (hcustody.turn_eq_turnDeletion hd).trans_ne (hcustody.turnDeletion_ne_none hd)
      have hrunning : w.world.isRunning d.no = false := by
        rw [World.isRunning, hcustody.call?_eq_none (List.mem_append_right _ (List.mem_map_of_mem hd))]
        rfl
      have hin : .task d.no ∈ tasks.background w := List.mem_append_right _ (List.mem_map_of_mem
        (List.mem_filter.mpr ⟨World.mem_backgroundTasks_of_deletion hd hcloser, by rw [hrunning]; rfl⟩))
      have hnone : (w.world.turn d.no).map (fun world => { w with world := world }) = none := hwaiting _ hin
      exact absurd (Option.map_eq_none_iff.mp hnone) hturn
  · obtain ⟨⟨left, activity⟩, hk, hwake⟩ := List.mem_filterMap.mp hdue
    obtain ⟨n, hlt, hn⟩ := List.getElem_of_mem hk
    refine ⟨n, _, hn ▸ List.getElem?_eq_getElem hlt, ?_⟩
    cases activity with
    | resting wake => exact ⟨(fun hfinished => by cases hfinished), (Option.some.inj hwake).le⟩
    | _ => cases hwake

theorem Consistent.setClock_eq (h : w.Consistent rate total results) (due : Nat) :
    tasks.setClock due w = { w with world := w.world.after (due - w.world.now) } :=
  congrArg (fun world => ({ w with world := world } : Workload)) (h.undisturbed.tryMove_advance _)

/-- If everybody waits, something is due, and somebody moves then. -/
theorem Consistent.exists_due (h : w.Consistent rate total results) (hunfinished : allFinished.reached w = false)
    (hwaiting : tasks.Waiting w) : ∃ due, tasks.nextDue allFinished w = some due ∧
      Tasks.Wanes.Ready tasks allFinished (tasks.setClock due w) := by
  obtain ⟨k, hk, hactivity⟩ := exists_unfinished hunfinished
  obtain ⟨n, hlt, hn⟩ := List.getElem_of_mem hk
  replace hn : w.workers[n]? = some k := hn ▸ List.getElem?_eq_getElem hlt
  -- a worker that has not finished could move if its time had come
  have hlater : w.world.now < w.ready k := by
    by_contra hready
    have hmove := h.isSome_moveWorker hn hactivity (Nat.not_lt.mp hready)
    rw [show w.moveWorker n = none from hwaiting _ (mem_background hn)] at hmove
    cases hmove
  obtain ⟨due, hnext⟩ : ∃ due, tasks.nextDue allFinished w = some due := by
    refine Option.ne_none_iff_exists'.mp fun hnone => ?_
    have hempty := List.min?_eq_none_iff.mp hnone
    have hin : w.ready k ∈ (tasks.dues w ++ allFinished.dues w).filter (tasks.now w < ·) :=
      List.mem_filter.mpr ⟨List.mem_append_left _ (h.ready_mem_dues hk hlater), decide_eq_true hlater⟩
    rw [hempty] at hin
    cases hin
  refine ⟨due, hnext, ?_⟩
  obtain ⟨hdue, hnow⟩ := List.mem_filter.mp (List.min?_mem hnext)
  replace hnow : w.world.now < due := of_decide_eq_true hnow
  rw [show allFinished.dues w = [] from rfl, List.append_nil] at hdue
  -- whoever is due first can move when the clock has come there
  obtain ⟨j, worker, hj, hactivity, hready⟩ := h.exists_worker_of_due hwaiting hdue
  rw [h.setClock_eq]
  have hmove := (h.after (due - w.world.now)).isSome_moveWorker hj hactivity (by
    show w.ready worker ≤ w.world.now + (due - w.world.now)
    omega)
  exact Or.inr ⟨.worker j, mem_background (w := { w with world := w.world.after _ }) hj,
    Option.isSome_iff_ne_none.mp hmove⟩

/-- A workload that is run takes turns until its workers have finished, and then until its pool is closed. -/
theorem exists_turns_of_run {r : Report} (hrun : run c o g = .ok r) :
    ∃ xs w ys v, (start c o g).giveAll xs = some w ∧ allFinished.reached w = true ∧
      w.closing.giveAll ys = some v ∧ w.world.engine.nextNo ∈ v.world.closings ∧ r.tally = w.tally ∧
      r.stats = w.world.engine.stats w.world.setup ∧ r.server = v.world.server.cluster := by
  rw [run_eq] at hrun
  split at hrun
  · cases hrun
  split at hrun
  · cases hrun
  cases hdrive : tasks.drive allFinished (start c o g) with
  | none => rw [hdrive] at hrun; cases hrun
  | some w =>
    rw [hdrive] at hrun
    have hfinished := Tasks.reached_of_driveFor hdrive
    obtain ⟨xs, hreached⟩ := exists_giveAll_of_drive hdrive
    have hconsistent := ((consistent_start c o g).giveAll hreached).1
    obtain ⟨htally, hstats, ys, v, hclosing, hclosed, hserver⟩ :=
      hconsistent.report (allFinished_iff.mp hfinished) hrun
    exact ⟨xs, w, ys, v, hreached, hfinished, hclosing, hclosed, htally, hstats, hserver⟩

/-- With patience enough the workers finish. -/
theorem Runs.exists_drive (h : w.Runs rate total workers m)
    (hpatience : m * (workers + m + 1) + (workers + m) + 2 ≤ patience) :
    ∃ w', tasks.drive allFinished w = some w' ∧ w'.Runs rate total workers m := by
  refine (tasks_wane (Nat.le_of_add_right_le hpatience)).driveFor (fun _ _ _ hmove => by cases hmove)
    (fun s hs hunfinished _ hwaiting => ?_) h (Or.inl ?_)
  · obtain ⟨results, hconsistent⟩ := hs.consistent
    obtain ⟨due, hnext, hready⟩ := hconsistent.exists_due hunfinished hwaiting
    obtain ⟨hkept, -⟩ := hs.give (x := .pass (due - s.world.now)) rfl
    exact ⟨due, hnext, hkept, by rw [hconsistent.setClock_eq]; rfl, hready⟩
  · have heffort := h.effort
    have hmul : m * 1 ≤ m * (workers + m + 1) := Nat.mul_le_mul_left _ (Nat.le_add_left 1 _)
    omega

/-- With patience enough the pool is closed. -/
theorem Consistent.exists_report (h : w.Consistent rate total results)
    (hfinished : ∀ k ∈ w.workers, k.activity = .finished) (heffort : w.closing.effort ≤ m)
    (hpatience : m * (m + 1) + m + 2 ≤ patience) : ∃ r, w.report? = .ok r := by
  obtain ⟨hundisturbed, hcloses, hstill⟩ := h.shuts hfinished
  have hworld : w.closing.world.Shutting rate w.world.engine.nextNo (w.closing.world.now + longestWait) m :=
    ⟨hundisturbed, hcloses, Nat.lt_add_of_pos_right (by decide), (Nat.le_add_left ..).trans heffort⟩
  obtain ⟨last, hdrive, hlast⟩ := hworld.exists_drive hpatience
  have hended := hlast.not_isRunning (Tasks.reached_of_driveFor hdrive)
  have hclosed : last.closings.contains w.world.engine.nextNo = true :=
    List.contains_iff_mem.mpr (hlast.closes.mem_closings hended)
  refine ⟨⟨w.tally, w.world.engine.stats w.world.setup, last.server.cluster, last.events⟩, ?_⟩
  unfold report? World.makeCall
  rw [h.setUp_closing]
  dsimp only
  rw [hdrive, Option.getD_some, hended, if_neg Bool.false_ne_true, if_pos hclosed]

/-- A closing has four moves of its own to make. -/
theorem Consistent.effort_closing (h : w.Consistent rate total results) : w.closing.effort = w.effort + 4 := by
  rw [closing, h.undisturbed.setUp_eq]
  show _ + (w.world.withCall _ _).effort = _ + w.world.effort + 4
  rw [World.effort_withCall]
  rfl

/-- The most turns that a workload takes before its pool is closed. -/
def mostTurns (c : Config) (o : WorkloadOptions) : Nat :=
  o.workers * (o.operations * (7 * ((Policy.ofConfig c.retry).maxAttempts - 1) + 10) + 1)

theorem effort_start (c : Config) (o : WorkloadOptions) (g : Generator) :
    (start c o g).effort = mostTurns c o := by
  unfold start
  generalize g.spawn = drawn
  rw [effort, List.map_replicate, List.sum_replicate]
  rfl

/-- With patience enough a workload is run to its end. -/
theorem exists_run (hfraction : o.failureRate.isFraction = true) (hworkers : 0 < o.workers)
    (hpatience : (mostTurns c o + 4) * (o.workers + mostTurns c o + 6) + o.workers ≤ patience) :
    ∃ r, run c o g = .ok r := by
  generalize hm : mostTurns c o = m at hpatience
  have hstart : (start c o g).Runs o.failureRate.clampFraction (o.workers * o.operations) o.workers m :=
    ⟨⟨[], consistent_start c o g⟩, (fixed_start c o g).2, (hm ▸ effort_start c o g).le⟩
  have hsplit : (m + 4) * (o.workers + m + 6) = m * (o.workers + m + 6) + 4 * (o.workers + m + 6) := Nat.add_mul ..
  have hrun : m * (o.workers + m + 1) ≤ m * (o.workers + m + 6) := Nat.mul_le_mul_left _ (by omega)
  have hclose : (m + 4) * (m + 4 + 1) + (m + 4) * 2 ≤ (m + 4) * (o.workers + m + 6) := by
    rw [← Nat.mul_add]
    exact Nat.mul_le_mul_left _ (by omega)
  obtain ⟨w, hdrive, hruns⟩ := hstart.exists_drive (by omega)
  obtain ⟨results, hconsistent⟩ := hruns.consistent
  have hfinished := allFinished_iff.mp (Tasks.reached_of_driveFor hdrive)
  have hclosing : w.closing.effort ≤ m + 4 := hconsistent.effort_closing ▸ Nat.add_le_add_right hruns.effort 4
  obtain ⟨r, hreport⟩ := hconsistent.exists_report hfinished hclosing (by omega)
  refine ⟨r, ?_⟩
  rw [run_eq, hfraction, if_neg (by simp), if_neg hworkers.ne', hdrive]
  exact hreport

/-! ## Whatever the order of the turns -/

/-- Whatever the order of the turns, a workload comes to its end, and so does the closing of its pool after
that; then the books balance and no session is left.  A workload that is run goes in one of these orders, and it
is run to its end if there is patience enough. -/
theorem workload_conserved_of_giveAll (c : Config) (o : WorkloadOptions) (g : Generator)
    (hfraction : o.failureRate.isFraction = true) (hworkers : 0 < o.workers) :
    (∀ xs w, (start c o g).giveAll xs = some w →
      xs.countP Turn.isMove ≤ mostTurns c o ∧
      (allFinished.reached w = false →
        ∃ millis a, ((w.give (.pass millis)).bind (·.give (.move a))).isSome) ∧
      (allFinished.reached w = true →
        w.Balanced c o ((start c o g).taken xs) ∧
        ∀ ys v, w.closing.giveAll ys = some v →
          xs.countP Turn.isMove + ys.countP Turn.isMove ≤ mostTurns c o + 4 ∧
          (v.world.isRunning w.world.engine.nextNo = true → ∃ a, (v.give (.move a)).isSome) ∧
          (v.world.isRunning w.world.engine.nextNo = false → w.world.engine.nextNo ∈ v.world.closings) ∧
          (w.world.engine.nextNo ∈ v.world.closings →
            v.world.server.cluster.deleted = v.world.server.cluster.created ∧
            v.world.server.cluster.createCalls = v.world.server.cluster.created ∧
            v.world.server.cluster.live = 0))) ∧
      (∀ r, run c o g = .ok r → ∃ xs w ys v, (start c o g).giveAll xs = some w ∧
        allFinished.reached w = true ∧ w.closing.giveAll ys = some v ∧
        w.world.engine.nextNo ∈ v.world.closings ∧ r.tally = w.tally ∧
        r.stats = w.world.engine.stats w.world.setup ∧ r.server = v.world.server.cluster) ∧
      ((mostTurns c o + 4) * (o.workers + mostTurns c o + 6) + o.workers ≤ patience →
        ∃ r, run c o g = .ok r) := by
  refine ⟨fun xs w hrun => ?_, fun r => exists_turns_of_run, exists_run hfraction hworkers⟩
  obtain ⟨hconsistent, hsetup, hlength, hless⟩ := (consistent_start c o g).giveAll hrun
  obtain ⟨hlimit, hmany⟩ := fixed_start c o g
  rw [effort_start] at hless
  refine ⟨(Nat.le_add_left ..).trans hless,
    fun hunfinished => hconsistent.exists_move (exists_unfinished hunfinished), fun hreached => ?_⟩
  have hfinished := allFinished_iff.mp hreached
  refine ⟨hconsistent.balanced hfraction (hsetup ▸ hlimit) (hlength.trans hmany) hfinished,
    fun ys v hclosing => ?_⟩
  -- the closing that follows spends what is left of the same effort
  obtain ⟨hshuts, hless'⟩ := (hconsistent.shuts hfinished).giveAll hclosing
  rw [hconsistent.effort_closing] at hless'
  exact ⟨by omega, hshuts.exists_move, hshuts.closes.mem_closings, hshuts.closes.emptied hshuts.undisturbed⟩

/-- Two workers with one operation each. -/
def twoWorkers : WorkloadOptions := { workers := 2, operations := 1, failureRate := .zero }

/-- The workers take turns until both of them have finished. -/
def byTurns : List Turn := (List.replicate 6 [.move (.worker 0), .move (.worker 1)]).flatten

/-- Both operations succeed, on sessions of their own, which the closing deletes; and so they do when the
workload is run. -/
theorem workload_conserved_of_byTurns :
    twoWorkers.failureRate.isFraction = true ∧ 0 < twoWorkers.workers ∧
      (∃ w v, (start {} twoWorkers ⟨1⟩).giveAll byTurns = some w ∧ w.tally.ok = 2 ∧
        w.Balanced {} twoWorkers ((start {} twoWorkers ⟨1⟩).taken byTurns) ∧
        w.closing.giveAll (List.replicate 4 (.move (.task 4))) = some v ∧
        v.world.server.cluster.created = 2 ∧
        v.world.server.cluster.deleted = v.world.server.cluster.created ∧
        v.world.server.cluster.live = 0) ∧
      ∃ r, run {} twoWorkers ⟨1⟩ = .ok r := by
  have hfraction : twoWorkers.failureRate.isFraction = true := by decide +kernel
  have hworkers : 0 < twoWorkers.workers := by decide
  obtain ⟨hrun, -, hpatient⟩ := workload_conserved_of_giveAll {} twoWorkers ⟨1⟩ hfraction hworkers
  have hends : ((start {} twoWorkers ⟨1⟩).giveAll byTurns).any (fun w =>
      allFinished.reached w && w.tally.ok = 2 && w.world.engine.nextNo = 4 &&
        (w.closing.giveAll (List.replicate 4 (.move (.task 4)))).any fun v =>
          v.world.closings = [4] && v.world.server.cluster.created = 2) = true := by decide +kernel
  obtain ⟨w, hw, hends⟩ := (Option.any_eq_true _ _).mp hends
  simp only [Bool.and_eq_true, decide_eq_true_eq] at hends
  obtain ⟨⟨⟨hreached, hok⟩, hno⟩, hcloses⟩ := hends
  obtain ⟨v, hv, hcloses⟩ := (Option.any_eq_true _ _).mp hcloses
  simp only [Bool.and_eq_true, decide_eq_true_eq] at hcloses
  obtain ⟨hclosings, hcreated⟩ := hcloses
  obtain ⟨hbalanced, hclosing⟩ := (hrun byTurns w hw).2.2 hreached
  have hclosed : w.world.engine.nextNo ∈ v.world.closings := by
    rw [hno, hclosings]
    exact List.mem_singleton_self 4
  obtain ⟨hdeleted, -, hlive⟩ := (hclosing _ v hv).2.2.2 hclosed
  exact ⟨hfraction, hworkers, ⟨w, v, hw, hok, hbalanced, hv, hcreated, hdeleted, hlive⟩,
    hpatient (by decide +kernel)⟩

end Workload

end PooledSessions
