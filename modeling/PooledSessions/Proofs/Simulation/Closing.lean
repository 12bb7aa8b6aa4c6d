import PooledSessions.Proofs.Simulation.Prompts
/-!
# The closing of a pool

Once a closing has begun, the pool hands out no lease any more (`World.Shut`), so that what is left can
only become less.  A closing waits for its own deletions, then for the creations in flight, then for the
deletions of others; a creation that ends in a closed pool starts the deletion of its session before it
gives its place back.  So nothing is left when a closing ends, and when every task waits, a closing can
only be waiting for a creation.
-/

namespace PooledSessions

namespace Engine

/-! ## A closed pool moves -/

variable {ε α : Type} [PooledError ε] {c : Setup} {e e' : Engine ε α}

/-- What a closed pool tells in a move: no lease goes out, and a caller is told that the pool is closed
unless his creation was in flight. -/
theorem told_of_closed {m : Move ε α} (hclosed : e.pool.closed = true) (hsignals : e.signals = [])
    (hstep : e.step c m = some e') :
    (∀ no r, Signal.acquired no r ∈ e'.signals →
      ∃ p, r = .error p ∧ (p = .closed ∨ e.HasCreation no)) ∧
      ∀ no s, Signal.operationStarted no s ∉ e'.signals := by
  rcases onward_step hstep with honward | ⟨call, -, -, -, -, -, -, rfl⟩
  · obtain ⟨told, heq, htold⟩ := honward.told
    rw [hsignals, List.nil_append] at heq
    rw [heq]
    refine ⟨fun no r hin => ?_, fun no s hin => ?_⟩
    · cases r with
      | ok k =>
        have hopen := (htold _ hin).2
        rw [hclosed] at hopen
        cases hopen
      | error p => exact ⟨p, rfl, htold _ hin hclosed⟩
    · have hopen : e.pool.closed = false := htold _ hin
      rw [hclosed] at hopen
      cases hopen
  · rw [signals_ended hsignals]
    refine ⟨fun no r hin => ?_, fun no s hin => ?_⟩
    · cases List.mem_singleton.mp hin
    · cases List.mem_singleton.mp hin

/-- In a closed pool nobody is handed a lease, and no creation begins. -/
theorem less_of_closed {m : Move ε α} (hclosed : e.pool.closed = true)
    (hstep : e.step c m = some e') :
    e'.held ⊆ e.held ∧ ∀ no, e'.HasCreation no → e.HasCreation no := by
  rcases onward_step hstep with honward | ⟨call, -, -, -, -, -, -, rfl⟩
  · refine ⟨honward.held fun _ => hclosed, ?_⟩
    rintro no ⟨k, hk, rfl, hcreates⟩
    exact honward.creating hclosed k hk hcreates
  · refine ⟨List.Subset.refl _, ?_⟩
    rintro no ⟨k, hk, rfl, hcreates⟩
    exact ⟨k, List.mem_of_mem_filter hk, rfl, hcreates⟩

end Engine

namespace World

variable {w w' w'' : World} {past : List (SessionId × Option (Except RpcError Unit))}

/-- Whether the end of an acquisition is what callers of the closed pool of a world are told. -/
def Refused (w : World) (x : TaskNo × Except PoolError Handle) : Prop :=
  ∃ p, x.2 = .error p ∧ (p = .closed ∨ w.engine.HasCreation x.1)

/-- What a world with a closed pool goes on to. -/
structure Shut (w w' : World) : Prop where
  /-- The pool stays closed. -/
  closed : w'.engine.pool.closed = true
  /-- Nobody is handed a lease. -/
  held : w'.engine.held ⊆ w.engine.held
  /-- No creation begins. -/
  creating : ∀ no, w'.engine.HasCreation no → w.engine.HasCreation no
  /-- Acquisitions fail. -/
  acquired : ∃ more, w'.acquired = w.acquired ++ more ∧ ∀ x ∈ more, w.Refused x
  /-- No operation is started. -/
  visits : w'.visits = w.visits
  /-- Closings that have ended have ended. -/
  closings : w.closings ⊆ w'.closings

namespace Shut

protected theorem rfl (hclosed : w.engine.pool.closed = true) : Shut w w :=
  ⟨hclosed, List.Subset.refl _, fun _ h => h, ⟨[], (List.append_nil _).symm, by simp⟩, rfl,
    List.Subset.refl _⟩

theorem trans (h : Shut w w') (h' : Shut w' w'') : Shut w w'' := by
  obtain ⟨more, hmore, hrefused⟩ := h.acquired
  obtain ⟨more', hmore', hrefused'⟩ := h'.acquired
  refine ⟨h'.closed, List.Subset.trans h'.held h.held, fun no hno => h.creating no (h'.creating no hno),
    ⟨more ++ more', ?_, ?_⟩, h'.visits.trans h.visits, List.Subset.trans h.closings h'.closings⟩
  · rw [hmore', hmore, List.append_assoc]
  · intro x hx
    rcases List.mem_append.mp hx with hx | hx
    · exact hrefused x hx
    · obtain ⟨p, hp, hwhy⟩ := hrefused' x hx
      exact ⟨p, hp, hwhy.imp_right (h.creating x.1)⟩

theorem of_move {server : Server} {m : Move DriverError Int} (hclosed : w.engine.pool.closed = true)
    (hsignals : w.engine.signals = []) (hdetached : w.detached = [])
    (hmove : ({ w with server := server } : World).move m = some w') : Shut w w' := by
  obtain ⟨e, hstep, rfl⟩ := exists_of_move (w := { w with server := server }) hdetached hmove
  have hheard := heard_hearAll { w with server := server } e
  obtain ⟨hacquired, hvisits⟩ := Engine.told_of_closed hclosed hsignals hstep
  obtain ⟨hheld, hcreating⟩ := Engine.less_of_closed hclosed hstep
  refine ⟨?_, ?_, ?_, ⟨_, hheard.acquired, ?_⟩, ?_, ?_⟩
  · rw [pool_hearAll]
    exact (Engine.closed_of_step hclosed hstep).1
  · rw [held_hearAll]
    exact hheld
  · intro no hno
    rw [Engine.HasCreation, calls_hearAll] at hno
    exact hcreating no hno
  · intro x hx
    obtain ⟨s, hs, hsome⟩ := List.mem_filterMap.mp hx
    cases s with
    | acquired no r =>
      cases hsome
      exact hacquired no r hs
    | _ => cases hsome
  -- no operation is started, so nobody visits a session
  · have hnone : e.signals.filterMap Signal.visit? = [] := by
      refine List.filterMap_eq_nil_iff.mpr fun s hs => ?_
      cases s with
      | operationStarted no info => exact absurd hs (hvisits no info)
      | _ => rfl
    exact hheard.visits.trans (by rw [hnone, List.append_nil])
  · exact hheard.closings ▸ List.subset_append_left _ _

/-- Whatever happens, a closed pool hands out nothing. -/
theorem of_happen (h : w.Custody past) (hclosed : w.engine.pool.closed = true) {x : Happening}
    (hhappen : w.happen x = some w') : Shut w w' := by
  obtain ⟨m, server, -, hmove⟩ := causes_of_happen hhappen
  cases m with
  | none =>
    cases hmove
    exact { Shut.rfl hclosed with }
  | some m => exact of_move hclosed h.signals h.detached hmove

/-- Wherever it happens, a closed pool hands out nothing. -/
theorem of_happenAt (h : w.Custody past) (hclosed : w.engine.pool.closed = true) {x : Bool × Happening}
    (hhappen : w.happenAt x = some w') : Shut w w' :=
  { of_happen (h.placed x.1) hclosed hhappen with }

/-- After every run, a closed pool has handed out nothing. -/
theorem of_run {xs : List (Bool × Happening)} (h : w.Custody past) (hclosed : w.engine.pool.closed = true)
    (hrun : w.run xs = some w') : Shut w w' :=
  h.holds_of_run (P := Shut w)
    (fun _ _ _ _ _ hu hhappen hshut => hshut.trans (of_happenAt hu hshut.closed hhappen)) hrun
    (Shut.rfl hclosed)

end Shut

/-! ## Turns of closings -/

variable {call : Call}

theorem turn_of_fresh {purpose : Purpose} (hcall : w.engine.call? call.no = some call)
    (hpoint : call.point = .fresh purpose) : w.turn call.no = w.move (.start call.no) := by
  rw [turn, hcall]
  show w.turnCall call = _
  rw [turnCall, noticed_eq_none hcall (by rw [Engine.noticed, hpoint]), Option.orElse_none, hpoint]

theorem turn_of_deleting (hcall : w.engine.call? call.no = some call)
    (hpoint : call.point = .deleting) : w.turn call.no =
      ((w.engine.deletions.filter (·.closer = some call.no)).findSome? w.turnDeletion).orElse
        fun _ => w.move (.proceed call.no) := by
  rw [turn, hcall]
  show w.turnCall call = _
  rw [turnCall, noticed_eq_none hcall (by rw [Engine.noticed, hpoint]), Option.orElse_none, hpoint]

theorem turn_of_proceeding (hcall : w.engine.call? call.no = some call)
    (hpoint : (∃ woken, call.point = .draining woken) ∨ call.point = .settling) :
    w.turn call.no = w.move (.proceed call.no) := by
  rw [turn, hcall]
  show w.turnCall call = _
  rcases hpoint with ⟨woken, hpoint⟩ | hpoint
  · rw [turnCall, noticed_eq_none hcall (by rw [Engine.noticed, hpoint]), Option.orElse_none, hpoint]
  · rw [turnCall, noticed_eq_none hcall (by rw [Engine.noticed, hpoint]), Option.orElse_none, hpoint]

/-- A closing whose turn it is goes on, if what it waits for has come. -/
theorem move_proceed_ne_none (hcall : w.engine.call? call.no = some call)
    (hsome : w.engine.proceed call ≠ none) : w.move (.proceed call.no) ≠ none := by
  rw [Ne, move_eq_none_iff, Engine.step, hcall]
  exact hsome

namespace Custody

/-- The pool is closed as soon as a closing has begun. -/
theorem closed_of_begun (h : w.Custody past) (hcall : w.engine.call? call.no = some call)
    (hpoint : call.point = .fresh .closing) (hturn : w.turn call.no = some w') :
    w'.engine.pool.closed = true := by
  rw [turn_of_fresh hcall hpoint] at hturn
  obtain ⟨e, hstep, rfl⟩ := exists_of_move h.detached hturn
  have hbegun : e = w.engine.beginClose w.setup call.no := by
    rw [Engine.step, hcall] at hstep
    simp only [Option.bind_eq_bind, Option.bind_some, hpoint] at hstep
    exact (Option.some.inj hstep).symm
  rw [pool_hearAll, hbegun, Engine.beginClose_eq]
  rfl

/-- A deletion has a turn to take. -/
theorem turnDeletion_ne_none (h : w.Custody past) {d : Deletion} (hd : d ∈ w.engine.deletions) :
    w.turnDeletion d ≠ none := by
  obtain ⟨due, hdue, hremoval⟩ := h.removal_eq hd
  unfold turnDeletion
  dsimp only
  rw [if_pos (by rw [hremoval]; exact hdue), Ne, move_eq_none_iff, Engine.step,
    Engine.deletion?_of_mem h.deletions_nodup hd]
  exact Option.some_ne_none _

/-- A deletion that runs in the background takes its turns under its own number. -/
theorem turn_eq_turnDeletion (h : w.Custody past) {d : Deletion} (hd : d ∈ w.engine.deletions) :
    w.turn d.no = w.turnDeletion d := by
  have hcall := h.call?_eq_none (List.mem_append_right _ (List.mem_map_of_mem hd))
  rw [turn, hcall, h.monitor?_eq_none hd, Engine.deletion?_of_mem h.deletions_nodup hd]

/-- When all tasks wait, a closing that has not ended waits for a creation in flight. -/
theorem pending_pos_of_waiting (h : w.Custody past) (hwaiting : ∀ no, w.turn no = none)
    (hcall : call ∈ w.engine.calls)
    (hcloses : call.point.closes = true ∨ call.point = .fresh .closing) :
    0 < w.engine.pool.pending := by
  have hfind := Engine.call?_of_mem h.calls_nodup hcall
  have hturn := hwaiting call.no
  rcases hcloses with hcloses | hfresh
  · cases hpoint : call.point with
    | deleting =>
      -- its own deletions have a turn to take, and without them the closing has one itself
      exfalso
      rw [turn_of_deleting hfind hpoint, Option.orElse_eq_or, Option.or_eq_none_iff] at hturn
      have hnone : w.engine.deletions.any (·.closer = some call.no) = false := by
        rw [List.any_eq_false]
        intro d hd hown
        exact h.turnDeletion_ne_none hd (List.findSome?_eq_none_iff.mp hturn.1 d
          (List.mem_filter.mpr ⟨hd, hown⟩))
      refine move_proceed_ne_none hfind ?_ hturn.2
      rw [Engine.proceed, hpoint]
      simp [hnone]
    | draining woken =>
      cases woken with
      | false => exact h.atRest.drains call hcall hpoint
      | true =>
        rw [turn_of_proceeding hfind (Or.inl ⟨true, hpoint⟩)] at hturn
        refine absurd hturn (move_proceed_ne_none hfind ?_)
        rw [Engine.proceed, hpoint]
        exact Option.some_ne_none _
    | settling =>
      -- likewise for the deletions in the background, which take turns under their own numbers
      exfalso
      rw [turn_of_proceeding hfind (Or.inr hpoint)] at hturn
      have hnone : w.engine.deletions.any (·.closer.isNone) = false := by
        rw [List.any_eq_false]
        intro d hd _
        exact h.turnDeletion_ne_none hd ((h.turn_eq_turnDeletion hd).symm.trans (hwaiting d.no))
      refine move_proceed_ne_none hfind ?_ hturn
      rw [Engine.proceed, hpoint]
      simp [hnone]
    | _ =>
      rw [hpoint] at hcloses
      cases hcloses
  · exfalso
    rw [turn_of_fresh hfind hfresh, move_eq_none_iff, Engine.step, hfind] at hturn
    simp [hfresh] at hturn

/-- What is left when a closing has ended. -/
theorem empty_of_closings (h : w.Custody past) (hne : w.closings ≠ []) :
    w.engine.pool.pending = 0 ∧ w.engine.pool.active = [] ∧ w.engine.pool.idle = [] ∧
      w.engine.monitors = [] ∧ w.engine.deletions = [] := by
  obtain ⟨hclosed, hpending, hdeletions⟩ := h.emptied hne
  obtain ⟨hidle, hactive⟩ := h.atRest.tables.shut hclosed
  refine ⟨hpending, hactive, hidle, ?_, hdeletions⟩
  refine List.eq_nil_iff_forall_not_mem.mpr fun m hm => ?_
  obtain ⟨t, ht, -⟩ := h.atRest.watched m hm
  have hin : m.id ∈ w.engine.pool.names := Pool.mem_names_of_find? ht
  rw [Pool.names, show w.engine.pool.active = [] from hactive] at hin
  cases hin

/-- What is left on the server when a closing has ended, if nothing has been left behind. -/
theorem deleted_of_closings (h : w.Custody past) (hwhole : w.Whole) (hne : w.closings ≠ []) :
    w.server.cluster.live = 0 ∧ w.server.cluster.deleted = w.server.cluster.created := by
  obtain ⟨-, hactive, -, -, hdeletions⟩ := h.empty_of_closings hne
  have hlive : w.server.cluster.live = 0 := by
    have hlength := hwhole.perm.length_eq
    rw [Ledger.sessions, Pool.names, show w.engine.ledger.pool.active = [] from hactive,
      show w.engine.ledger.deletions = [] from hdeletions, Cluster.length_names] at hlength
    exact hlength.symm
  exact ⟨hlive, by rw [h.balanced.conserved, hlive, Nat.add_zero]⟩

end Custody

/-- Whenever a closing has ended, nothing is left in the pool, now and after every further run; and nothing is
left on the server, as long as deletions could always be started.  From the moment at which a closing has
begun, the pool is closed for good: it hands out no lease and starts no operation, and callers are told that
it is closed, unless their creation was in flight.  When all tasks wait, a closing that has not ended waits
for a creation in flight. -/
theorem closing_complete_of_run (setup : Setup) (latency : Span) (g g' : Generator)
    (deeds : TaskNo → Nat → Deed) (xs : List (Bool × Happening)) (w : World)
    (hrun : (begin setup latency g g' deeds).run xs = some w) :
    (∀ no ∈ w.closings, ∀ later w', w.run later = some w' →
        no ∈ w'.closings ∧ w'.engine.pool.pending = 0 ∧ w'.engine.pool.active = [] ∧
          w'.engine.pool.idle = [] ∧ w'.engine.monitors = [] ∧ w'.engine.deletions = [] ∧
          ((∀ x ∈ xs ++ later, x.1 = true) → w'.server.cluster.live = 0 ∧
            w'.server.cluster.deleted = w'.server.cluster.created)) ∧
      (∀ call w', w.engine.call? call.no = some call → call.point = .fresh .closing →
        w.turn call.no = some w' → w'.engine.pool.closed = true) ∧
      (∀ call ∈ w.engine.calls, call.point.closes = true → w.engine.pool.closed = true) ∧
      (w.engine.pool.closed = true → ∀ later w', w.run later = some w' →
        w'.engine.pool.closed = true ∧ w'.engine.held ⊆ w.engine.held ∧ w'.visits = w.visits ∧
          (∃ more, w'.acquired = w.acquired ++ more ∧ ∀ x ∈ more,
            ∃ p, x.2 = .error p ∧ (p = .closed ∨ w.engine.HasCreation x.1)) ∧
          ∀ no token client, w'.engine.acquireFor w'.setup no token client =
            w'.engine.reject no client .closed) ∧
      ((∀ no, w.turn no = none) → ∀ call ∈ w.engine.calls,
        call.point.closes = true ∨ call.point = .fresh .closing → 0 < w.engine.pool.pending) := by
  have hbegin := custody_begin setup latency g g' deeds
  have h := hbegin.run hrun
  refine ⟨?_, fun call w' hcall hpoint hturn => h.closed_of_begun hcall hpoint hturn, h.atRest.closed,
    ?_, fun hwaiting call hcall hcloses => h.pending_pos_of_waiting hwaiting hcall hcloses⟩
  · intro no hno later w' hlater
    have hclosed := (h.emptied (List.ne_nil_of_mem hno)).1
    -- a closing that has ended is kept in the list, so the later pool is empty for the same reason
    have hin := (Shut.of_run h hclosed hlater).closings hno
    have hne := List.ne_nil_of_mem hin
    obtain ⟨hpending, hactive, hidle, hmonitors, hdeletions⟩ := (h.run hlater).empty_of_closings hne
    refine ⟨hin, hpending, hactive, hidle, hmonitors, hdeletions, fun hplace => ?_⟩
    obtain ⟨hxs, hys⟩ := List.forall_mem_append.mp hplace
    have hwhole := ((whole_begin setup latency g g' deeds).run hbegin hxs hrun).run h hys hlater
    exact (h.run hlater).deleted_of_closings hwhole hne
  · intro hclosed later w' hlater
    have hshut := Shut.of_run h hclosed hlater
    exact ⟨hshut.closed, hshut.held, hshut.visits, hshut.acquired,
      fun no token client => Engine.acquireFor_closed hshut.closed token client⟩

/-- A pool is closed while a creation is in flight, for which the closing waits. -/
def closeWhileCreating : List (Bool × Happening) :=
  [(true, .act (.call .lease (.unnamed 0))), (true, .turn 0), (true, .act (.call .closing (.unnamed 1))),
    (true, .turn 1), (true, .turn 1), (true, .turn 0), (true, .turn 3), (true, .turn 1)]

/-- The creation ends without a lease, and nothing is left. -/
theorem closing_complete_of_closeWhileCreating :
    ∃ w, (begin (.ofConfig {} .standard none) .zero ⟨1⟩ ⟨2⟩ fun _ _ => ⟨false, 0, none⟩).run
        closeWhileCreating = some w ∧ w.closings = [1] ∧ w.acquired = [(0, .error .closed)] ∧
      w.server.cluster.created = 1 ∧ w.server.cluster.live = 0 ∧
      w.server.cluster.deleted = w.server.cluster.created :=
  have h := (closing_complete_of_run (.ofConfig {} .standard none) .zero ⟨1⟩ ⟨2⟩
    (fun _ _ => ⟨false, 0, none⟩) closeWhileCreating _ rfl).1 1 List.mem_cons_self [] _ rfl
  ⟨_, rfl, rfl, rfl, rfl, h.2.2.2.2.2.2 (by simp [closeWhileCreating])⟩

/-- A caller acquires a session and loses the lease where no deletion can be started.  Then the pool is
closed. -/
def dropAndClose : List (Bool × Happening) :=
  [(true, .act (.call .lease (.unnamed 0))), (true, .turn 0), (true, .turn 0), (false, .act (.drop 1)),
    (true, .act (.call .closing (.unnamed 1))), (true, .turn 2), (true, .turn 2)]

/-- The closing ends, and the session is left behind on the server. -/
theorem left_behind_of_dropAndClose :
    ∃ w, (begin (.ofConfig {} .standard none) .zero ⟨1⟩ ⟨2⟩ fun _ _ => ⟨false, 0, none⟩).run
        dropAndClose = some w ∧ w.closings = [2] ∧ w.engine.deletions = [] ∧
      w.server.cluster.created = 1 ∧ w.server.cluster.live = 1 ∧ w.server.cluster.deleted = 0 ∧
      ¬ (w.server.cluster.live = 0 ∧ w.server.cluster.deleted = w.server.cluster.created) :=
  ⟨_, rfl, rfl, rfl, rfl, rfl, rfl, by decide⟩

end World

end PooledSessions
