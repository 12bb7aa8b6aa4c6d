import PooledSessions.Simulation.PoolScenario
import PooledSessions.Proofs.Simulation.Closing
import PooledSessions.Proofs.Simulation.Undisturbed
/-!
# Undisturbed worlds in service

An undisturbed world stays so while time passes, while executions are set up and while their results are
taken.  Sooner or later each execution has a move to make (`World.Undisturbed.isSome_turn`).  When a closing
is the only call that is left, it has as well (`World.Closes.exists_turn`), and when it has ended the
server has deleted every session that it has created (`World.Closes.emptied`).
-/

namespace PooledSessions

/-- The time from which on a call that waits at the point has a move to make, if it executes an operation. -/
def Point.ready : Point → Nat
  | .creating _ _ since | .operating _ _ since => since
  | .createPause _ _ wake | .pausing _ wake => wake
  | _ => 0

theorem Point.closes_of_purpose {p : Point} (h : p.purpose = .closing) :
    p.closes = true ∨ p = .fresh .closing := by
  cases p with
  | fresh purpose => exact Or.inr (congrArg _ h)
  | creating client | createPause client => cases client <;> cases h
  | operating | pausing => cases h
  | deleting | draining | settling => exact Or.inl rfl

namespace Engine

variable {ε α : Type} {e : Engine ε α}

theorem forgetSignals (h : e.signals = []) : { e with signals := [] } = e := by
  cases e
  cases h
  rfl

/-- Another execution does no harm. -/
theorem Executing.addCall (h : e.Executing) (idempotent : Bool) (token : Token) :
    (e.addCall (.operation idempotent) token).Executing := by
  refine ⟨h.isOpen, fun call hcall => ?_, fun call hcall k hk => ?_⟩
  · rcases List.mem_append.mp hcall with hin | hnew
    · exact h.executes call hin
    · obtain rfl := List.mem_singleton.mp hnew
      rfl
  · rcases List.mem_append.mp hcall with hin | hnew
    · exact h.tracked call hin k hk
    · obtain rfl := List.mem_singleton.mp hnew
      cases hk

theorem effort_addCall (policy : Policy) (e : Engine ε α) (purpose : Purpose) (token : Token) :
    (e.addCall purpose token).effort policy = e.effort policy + (Point.fresh purpose).effort policy := by
  show (e.addCall purpose token).itinerary.effort policy + e.watching = _
  have hmore : (e.addCall purpose token).itinerary.stops =
      e.itinerary.stops ++ [(e.nextNo, (Point.fresh purpose).roused)] := List.map_append
  rw [Itinerary.effort, hmore, List.map_append, List.sum_append, effort, Itinerary.effort]
  simp only [List.map_cons, List.map_nil, List.sum_cons, List.sum_nil, Point.effort_roused]
  omega

end Engine

namespace World

variable {w w' : World} {no : TaskNo} {rate : Binary64}

/-! ## What is kept -/

/-- The world some time later. -/
def after (w : World) (millis : Nat) : World := { w with engine.now := w.engine.now + millis }

/-- The world with another call. -/
def withCall (w : World) (purpose : Purpose) (token : Token) : World :=
  { w with engine := w.engine.addCall purpose token }

/-- The world in which something was noted, and something was drawn. -/
def noting (w : World) (events : List Event) (visits : List (TaskNo × SessionInfo))
    (executed : List (TaskNo × Except DriverError Int)) (g : Generator) : World :=
  { w with events := events, visits := visits, executed := executed, engine.generator := g }

namespace Undisturbed

theorem signals (h : w.Undisturbed rate) : w.engine.signals = [] := by
  obtain ⟨past, hcustody⟩ := h.custody
  exact hcustody.signals

/-- A move that tells nothing is seen in the pool only. -/
theorem move_eq_of_quiet (h : w.Undisturbed rate) {m : Move DriverError Int} {e : Engine DriverError Int}
    (hstep : w.engine.step w.setup m = some e) (hquiet : e.signals = []) :
    w.move m = some { w with engine := e } := by
  obtain ⟨past, hcustody⟩ := h.custody
  rw [move_eq hcustody.detached, hstep, Option.map_some, hearAll, hquiet]
  exact congrArg (fun e => some { w with engine := e }) (Engine.forgetSignals hquiet)

theorem tryMove_advance (h : w.Undisturbed rate) (millis : Nat) :
    w.tryMove (.advance millis) = w.after millis := by
  rw [tryMove, h.move_eq_of_quiet (m := .advance millis) rfl h.signals]
  rfl

theorem after (h : w.Undisturbed rate) (millis : Nat) : (w.after millis).Undisturbed rate := by
  obtain ⟨past, hcustody⟩ := h.custody
  have hmove : w.move (.advance millis) = some (w.after millis) := h.move_eq_of_quiet rfl h.signals
  have hheeds : w.Heeds (.advance millis) w.server past :=
    hcustody.heeds_of_quiet ⟨.rfl, rfl, fun _ _ => rfl⟩ fun _ hm => by cases hm
  exact
    { h with
      custody := ⟨past, hcustody.of_heeds hheeds hmove⟩
      whole := h.whole.of_heeds hcustody hheeds hmove
      laden := h.laden
      orderly := { h.orderly with }
      serves := { h.serves with } }

theorem setUp_eq (h : w.Undisturbed rate) (purpose : Purpose) (token : Token) :
    w.setUp purpose token PoolScene.noDeeds = (w.engine.nextNo, w.withCall purpose token) := by
  have hdeeds : (fun k => if k = w.engine.nextNo then PoolScene.noDeeds else w.deeds k) = w.deeds := by
    rw [h.deeds]
    funext k
    exact ite_self _
  unfold setUp
  dsimp only
  rw [hdeeds, tryMove, h.move_eq_of_quiet (m := .call purpose token) rfl h.signals]
  rfl

theorem withCall (h : w.Undisturbed rate) (hawaited : w.awaited = []) {purpose : Purpose}
    (hpurpose : purpose ≠ .lease) (token : Token) : (w.withCall purpose token).Undisturbed rate := by
  obtain ⟨past, hcustody⟩ := h.custody
  have hmove : w.move (.call purpose token) = some (w.withCall purpose token) :=
    h.move_eq_of_quiet rfl h.signals
  have hstep : w.engine.step w.setup (.call purpose token) = some (w.engine.addCall purpose token) := rfl
  have hladen := laden_of_move (m := .call purpose token) hcustody h.laden hmove
  have hheeds : w.Heeds (.call purpose token) w.server past := hcustody.heeds_of_act rfl hawaited
  exact
    { h with
      custody := ⟨past, hcustody.of_heeds hheeds hmove⟩
      whole := h.whole.of_heeds hcustody hheeds hmove
      laden := hladen.1
      orderly := Engine.orderly_of_step h.orderly hstep
      serves := h.serves.step h.orderly hstep fun token hm => hpurpose (by cases hm; rfl) }

theorem noting (h : w.Undisturbed rate) (events : List Event) (visits : List (TaskNo × SessionInfo))
    (executed : List (TaskNo × Except DriverError Int)) (g : Generator) :
    (w.noting events visits executed g).Undisturbed rate := by
  obtain ⟨past, hcustody⟩ := h.custody
  exact
    { h with
      custody := ⟨past, { hcustody with }⟩
      whole := { h.whole with }
      laden := h.laden
      orderly := { h.orderly with }
      serves := { h.serves with } }

end Undisturbed

theorem effort_withCall (w : World) (purpose : Purpose) (token : Token) :
    (w.withCall purpose token).effort =
      w.effort + (Point.fresh purpose).effort w.setup.operations.policy := by
  show (w.engine.addCall purpose token).effort w.setup.operations.policy + w.server.cluster.live +
    w.server.cluster.unread = w.engine.effort w.setup.operations.policy + w.server.cluster.live +
    w.server.cluster.unread + _
  rw [Engine.effort_addCall]
  omega

/-! ## Executions go on -/

/-- An execution has a move to make when its time has come. -/
theorem Undisturbed.isSome_turn (h : w.Undisturbed rate) {call : Call}
    (hcall : w.engine.call? no = some call) (hexecutes : call.point.executes = true)
    (hready : call.point.ready ≤ w.now) : (w.turn no).isSome := by
  obtain ⟨-, rfl⟩ := Engine.mem_of_call? hcall
  have hgo := h.not_cancelled call.token
  -- a turn is possible whenever its move is, since everything that is told can be heard
  have hpossible : ∀ {m : Move DriverError Int} {server : Server}, w.engine.step w.setup m ≠ none →
      (({ w with server := server } : World).move m).isSome := by
    intro m server hstep
    rw [Option.isSome_iff_ne_none, ne_eq, move_eq_none_iff]
    exact hstep
  rw [World.turn, hcall]
  dsimp only
  unfold turnCall
  rw [h.unnoticed hcall]
  cases hpoint : call.point with
  | fresh purpose => exact hpossible (by simp [Engine.step, hcall, hpoint])
  | createPause client a wake | pausing a wake =>
    rw [hpoint] at hready
    have hover : wake ≤ w.engine.now := hready
    exact hpossible (by simp [Engine.step, hcall, hpoint, hgo, Engine.woken, hover])
  | creating client a since =>
    rw [hpoint] at hready
    have hover : since ≤ w.now := hready
    simp only [Option.orElse_none, h.createDue_eq, hover, if_true]
    exact hpossible (by simp [Engine.step, hcall, hpoint, hgo])
  | operating a k since =>
    rw [hpoint] at hready
    have hover : since ≤ w.now := hready
    have hdeed : w.deeds call.no (call.started - 1) = ⟨false, 0, none⟩ := by rw [h.deeds]
    simp only [Option.orElse_none, hdeed]
    rw [if_pos (show since + boundedWait 0 ≤ w.now from hover)]
    exact hpossible (by simp [Engine.step, hcall, hpoint, hgo])
  | deleting | draining | settling =>
    rw [hpoint] at hexecutes
    cases hexecutes

/-! ## The closing -/

/-- Nobody does anything any more but to close the pool. -/
structure Closes (no : TaskNo) (w : World) : Prop where
  /-- The closing is the only call. -/
  calls : ∀ call ∈ w.engine.calls, call.no = no ∧ call.point.purpose = .closing
  /-- When it has ended, it has told so. -/
  ended : w.engine.calls = [] → no ∈ w.closings

namespace Closes

theorem guard (hcloses : w.Closes no) (h : w.Undisturbed rate) {k : TaskNo}
    (hcall : (w.engine.call? k).isSome) : ∀ j ∈ w.awaited, j = k := by
  obtain ⟨past, hcustody⟩ := h.custody
  obtain ⟨call, hcall⟩ := Option.isSome_iff_exists.mp hcall
  obtain ⟨hin, rfl⟩ := Engine.mem_of_call? hcall
  intro j hj
  obtain ⟨d, hd, hcloser⟩ := List.mem_filterMap.mp hj
  obtain ⟨call', hcall', rfl, -⟩ := hcustody.owned d hd j hcloser
  rw [(hcloses.calls call' hcall').1, (hcloses.calls call hin).1]

theorem pending (hcloses : w.Closes no) (h : w.Undisturbed rate) : w.engine.pool.pending = 0 := by
  rw [h.orderly.pending, Call.creations, List.countP_eq_zero]
  intro call hcall hcreates
  rcases Point.closes_of_purpose (hcloses.calls call hcall).2 with hpoint | hpoint
  · cases hcase : call.point <;> simp [hcase, Point.closes, Point.creates] at hpoint hcreates
  · rw [hpoint] at hcreates
    cases hcreates

/-- The closing remains the only call, and tells its end. -/
theorem turn (hcloses : w.Closes no) (h : w.Undisturbed rate) {k : TaskNo} (hturn : w.turn k = some w') :
    w'.Closes no := by
  obtain ⟨past, hcustody⟩ := h.custody
  obtain ⟨m, server, e, hcalm, hstep, rfl⟩ := h.exists_step hturn
  have hheard := heard_hearAll { w with server := server } e
  have hcalls := calls_hearAll { w with server := server } e
  have hclosings : (hearAll { w with server := server } e).closings =
      w.closings ++ e.signals.filterMap Signal.ended? := hheard.closings
  constructor
  · intro call hcall
    rw [hcalls] at hcall
    rcases Engine.identity_of_step h.orderly hstep hcall with ⟨call₀, hcall₀, hsame⟩ | ⟨-, rfl⟩
    · obtain ⟨hno, hpurpose⟩ := hcloses.calls call₀ hcall₀
      exact ⟨(congrArg (·.1) hsame).symm.trans hno, (congrArg (·.2.2) hsame).symm.trans hpurpose⟩
    · exact absurd rfl (hcalm.ne_call _ _)
  · intro hnone
    rw [hcalls] at hnone
    rw [hclosings]
    -- a call that is gone now has ended in this very move
    by_cases hbefore : w.engine.calls = []
    · exact List.mem_append_left _ (hcloses.ended hbefore)
    refine List.mem_append_right _ ?_
    cases Engine.conclusion_of_step h.orderly hcustody.signals hstep hcalm.ne_call hcalm.ne_abandon with
    | goesOn hnumbers hresults =>
      rw [Engine.numbers, hnone, Engine.numbers, List.map_nil, eq_comm, List.map_eq_nil_iff] at hnumbers
      exact absurd hnumbers hbefore
    | ends call hmover s hsays htold hstarts =>
      have hin := (Engine.mem_of_call? hmover.call?).1
      obtain ⟨hno, hpurpose⟩ := hcloses.calls call hin
      -- whatever the move tells of a call, it is told of the closing
      have hother : ∀ {purpose : Purpose}, call.point.purpose = purpose → purpose = .closing :=
        fun hsame => hsame.symm.trans hpurpose
      cases hsays with
      | closed => exact List.mem_filterMap.mpr ⟨_, htold, congrArg some hno⟩
      | createBegun | operationStarted => simp [Signal.asksFor] at hstarts
      | leased _ _ hlease | refused _ _ hlease => cases hother hlease
      | rejected p idempotent hended hoperation => cases hother hoperation
      | cancelled _ hgone =>
        rw [h.not_cancelled_of_step hcalm hstep] at hgone
        cases hgone
      | answered cancels result hended hm =>
        subst hm
        obtain ⟨-, call', hcall', a, k, since, hpoint, -⟩ := hcalm.answer_of_operated
        obtain rfl := hcalm.call?_eq hmover.moves
        obtain rfl := Option.some.inj (hcall'.symm.trans hmover.call?)
        rw [hpoint] at hpurpose
        cases hpurpose

/-- As long as the closing has not ended, somebody has a move to make. -/
theorem exists_turn (hcloses : w.Closes no) (h : w.Undisturbed rate) (hrunning : w.engine.calls ≠ []) :
    ∃ k, (w.turn k).isSome := by
  obtain ⟨past, hcustody⟩ := h.custody
  by_contra hnone
  have hwaiting : ∀ k, w.turn k = none := fun k => by
    by_contra hsome
    exact hnone ⟨k, Option.isSome_iff_ne_none.mpr hsome⟩
  obtain ⟨call, hcall⟩ := List.exists_mem_of_ne_nil _ hrunning
  have hpositive := hcustody.pending_pos_of_waiting hwaiting hcall
    (Point.closes_of_purpose (hcloses.calls call hcall).2)
  rw [hcloses.pending h] at hpositive
  cases hpositive

/-- A closing that is not running has ended. -/
theorem mem_closings (hcloses : w.Closes no) (hended : w.isRunning no = false) : no ∈ w.closings := by
  refine hcloses.ended (List.eq_nil_iff_forall_not_mem.mpr fun call hcall => ?_)
  have hrunning : w.isRunning no = true :=
    List.find?_isSome.mpr ⟨call, hcall, decide_eq_true (hcloses.calls call hcall).1⟩
  rw [hended] at hrunning
  cases hrunning

/-- Nobody waits for a creation. -/
theorem isCreating_eq_false (hcloses : w.Closes no) {call : Call} (hcall : call ∈ w.engine.calls) :
    call.point.isCreating = false := by
  rcases Point.closes_of_purpose (hcloses.calls call hcall).2 with hpoint | hpoint
  · cases hcase : call.point <;> simp [hcase, Point.closes, Point.isCreating] at hpoint ⊢
  · rw [hpoint]
    rfl

/-- When the closing has ended, nothing is left. -/
theorem emptied (hcloses : w.Closes no) (h : w.Undisturbed rate) (hended : no ∈ w.closings) :
    w.server.cluster.deleted = w.server.cluster.created ∧
      w.server.cluster.createCalls = w.server.cluster.created ∧ w.server.cluster.live = 0 := by
  obtain ⟨past, hcustody⟩ := h.custody
  obtain ⟨hlive, hdeleted⟩ := hcustody.deleted_of_closings h.whole (List.ne_nil_of_mem hended)
  have hcreating : w.server.cluster.creating = 0 := by
    rw [h.laden, Itinerary.flights, List.countP_eq_zero]
    intro x hx
    obtain ⟨call, hcall, rfl⟩ := List.mem_map.mp hx
    simp [Point.isCreating_roused, hcloses.isCreating_eq_false hcall]
  exact ⟨hdeleted, by rw [h.called, hcreating, Nat.add_zero], hlive⟩

/-- If the closing is dropped, neither the server nor what has been told changes. -/
theorem abandon (hcloses : w.Closes no) (h : w.Undisturbed rate) :
    ∃ e, w.tryMove (.abandon no) = { w with engine := e } := by
  cases hcall : w.engine.call? no with
  | none =>
    have hnothing : w.move (.abandon no) = none := by
      rw [move_eq_none_iff]
      simp [Engine.step, hcall]
    exact ⟨w.engine, by rw [tryMove, hnothing]; rfl⟩
  | some call =>
    have hstep : w.engine.step w.setup (.abandon no) = some (w.engine.abandon w.setup call) := by
      simp [Engine.step, hcall]
    have hquiet : (w.engine.abandon w.setup call).signals = [] := by
      have hpurpose := (hcloses.calls call (Engine.mem_of_call? hcall).1).2
      unfold Engine.abandon
      rcases Point.closes_of_purpose hpurpose with hpoint | hpoint
      · cases hcase : call.point <;> simp [hcase, Point.closes] at hpoint <;> exact h.signals
      · rw [hpoint]
        exact h.signals
    exact ⟨_, by rw [tryMove, h.move_eq_of_quiet hstep hquiet]; rfl⟩

end Closes

end World

end PooledSessions
