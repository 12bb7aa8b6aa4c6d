import PooledSessions.Proofs.Simulation.Undisturbed
/-!
# Results in an undisturbed world

In a turn of an undisturbed world an execution ends with a result, or none does
(`World.Undisturbed.accounts_of_turn`).  It has a reason for its result (`World.Earns`): the server has counted
its operation, or some operations are made to fail, or there were more executions than sessions.
-/

namespace PooledSessions

namespace World

variable {w w' : World} {no : TaskNo} {rate : Binary64}

/-- An execution ends with a result: its operation has succeeded as the latest one, or it has failed, which
happens only if operations are made to fail, or there were more executions than sessions. -/
inductive Earns (rate : Binary64) (w w' : World) : Except DriverError Int → Prop
  /-- The operation has succeeded. -/
  | succeeded (hoperations : w'.server.cluster.operations = w.server.cluster.operations + 1) :
      Earns rate w w' (.ok (w'.server.cluster.operations : Nat))
  /-- The operation has failed. -/
  | failed (e : RpcError) (hoperations : w'.server.cluster.operations = w.server.cluster.operations)
      (hrate : Binary64.zero.lt rate = true) : Earns rate w w' (.error (.rpc e))
  /-- There was no session for the operation. -/
  | rejected (active pending limit : Nat)
      (hoperations : w'.server.cluster.operations = w.server.cluster.operations)
      (hlimit : w.setup.limit < w.engine.numbers.length) :
      Earns rate w w' (.error (.pool (.exhausted active pending limit)))

/-- What becomes of the executions in a turn. -/
inductive Accounts (rate : Binary64) (w : World) (no : TaskNo) (w' : World) : Prop
  /-- None of them ends. -/
  | goesOn (hnumbers : w'.engine.numbers = w.engine.numbers) (hexecuted : w'.executed = w.executed)
      (hoperations : w'.server.cluster.operations = w.server.cluster.operations)
  /-- The one that has the turn ends. -/
  | ends (result : Except DriverError Int) (hin : no ∈ w.engine.numbers)
      (hnumbers : w'.engine.numbers = w.engine.numbers.filter (· ≠ no))
      (hexecuted : w'.executed = w.executed ++ [(no, result)]) (hearns : Earns rate w w' result)

namespace Undisturbed

/-- The cluster counts an operation when it succeeds. -/
theorem operations_of_calm (h : w.Undisturbed rate) {m : Move DriverError Int} {server : Server}
    (hcalm : w.Calm no m server) :
    (server.cluster.operations = w.server.cluster.operations ∧
        ∀ v, m ≠ .operated no false (.ok v)) ∨
      (server.cluster.operations = w.server.cluster.operations + 1 ∧
        m = .operated no false (.ok (server.cluster.operations : Nat))) := by
  cases hcalm with
  | goesOn m hm => exact Or.inl ⟨rfl, by rcases hm with rfl | rfl <;> simp⟩
  | proceeds | ended => exact Or.inl ⟨rfl, by simp⟩
  | created call hcall hcreating s hs =>
    refine Or.inl ⟨?_, by simp⟩
    rw [h.untroubled.endCreate.1]
  | operated call hcall a k since hpoint =>
    unfold Cluster.answer
    -- without a script an operation succeeds, or is failed by chance, or finds no session
    rcases Cluster.operate_cases h.untroubled.operationFailures k.id with
      ⟨g, heq⟩ | ⟨e, g, heq, -⟩ | ⟨e, g, heq, -⟩
    · rw [heq]
      exact Or.inr ⟨rfl, rfl⟩
    · rw [heq]
      exact Or.inl ⟨rfl, by simp⟩
    · rw [heq]
      exact Or.inl ⟨congrArg Cluster.Tally.operations (Cluster.tally_endStream _ _), by simp⟩
  | attached k =>
    refine Or.inl ⟨?_, by simp⟩
    unfold Server.attach
    split
    · rfl
    · exact Cluster.operations_attach _ _
  | heard k hk stream hwatch r server hread =>
    refine Or.inl ⟨?_, by simp⟩
    rw [show server = (w.server.read stream).2 by rw [hread]]
    unfold Server.read
    repeat' split
    all_goals rfl
  | deleted d =>
    refine Or.inl ⟨?_, by simp⟩
    unfold Cluster.delete
    split
    · rfl
    · exact congrArg Cluster.Tally.operations (Cluster.tally_endStream _ _)

/-- Nobody waits for deletions of his own while the pool executes operations. -/
theorem awaited_of_executing (h : w.Undisturbed rate) (hexecuting : w.engine.Executing) : w.awaited = [] := by
  obtain ⟨past, hcustody⟩ := h.custody
  refine List.filterMap_eq_nil_iff.mpr fun d hd => ?_
  by_contra hcloser
  obtain ⟨no, hno⟩ := Option.ne_none_iff_exists'.mp hcloser
  obtain ⟨call, hcall, -, hpoint⟩ := hcustody.owned d hd no hno
  have hexecutes := hexecuting.executes call hcall
  rw [hpoint] at hexecutes
  cases hexecutes

/-- An operation fails only if some are made to fail, for its session exists. -/
theorem rate_of_failed (h : w.Undisturbed rate) (hexecuting : w.engine.Executing) {call : Call}
    (hcall : w.engine.call? no = some call) {a : Attempt} {k : Handle} {since : Nat}
    (hpoint : call.point = .operating a k since) {error : DriverError}
    (hfailed : w.server.cluster.answer k.id = .error error) :
    Binary64.zero.lt rate = true ∧ ∃ e, error = .rpc e := by
  obtain ⟨past, hcustody⟩ := h.custody
  have hexists : k.id ∈ w.server.cluster.names := by
    refine hcustody.subperm.subset (List.mem_append_left _ ?_)
    exact hexecuting.tracked call (Engine.mem_of_call? hcall).1 k (by rw [hpoint]; rfl)
  unfold Cluster.answer at hfailed
  rcases Cluster.operate_cases h.untroubled.operationFailures k.id with
    ⟨g, heq⟩ | ⟨e, g, heq, hrate⟩ | ⟨e, g, heq, hrate⟩
  · rw [heq] at hfailed
    cases hfailed
  · rw [heq] at hfailed
    refine ⟨?_, e, (Except.error.inj hfailed).symm⟩
    by_contra hnone
    have hnone : Binary64.zero.lt rate = false := Bool.eq_false_iff.mpr hnone
    have := hrate (h.untroubled.isUsable hnone hexists)
    rw [h.untroubled.failureRate, hnone] at this
    cases this
  · rw [heq] at hfailed
    exact ⟨h.untroubled.failureRate ▸ hrate, e, (Except.error.inj hfailed).symm⟩

/-- No creation fails. -/
theorem not_fails (h : w.Undisturbed rate) {m : Move DriverError Int} {server : Server}
    {e : Engine DriverError Int} (hcalm : w.Calm no m server) (hstep : w.engine.step w.setup m = some e)
    {call : Call} {error : RpcError} : ¬ Engine.Fails m call (e.isCancelled call.token) error := by
  rintro (⟨hgone, -⟩ | rfl | ⟨rfl, -⟩)
  · rw [h.not_cancelled_of_step hcalm hstep] at hgone
    cases hgone
  · exact Bool.false_ne_true hcalm.isCalm
  · exact Bool.false_ne_true hcalm.isCalm

section Steps

variable {m : Move DriverError Int} {server : Server} {e : Engine DriverError Int}

/-- If no success is told, the cluster counts none. -/
theorem operations_eq_of_results (h : w.Undisturbed rate) (hcalm : w.Calm no m server)
    (hstep : w.engine.step w.setup m = some e) (hnone : ∀ v, (no, .ok v) ∉ e.results) :
    server.cluster.operations = w.server.cluster.operations := by
  rcases h.operations_of_calm hcalm with ⟨hsame, -⟩ | ⟨-, rfl⟩
  · exact hsame
  · refine absurd ?_ (hnone server.cluster.operations)
    rw [Engine.results_of_succeeded hstep]
    exact List.mem_append_right _ (List.mem_singleton_self _)

/-- The answer of an operation is the result that its execution earns. -/
theorem earns_of_operated (h : w.Undisturbed rate) (hexecuting : w.engine.Executing) {cancels : Bool}
    {result : Except DriverError Int} (hcalm : w.Calm no (.operated no cancels result) server)
    (hoperations : w'.server.cluster.operations = server.cluster.operations) : Earns rate w w' result := by
  obtain ⟨rfl, call, hcall, a, k, since, hpoint, rfl⟩ := hcalm.answer_of_operated
  rcases h.operations_of_calm hcalm with ⟨hsame, hnot⟩ | ⟨hmore, heq⟩
  · cases hanswer : w.server.cluster.answer k.id with
    | ok v => exact absurd (by rw [hanswer]) (hnot v)
    | error error =>
      obtain ⟨hrate, error, rfl⟩ := h.rate_of_failed hexecuting hcall hpoint hanswer
      exact .failed error (hoperations.trans hsame) hrate
  · have hanswer : w.server.cluster.answer k.id = .ok (server.cluster.operations : Nat) := by injection heq
    rw [hanswer, ← hoperations]
    exact .succeeded (hoperations.trans hmore)

/-- An execution is refused for want of a session only if there are more executions than sessions. -/
theorem limit_lt_numbers (h : w.Undisturbed rate) (hexecuting : w.engine.Executing) (hcalm : w.Calm no m server)
    (hstep : w.engine.step w.setup m = some e) (hturn : w.turn no = some (hearAll { w with server := server } e))
    {call : Call} (hmover : Engine.Mover m call w.engine) (hended : e.HasEnded call.no)
    (hidle : e.pool.idle = []) (hfull : w.setup.limit ≤ e.pool.active.length + e.pool.pending) :
    w.setup.limit < w.engine.numbers.length := by
  obtain ⟨past, hcustody⟩ := h.custody
  have hunguarded : ∀ k ∈ w.awaited, k = no := fun k hk => by
    rw [h.awaited_of_executing hexecuting] at hk
    cases hk
  obtain ⟨m', server', hheeds, hmove⟩ := hcustody.heeds_of_turn (fun _ => hunguarded) hturn
  have hrest := (hcustody.of_heeds hheeds hmove).atRest
  rw [ledger_hearAll, (heard_hearAll { w with server := server } e).setup] at hrest
  have hserves := h.serves.step h.orderly hstep fun token => hcalm.ne_call .lease token
  calc w.setup.limit
    _ < w.engine.underWay m := Engine.limit_lt_underWay hmover hstep hrest (Engine.orderly_of_step h.orderly hstep)
        hserves hended (hexecuting.executes call (Engine.mem_of_call? hmover.call?).1) hidle hfull
    _ ≤ w.engine.calls.length := List.countP_le_length
    _ = w.engine.numbers.length := (List.length_map _).symm

end Steps

/-- In a turn an execution ends with a result, or none does. -/
theorem accounts_of_turn (h : w.Undisturbed rate) (hexecuting : w.engine.Executing)
    (hturn : w.turn no = some w') : Accounts rate w no w' := by
  obtain ⟨past, hcustody⟩ := h.custody
  obtain ⟨m, server, e, hcalm, hstep, rfl⟩ := h.exists_step hturn
  have hnumbers' : (hearAll { w with server := server } e).engine.numbers = e.numbers := by
    rw [engine_hearAll (w := { w with server := server }) h.deeds]
    rfl
  have hexecuted : (hearAll { w with server := server } e).executed = w.executed ++ e.results :=
    (heard_hearAll { w with server := server } e).executed
  have hoperations : (hearAll { w with server := server } e).server.cluster.operations =
      server.cluster.operations := by
    rw [server_hearAll]
    exact Cluster.operations_heed _ _
  have hnothing : w.engine.results = [] := by
    rw [Engine.results, hcustody.signals]
    rfl
  -- the engine tells the end of at most one call in a move; what it says is that of an execution
  cases Engine.conclusion_of_step h.orderly hcustody.signals hstep hcalm.ne_call hcalm.ne_abandon with
  | goesOn hnumbers hresults =>
    rw [hnothing] at hresults
    refine .goesOn (hnumbers'.trans hnumbers) (by rw [hexecuted, hresults, List.append_nil]) ?_
    exact hoperations.trans (h.operations_eq_of_results hcalm hstep fun v => hresults ▸ List.not_mem_nil)
  | ends call hmover s hsays htold hstarts hnumbers hresults =>
    have hin := Engine.mem_of_call? hmover.call?
    obtain rfl : call.no = no := hcalm.call?_eq hmover.moves
    rw [hnothing, List.nil_append] at hresults
    have hends : ∀ result, s = .executed call.no result → Earns rate w (hearAll { w with server := server } e) result →
        Accounts rate w call.no (hearAll { w with server := server } e) := by
      rintro result rfl hearns
      exact .ends result (List.mem_map_of_mem hin.1) (hnumbers'.trans hnumbers)
        (by rw [hexecuted, hresults]; rfl) hearns
    cases hsays with
    | createBegun | operationStarted => simp [Signal.asksFor] at hstarts
    | leased _ _ hpurpose | refused _ _ hpurpose => exact absurd hpurpose (h.serves.purpose call hin.1)
    | closed _ hpurpose =>
      obtain ⟨idempotent, hexecution⟩ := Point.executes_iff.mp (hexecuting.executes call hin.1)
      rw [hpurpose] at hexecution
      cases hexecution
    | cancelled _ hgone =>
      rw [h.not_cancelled_of_step hcalm hstep] at hgone
      cases hgone
    | rejected p idempotent hended hpurpose hrefuses =>
      cases hrefuses with
      | closed hclosed =>
        have hopen := (hexecuting.step h.orderly hcustody.atRest hcalm.isCalm hstep).isOpen
        rw [hclosed] at hopen
        cases hopen
      | cancelled hfails | failed error hfails => exact absurd hfails (h.not_fails hcalm hstep)
      -- a refusal for want of room is the one that no answer of the server explains
      | exhausted hidle hfull =>
        have hsame := h.operations_eq_of_results hcalm hstep fun v hv => by
          rw [hresults] at hv
          cases List.mem_singleton.mp hv
        exact hends _ rfl (.rejected _ _ _ (hoperations.trans hsame)
          (h.limit_lt_numbers hexecuting hcalm hstep hturn hmover hended hidle hfull))
    | answered cancels result hended hm =>
      subst hm
      exact hends result rfl (h.earns_of_operated hexecuting hcalm hoperations)

end Undisturbed

end World

end PooledSessions
