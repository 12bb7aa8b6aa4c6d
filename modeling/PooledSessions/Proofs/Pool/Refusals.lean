import PooledSessions.Proofs.Pool.Tidings
/-!
# What a caller without a lease is told

A caller who is leased no session, or whose execution ends with an error, is told a reason.  That he has
cancelled is told him if his token has been cancelled, and also if the server itself answers a creation
with that very error: the loop that creates sessions has one error for both, and the pool cannot tell
them apart.  Every other failure of a creation is passed on with the error of its last attempt.
-/

namespace PooledSessions

variable {ε α : Type}

namespace Engine

variable [PooledError ε] {c : Setup} {b e : Engine ε α} {m : Move ε α} {call : Call} {no : TaskNo}

/-- A move is made to the call at which a creation ends with an error: the server's answer, or the error of
one that took too long. -/
def EndsCreation (m : Move ε α) (no : TaskNo) (error : RpcError) : Prop :=
  m = .created no (.error error) ∨ (m = .createExpired no ∧ error = creationTimeout)

/-- How the client of an acquisition that fails is told why. -/
def refusal (no : TaskNo) (client : Client) (p : PoolError) : Signal ε α :=
  match client with
  | .caller => .acquired no (.error p)
  | .attempt _ => .executed no (.error (rejection p))

theorem reject_eq (e : Engine ε α) (no : TaskNo) (client : Client) (p : PoolError) :
    e.reject no client p = (e.endCall no).tell (refusal no client p) := by
  cases client <;> rfl

/-! ## The end of a creation -/

omit [PooledError ε] in
theorem not_hasEnded_moveTo (hin : ∃ k ∈ e.calls, k.no = no) (p : Point) : ¬ (e.moveTo no p).HasEnded no := by
  obtain ⟨k, hk, hno⟩ := hin
  intro hended
  refine hended _ (List.mem_map_of_mem hk) ?_
  rw [if_pos hno]
  exact hno

/-- A creation that ends its call with an error tells it last: that it was cancelled if the error says so,
and otherwise that it has failed with the error. -/
theorem told_of_followCreation (hin : ∃ k ∈ e.calls, k.no = no) {client : Client} {next : Loop.Next RpcError}
    (hended : (e.followCreation c no client next).HasEnded no) :
    ∃ error p, next = .fail error ∧
      refusal no client p ∈ (e.followCreation c no client next).signals ∧
      (error = .cancelled ∧ p = .cancelled ∨
        error ≠ .cancelled ∧ ∃ budget, p = .creationFailed error budget) := by
  cases next with
  | attempt a => exact absurd hended (not_hasEnded_moveTo hin (.creating client a e.now))
  | pause a wake => exact absurd hended (not_hasEnded_moveTo hin (.createPause client a wake))
  | fail error =>
    have htold : ∀ (e : Engine ε α) (p : PoolError),
        refusal no client p ∈ (e.reject no client p).signals := by
      intro e p
      rw [reject_eq]
      exact List.mem_append_right _ (List.mem_singleton_self _)
    cases error with
    | cancelled => exact ⟨_, .cancelled, rfl, htold _ _, Or.inl ⟨rfl, rfl⟩⟩
    | transport code message => exact ⟨_, _, rfl, htold _ _, Or.inr ⟨by simp, _, rfl⟩⟩
    | status code message => exact ⟨_, _, rfl, htold _ _, Or.inr ⟨by simp, _, rfl⟩⟩

omit [PooledError ε] in
/-- The retry loop ends after a failure with that failure, or because the caller has cancelled. -/
theorem eq_of_afterFailure {δ : Type} [CallError δ] {a : Attempt} {error error' : δ} {delay : Option Span}
    {cancelled : Bool} {now : Nat} (h : Loop.afterFailure a error delay cancelled now = .fail error') :
    error' = error ∨ (cancelled = true ∧ error' = CallError.cancelled) := by
  have hallows : Allows cancelled a.idempotent (error = ·)
      (Loop.afterFailure a error delay cancelled now) := allows_afterFailure rfl a delay cancelled now
  rw [h] at hallows
  exact hallows.imp_left Eq.symm

/-- A call that ends with a failed creation is told why. -/
theorem told_of_created (hin : ∃ k ∈ e.calls, k.no = call.no) {client : Client} {a : Attempt}
    {error : RpcError} (hended : (e.created c call client a (.error error)).HasEnded call.no) :
    ∃ p, refusal call.no client p ∈ (e.created c call client a (.error error)).signals ∧
      (p = .cancelled ∧ (error = .cancelled ∨
          (e.created c call client a (.error error)).isCancelled call.token = true) ∨
        ∃ budget, p = .creationFailed error budget) := by
  have hassessed : (e.assess c .creation (.rpc error) a).2.calls = e.calls :=
    congrArg Ledger.calls (ledger_assess e c .creation (.rpc error) a)
  rw [← hassessed] at hin
  obtain ⟨error', p, hnext, htold, hp⟩ := told_of_followCreation hin hended
  refine ⟨p, htold, ?_⟩
  rcases eq_of_afterFailure hnext with rfl | ⟨hgone, rfl⟩
  · exact hp.imp (fun ⟨herror, hcancelled⟩ => ⟨hcancelled, Or.inl herror⟩) fun ⟨_, hfailed⟩ => hfailed
  · rcases hp with ⟨-, hcancelled⟩ | ⟨hne, -⟩
    · refine Or.inl ⟨hcancelled, Or.inr ?_⟩
      rw [isCancelled, List.contains_iff_mem] at hgone ⊢
      exact (Descends.rfl.followCreation c call.no client _ : Descends none _ _).cancelled hgone
    · exact absurd rfl hne

/-! ## Every move -/

/-- Whether the caller may be told in the move that he has cancelled: his token has been cancelled, or the
server has answered his creation with that error. -/
def MayReportCancelled (m : Move ε α) (call : Call) (e : Engine ε α) : Prop :=
  e.isCancelled call.token = true ∨ m = .created call.no (.error .cancelled)

omit [PooledError ε] in
theorem mayReportCancelled_of_fails (h : Fails m call (e.isCancelled call.token) .cancelled) :
    MayReportCancelled m call e := by
  rcases h with ⟨hgone, -⟩ | hanswer | ⟨-, htimeout⟩
  · exact Or.inl hgone
  · exact Or.inr hanswer
  · cases htimeout

omit [PooledError ε] in
theorem mayReportCancelled_of_refuses
    (h : Refuses c m call e.pool (e.isCancelled call.token) .cancelled) : MayReportCancelled m call e := by
  cases h with
  | cancelled hfails => exact mayReportCancelled_of_fails hfails

/-- Who is told in a move that his acquisition was cancelled may be told so. -/
theorem acquired_cancelled_of_step (hb : b.Orderly) (hstep : b.step c m = some e)
    (htold : Signal.acquired no (.error .cancelled) ∈ e.signals) :
    Signal.acquired no (.error .cancelled) ∈ b.signals ∨
      ∃ call ∈ b.calls, call.no = no ∧ MayReportCancelled m call e := by
  rcases says_of_step hb hstep htold rfl with hin | ⟨call, hmover, hsays⟩
  · exact Or.inl hin
  · cases hsays with
    | refused p hended hpurpose hrefuses =>
      exact Or.inr ⟨call, (mem_of_call? hmover.call?).1, rfl, mayReportCancelled_of_refuses hrefuses⟩

/-- Whose execution ends in a move with an error is told the operation's own, or that he has cancelled if he
may be told so, or another error of the pool. -/
theorem executed_error_of_step (hb : b.Orderly) (hstep : b.step c m = some e) {error : ε}
    (htold : Signal.executed no (.error error) ∈ e.signals) :
    Signal.executed no (.error error) ∈ b.signals ∨
      (∃ cancels, m = .operated no cancels (.error error)) ∨
      (error = CallError.cancelled ∧ ∃ call ∈ b.calls, call.no = no ∧ MayReportCancelled m call e) ∨
      ∃ p, p ≠ .cancelled ∧ error = PooledError.ofPool p := by
  rcases says_of_step hb hstep htold rfl with hin | ⟨call, hmover, hsays⟩
  · exact Or.inl hin
  · have hcall := (mem_of_call? hmover.call?).1
    refine Or.inr ?_
    cases hsays with
    | answered cancels result hended hmove => exact Or.inl ⟨cancels, hmove⟩
    | cancelled hended hgone => exact Or.inr (Or.inl ⟨rfl, call, hcall, rfl, Or.inl hgone⟩)
    | rejected p idempotent hended hpurpose hrefuses =>
      cases p with
      | cancelled =>
        exact Or.inr (Or.inl ⟨rfl, call, hcall, rfl, mayReportCancelled_of_refuses hrefuses⟩)
      | exhausted active pending limit => exact Or.inr (Or.inr ⟨_, by simp, rfl⟩)
      | creationFailed source budget => exact Or.inr (Or.inr ⟨_, by simp, rfl⟩)
      | closed => exact Or.inr (Or.inr ⟨_, by simp, rfl⟩)

/-- A creation whose failure ends its call is passed on with its error, unless it is told as cancelled. -/
theorem told_of_endsCreation (hb : b.Orderly) (hstep : b.step c m = some e) (hcall : call ∈ b.calls)
    {client : Client} {a : Attempt} {since : Nat} (hpoint : call.point = .creating client a since)
    {error : RpcError} (hends : EndsCreation m call.no error) (hended : e.HasEnded call.no) :
    ∃ p, refusal call.no client p ∈ e.signals ∧
      (p = .cancelled ∧ (error = .cancelled ∨ e.isCancelled call.token = true) ∨
        ∃ budget, p = .creationFailed error budget) := by
  have hfind := call?_of_mem hb.nodup hcall
  rcases hends with rfl | ⟨rfl, rfl⟩
  · simp only [step, hfind, Option.bind_eq_bind, Option.bind_some, hpoint] at hstep
    split at hstep
    · cases hstep
    · cases hstep
      exact told_of_created ⟨call, hcall, rfl⟩ hended
  · simp only [step, hfind, Option.bind_eq_bind, Option.bind_some, hpoint] at hstep
    split at hstep
    · cases hstep
    · cases hstep
      exact told_of_created (e := b.tell (.createAbandoned call.no)) ⟨call, hcall, rfl⟩ hended

/-- After every run, a move tells a caller that he has cancelled only if his token has been cancelled or
the server has answered his creation with that error.  An execution that ends with another error ends with
its operation's own or with one of the pool.  A creation whose failure ends its call is passed on with the
error of its last attempt, the server's or that of the time limit, unless it is told as cancelled. -/
theorem refusals_founded_of_run (c : Setup) (g : Generator) (xs : List (Bool × Move ε α))
    (b e : Engine ε α) (x : Bool × Move ε α) (hrun : (fresh g).run c xs = some b)
    (hstep : b.stepAt c x = some e) :
    (∀ no, Signal.acquired no (.error .cancelled) ∈ e.signals →
      Signal.acquired no (.error .cancelled) ∈ b.signals ∨
        ∃ call ∈ b.calls, call.no = no ∧ MayReportCancelled x.2 call e) ∧
      (∀ no error, Signal.executed no (.error error) ∈ e.signals →
        Signal.executed no (.error error) ∈ b.signals ∨
          (∃ cancels, x.2 = .operated no cancels (.error error)) ∨
          (error = CallError.cancelled ∧ ∃ call ∈ b.calls, call.no = no ∧ MayReportCancelled x.2 call e) ∨
          ∃ p, p ≠ .cancelled ∧ error = PooledError.ofPool p) ∧
      ∀ call client a since error, call ∈ b.calls → call.point = .creating client a since →
        EndsCreation x.2 call.no error → e.HasEnded call.no →
        ∃ p, refusal call.no client p ∈ e.signals ∧
          (p = .cancelled ∧ (error = .cancelled ∨ e.isCancelled call.token = true) ∨
            ∃ budget, p = .creationFailed error budget) := by
  have hb : ({ b with background := x.1 } : Engine ε α).Orderly :=
    (orderly_of_run (orderly_fresh g) hrun).withBackground x.1
  refine ⟨?_, ?_, ?_⟩
  · intro no htold
    exact acquired_cancelled_of_step (b := { b with background := x.1 }) hb hstep htold
  · intro no error htold
    exact executed_error_of_step (b := { b with background := x.1 }) hb hstep htold
  · intro call client a since error hcall hpoint hends hended
    exact told_of_endsCreation (b := { b with background := x.1 }) hb hstep hcall hpoint hends hended

/-- A caller asks for a session, and the pool asks the server for one. -/
def asking : List (Bool × Move DriverError Int) :=
  [(true, .call .lease (.unnamed 0)), (true, .start 0)]

/-- The server refuses, and the caller is told its error. -/
theorem refusals_founded_of_asking :
    ∃ b e, (fresh ⟨1⟩).run (.ofConfig {} .standard none) asking = some b ∧
      b.stepAt (.ofConfig {} .standard none) (true, .created 0 (.error (.status .badRequest "no"))) = some e ∧
      ∃ p, refusal 0 .caller p ∈ e.signals ∧ ∃ budget, p = .creationFailed (.status .badRequest "no") budget := by
  obtain ⟨b, e, hrun, hstep, hcalls, hcancelled, hended⟩ :
      ∃ b e, (fresh ⟨1⟩).run (.ofConfig {} .standard none) asking = some b ∧
        b.stepAt (.ofConfig {} .standard none)
          (true, .created 0 (.error (.status .badRequest "no"))) = some e ∧
        b.calls = [⟨0, .unnamed 0, 0, .creating .caller (.first true) 0⟩] ∧ e.cancelled = [] ∧
        e.calls = [] := ⟨_, _, rfl, rfl, rfl, rfl, rfl⟩
  refine ⟨b, e, hrun, hstep, ?_⟩
  obtain ⟨p, htold, ⟨-, herror | hgone⟩ | hfailed⟩ :=
    (refusals_founded_of_run (.ofConfig {} .standard none) ⟨1⟩ asking b e _ hrun hstep).2.2
      ⟨0, .unnamed 0, 0, .creating .caller (.first true) 0⟩ .caller (.first true) 0 (.status .badRequest "no")
      (by rw [hcalls]; exact List.mem_singleton_self _) rfl (Or.inl rfl)
      (by intro k hk; rw [hended] at hk; cases hk)
  · cases herror
  · rw [isCancelled, hcancelled] at hgone
    cases hgone
  · exact ⟨p, htold, hfailed⟩

/-- A server that answers a creation as cancelled makes the pool tell the caller that he has cancelled,
though nobody has cancelled anything.  It does not matter whether he asked for a lease or for the
execution of an operation. -/
theorem cancelled_without_cancelling :
    (∃ e : Engine DriverError Int, (fresh ⟨1⟩).run (.ofConfig {} .standard none)
        [(true, .call .lease (.unnamed 0)), (true, .start 0), (true, .created 0 (.error .cancelled))] = some e ∧
      e.cancelled = [] ∧ e.signals.getLast? = some (.acquired 0 (.error .cancelled))) ∧
    ∃ e : Engine DriverError Int, (fresh ⟨1⟩).run (.ofConfig {} .standard none)
        [(true, .call (.operation false) (.unnamed 0)), (true, .start 0),
          (true, .created 0 (.error .cancelled))] = some e ∧
      e.cancelled = [] ∧ e.signals.getLast? = some (.executed 0 (.error CallError.cancelled)) :=
  ⟨⟨_, rfl, rfl, rfl⟩, ⟨_, rfl, rfl, rfl⟩⟩

end Engine

end PooledSessions
