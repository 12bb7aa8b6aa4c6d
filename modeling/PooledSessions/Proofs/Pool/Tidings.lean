import PooledSessions.Proofs.Pool.Outcome
/-!
# What is told of a call in a run

Every move keeps the calls in order (`Engine.orderly_of_step`): each has a number of its own, keeps its token
and what it is for, and the tables count its place.  So whatever is told of a call in a run was told in some
move for one of the reasons (`Engine.says_of_step`).

The only reason to ask for a session or for an operation is that the call has not been cancelled.  A call
that has been cancelled, or that has ended, therefore asks for nothing any more (`Engine.hushed_of_run`).
-/

namespace PooledSessions

variable {ε α : Type}

namespace Engine

variable [PooledError ε] {c : Setup} {b e : Engine ε α} {m : Move ε α} {call : Call} {no : TaskNo}

/-! ## Calls that come and go -/

theorem Outcome.sound (h : Outcome c m b e) :
    (e.calls.map Call.identity).Sublist (b.calls.map Call.identity) ∧
      e.pool.pending = Call.creations e.calls := by
  cases h with
  | silent h _ => exact ⟨h.calls, h.pending⟩
  | telling call hmover h hs => exact ⟨h.calls, h.pending⟩

/-- Each call after a move was there before, or it has just been set up. -/
theorem identity_of_step (h : b.Orderly) (hstep : b.step c m = some e) {k : Call} (hk : k ∈ e.calls) :
    (∃ k₀ ∈ b.calls, k₀.identity = k.identity) ∨
      (k.no = b.nextNo ∧ m = .call k.point.purpose k.token) := by
  rcases outcome_of_step h hstep with ⟨purpose, token, rfl, rfl⟩ | houtcome
  · rcases List.mem_append.mp hk with hin | hin
    · exact Or.inl ⟨k, hin, rfl⟩
    · rw [List.mem_singleton.mp hin]
      exact Or.inr ⟨rfl, rfl⟩
  · exact Or.inl (List.mem_map.mp (houtcome.sound.1.subset (List.mem_map_of_mem hk)))

theorem orderly_of_step (h : b.Orderly) (hstep : b.step c m = some e) : e.Orderly := by
  have hnext := (le_of_step hstep).1
  rcases outcome_of_step h hstep with ⟨purpose, token, rfl, rfl⟩ | houtcome
  · refine ⟨?_, ?_, ?_⟩
    · rw [addCall, List.map_append, List.nodup_append]
      refine ⟨h.nodup, List.nodup_singleton _, ?_⟩
      intro no hno no' hno' heq
      obtain ⟨k, hk, rfl⟩ := List.mem_map.mp hno
      have hlt : k.no < b.nextNo := h.no_lt k hk
      have hnew : no' = b.nextNo := by simpa using hno'
      exact absurd (heq.trans hnew) (Nat.ne_of_lt hlt)
    · intro k hk
      rcases List.mem_append.mp hk with hin | hin
      · exact Nat.lt_succ_of_lt (h.no_lt k hin)
      · rw [List.mem_singleton.mp hin]
        exact Nat.lt_succ_self _
    · show b.pool.pending = Call.creations (b.calls ++ [⟨b.nextNo, token, 0, .fresh purpose⟩])
      simp [h.pending, Call.creations, Point.creates]
  -- no other move sets up a call, so the numbers are among those there were
  · obtain ⟨hcalls, hpending⟩ := houtcome.sound
    have hnos := hcalls.map Prod.fst
    rw [List.map_map, List.map_map] at hnos
    refine ⟨h.nodup.sublist hnos, fun k hk => ?_, hpending⟩
    obtain ⟨k₀, hk₀, hno⟩ := List.mem_map.mp (hnos.subset (List.mem_map_of_mem hk))
    rw [← show k₀.no = k.no from hno]
    exact (h.no_lt k₀ hk₀).trans_le hnext

/-- A token that has been cancelled stays so. -/
theorem cancelled_of_step (hstep : b.step c m = some e) {t : Token} (hgone : b.isCancelled t = true) :
    e.isCancelled t = true := by
  rw [isCancelled, List.contains_iff_mem] at hgone ⊢
  exact (leadsTo_of_step hstep).descends.cancelled hgone

omit [PooledError ε] in
theorem mem_signals_iff {s : Signal ε α} (hs : s.isAside = false) : s ∈ e.signals ↔ s ∈ e.course.told := by
  have hcall : s.ofCall = true := by
    cases s <;> first | rfl | cases hs
  rw [course, List.mem_filter, hcall, and_iff_left rfl]

theorem Says.tell {s s' : Signal ε α} (h : Says c m call e s) : Says c m call (e.tell s') s := by
  cases h with
  | createBegun hgo => exact .createBegun hgo
  | operationStarted info hgo => exact .operationStarted info hgo
  | leased k hended hpurpose => exact .leased k hended hpurpose
  | refused p hended hpurpose hrefuses => exact .refused p hended hpurpose hrefuses
  | rejected p idempotent hended hpurpose hrefuses => exact .rejected p idempotent hended hpurpose hrefuses
  | answered cancels result hended hmove => exact .answered cancels result hended hmove
  | cancelled hended hgone => exact .cancelled hended hgone
  | closed hended hpurpose => exact .closed hended hpurpose

/-- For whatever has been told of a call in a move there is a reason. -/
theorem says_of_step (h : b.Orderly) (hstep : b.step c m = some e) {s : Signal ε α}
    (hs : s ∈ e.signals) (haside : s.isAside = false) :
    s ∈ b.signals ∨ ∃ call, Mover m call b ∧ Says c m call e s := by
  have hkept : ∀ e₁ : Engine ε α, Settles b e₁ → s ∈ e₁.course.told → s ∈ b.signals := by
    intro e₁ hsettles hin
    obtain ⟨more, heq, hmore⟩ := hsettles.told
    rw [heq] at hin
    rcases List.mem_append.mp hin with hin | hin
    · exact (mem_signals_iff haside).mpr hin
    · rw [hmore s hin] at haside
      cases haside
  rcases outcome_of_step h hstep with ⟨purpose, token, rfl, rfl⟩ | houtcome
  · exact Or.inl hs
  · cases houtcome with
    | silent hsettles _ => exact Or.inl (hkept _ hsettles ((mem_signals_iff haside).mp hs))
    | @telling e₁ s' call hmover hsettles hsays =>
      rcases List.mem_append.mp hs with hin | hin
      · exact Or.inl (hkept e₁ hsettles ((mem_signals_iff haside).mp hin))
      · rw [List.mem_singleton.mp hin]
        exact Or.inr ⟨call, hmover, hsays.tell⟩

/-! ## Calls that ask for nothing any more -/

/-- What a call has asked for so far: the creations that were begun and the operations that were
started. -/
def asked (e : Engine ε α) (no : TaskNo) : List (Signal ε α) := e.signals.filter (Signal.asksFor no)

omit [PooledError ε] in
theorem asked_eq (e : Engine ε α) (no : TaskNo) : e.asked no = e.course.told.filter (Signal.asksFor no) := by
  rw [asked, course, List.filter_filter]
  refine List.filter_congr fun s _ => ?_
  cases s <;> simp [Signal.asksFor, Signal.ofCall]

omit [PooledError ε] in
theorem Settles.asked (h : Settles b e) (no : TaskNo) : e.asked no = b.asked no := by
  obtain ⟨more, heq, hmore⟩ := h.told
  have hnone : more.filter (Signal.asksFor no) = [] := by
    refine List.filter_eq_nil_iff.mpr fun s hs => ?_
    intro hasks
    have haside := hmore s hs
    rw [Signal.isAside_of_asksFor hasks] at haside
    cases haside
  rw [asked_eq, heq, List.filter_append, hnone, List.append_nil, ← asked_eq]

/-- The number has been given away, and the call of that number, if there is one, has been cancelled. -/
structure Hushed (no : TaskNo) (e : Engine ε α) : Prop where
  /-- The number has been given away. -/
  no_lt : no < e.nextNo
  /-- The call of that number has been cancelled. -/
  cancelled : ∀ k ∈ e.calls, k.no = no → e.isCancelled k.token = true

/-- If a call asks for something in a move, that is told last. -/
theorem asked_or_asks (h : b.Orderly) (hstep : b.step c m = some e) (no : TaskNo) :
    e.asked no = b.asked no ∨ ∃ s call, e.signals.getLast? = some s ∧ s.asksFor no = true ∧
      Mover m call b ∧ Says c m call e s := by
  rcases outcome_of_step h hstep with ⟨purpose, token, rfl, rfl⟩ | houtcome
  · exact Or.inl rfl
  · cases houtcome with
    | silent hsettles _ => exact Or.inl (hsettles.asked no)
    | @telling e₁ s call hmover hsettles hsays =>
      by_cases hasks : s.asksFor no = true
      · exact Or.inr ⟨s, call, List.getLast?_concat, hasks, hmover, hsays.tell⟩
      · refine Or.inl ?_
        rw [← hsettles.asked no]
        show (e₁.signals ++ [s]).filter (Signal.asksFor no) = e₁.asked no
        rw [List.filter_append, List.filter_cons_of_neg hasks, List.filter_nil, List.append_nil, Engine.asked]

/-- A call asks for nothing in a move after which it has been cancelled. -/
theorem asked_of_step (h : b.Orderly) (hstep : b.step c m = some e)
    (hgone : ∀ k ∈ b.calls, k.no = no → e.isCancelled k.token = true) : e.asked no = b.asked no := by
  rcases asked_or_asks h hstep no with hsame | ⟨s, call, -, hasks, hmover, hsays⟩
  · exact hsame
  · have hseen : call.no = no → e.isCancelled call.token = true :=
      hgone call (mem_of_call? hmover.call?).1
    cases hsays with
    | createBegun hgo | operationStarted info hgo =>
      rw [hseen (by simpa [Signal.asksFor] using hasks)] at hgo
      cases hgo
    | _ => cases hasks

/-- A call asks for nothing in a move in which something else is told last. -/
theorem asked_of_getLast? (h : b.Orderly) (hstep : b.step c m = some e) {s : Signal ε α}
    (hlast : e.signals.getLast? = some s) (hs : s.asksFor no = false) : e.asked no = b.asked no := by
  rcases asked_or_asks h hstep no with hsame | ⟨s', call, hlast', hasks, -, -⟩
  · exact hsame
  · rw [hlast] at hlast'
    rw [Option.some.inj hlast', hasks] at hs
    cases hs

/-- A number that has been given away stays with the call that was cancelled. -/
theorem hushed_of_cancelled (h : b.Orderly) (hstep : b.step c m = some e) (hlt : no < b.nextNo)
    (hgone : ∀ k ∈ b.calls, k.no = no → e.isCancelled k.token = true) : e.Hushed no := by
  refine ⟨hlt.trans_le (le_of_step hstep).1, fun k hk hno => ?_⟩
  rcases identity_of_step h hstep hk with ⟨k₀, hk₀, hsame⟩ | ⟨hnew, -⟩
  · simp only [Call.identity, Prod.mk.injEq] at hsame
    rw [← hsame.2.1]
    exact hgone k₀ hk₀ (hsame.1.trans hno)
  · exact absurd (hno.symm.trans hnew) (Nat.ne_of_lt hlt)

/-- A call that has been cancelled asks for nothing any more, and neither does one that has ended. -/
theorem hushed_of_step (h : b.Orderly) (hhushed : b.Hushed no) (hstep : b.step c m = some e) :
    e.Hushed no ∧ e.asked no = b.asked no := by
  have hgone : ∀ k ∈ b.calls, k.no = no → e.isCancelled k.token = true :=
    fun k hk hno => cancelled_of_step hstep (hhushed.cancelled k hk hno)
  exact ⟨hushed_of_cancelled h hstep hhushed.no_lt hgone, asked_of_step h hstep hgone⟩

/-! ## Runs -/

variable {xs : List (Bool × Move ε α)}

omit [PooledError ε] in
/-- It does not matter for the calls whether deletions can be started in the background. -/
theorem Orderly.withBackground (h : b.Orderly) (place : Bool) :
    ({ b with background := place } : Engine ε α).Orderly :=
  ⟨h.nodup, h.no_lt, h.pending⟩

theorem orderly_of_run (h : b.Orderly) (hrun : b.run c xs = some e) : e.Orderly :=
  holds_of_run (fun hstep hb => orderly_of_step (hb.withBackground _) hstep) hrun h

/-- A call that has been cancelled or has ended asks for nothing any more in any later run. -/
theorem hushed_of_run (h : b.Orderly) (hhushed : b.Hushed no) (hrun : b.run c xs = some e) :
    e.Hushed no ∧ e.asked no = b.asked no := by
  refine (holds_of_run (P := fun u => u.Orderly ∧ u.Hushed no ∧ u.asked no = b.asked no)
    (fun {u e x} hstep ⟨hu, hhushed, hsame⟩ => ?_) hrun ⟨h, hhushed, rfl⟩).2
  have hplace : ({ u with background := x.1 } : Engine ε α).Hushed no := ⟨hhushed.no_lt, hhushed.cancelled⟩
  obtain ⟨hhushed', hasked⟩ := hushed_of_step (hu.withBackground x.1) hplace hstep
  exact ⟨orderly_of_step (hu.withBackground x.1) hstep, hhushed', hasked.trans hsame⟩

end Engine

end PooledSessions
