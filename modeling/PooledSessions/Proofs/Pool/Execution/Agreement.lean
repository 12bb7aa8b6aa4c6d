import PooledSessions.Proofs.Pool.Execution.Attempts
/-!
# The pooled loop and the plain one

Where nobody else uses the pool, a move of an execution is made by its call or beside it.  So each move
leads from one state of the call to another (`Execution.Stands.step`), and each run does
(`Execution.Stands.run`).  The state at the end tells what the plain retry loop does with the same
operation.
-/

namespace PooledSessions

namespace Execution

variable {ε α : Type} [PooledError ε] {x : Execution ε α} {e e' : Engine ε α} {call : Call}
  {L : List (Handle × Flags)} {told : List SessionId} {n spent : Nat}

/-! ## Steps -/

/-- What a move of the call is at the point where the call waits. -/
theorem made_of_step {m : Move ε α} (hcalls : e.calls = [call]) (halone : x.Alone e m)
    (hown : m.passes? = none) (hstep : e.step x.setup m = some e') :
    match call.point with
    | .fresh purpose => m = .start call.no ∧ e' = e.start x.setup call purpose
    | .creating client _ _ => ∃ s, m = .created call.no (.ok s) ∧ e' = e.register x.setup call.no client s
    | .operating a k _ => m = .operated call.no false (x.reply e).result ∧ x.due e ≤ e.now ∧
        e' = e.operated x.setup call a k (x.reply e).result
    | .pausing a wake => m = .woken call.no ∧ wake ≤ e.now ∧
        e' = e.follow x.setup call.no call.token (Loop.start a.next (e.isCancelled call.token))
    | _ => True := by
  cases Engine.makes_of_step hstep with
  | start call' purpose hcall hpoint =>
    cases Engine.eq_of_call? hcalls hcall
    rw [hpoint]
    exact ⟨rfl, rfl⟩
  | created call' client a since result hcall hpoint =>
    cases Engine.eq_of_call? hcalls hcall
    rw [hpoint]
    cases result with
    | ok s => exact ⟨s, rfl, rfl⟩
    | error error => cases halone
  | operated call' a k since cancels result hcall hpoint =>
    obtain ⟨rfl, rfl, hdue⟩ := halone
    cases Engine.eq_of_call? hcalls hcall
    rw [hpoint]
    exact ⟨rfl, hdue, rfl⟩
  | createWoken call' client a wake hcall hpoint =>
    cases Engine.eq_of_call? hcalls hcall
    rw [hpoint]
    trivial
  | woken call' a wake hcall hpoint hgo hdue =>
    cases Engine.eq_of_call? hcalls hcall
    rw [hpoint]
    exact ⟨rfl, hdue, rfl⟩
  | _ =>
    -- the other moves go on beside the call, or are not made while nobody else uses the pool
    first
    | (cases hown; done)
    | (obtain ⟨_, hpasses, -⟩ := halone; cases hpasses)

omit [PooledError ε] in
theorem named?_of_passes {m : Move ε α} {millis : Nat} (h : m.passes? = some millis) :
    m.named? = none ∧ m.call?.isSome = false := by
  cases m with
  | attached _ _ | heard _ _ | streamEnded _ | deleted _ _ | deletionExpired _ | cancel _ | advance _ =>
    exact ⟨rfl, rfl⟩
  | _ => cases h

theorem isCancelled_of_step {c : Setup} {m : Move ε α} (hstep : e.step c m = some e') {t : Token}
    (hgo : e'.isCancelled t = false) : e.isCancelled t = false :=
  (Engine.leadsTo_of_step hstep).descends.isCancelled hgo

/-- A call that has ended makes no move. -/
theorem Ended.not_step {m : Move ε α} (h : x.Ended n L told spent e) (halone : x.Alone e m)
    (hown : m.passes? = none) (hstep : e.step x.setup m = some e') : False := by
  have hnone : ∀ no call, e.call? no ≠ some call := by
    intro no call hcall
    have hin := (Engine.mem_of_call? hcall).1
    rw [h.calls] at hin
    cases hin
  cases Engine.makes_of_step hstep with
  | start call purpose hcall => exact hnone _ _ hcall
  | created call client a since result hcall => exact hnone _ _ hcall
  | operated call a k since cancels result hcall => exact hnone _ _ hcall
  | createWoken call client a wake hcall => exact hnone _ _ hcall
  | woken call a wake hcall => exact hnone _ _ hcall
  | _ =>
    first
    | (cases hown; done)
    | (obtain ⟨_, hpasses, -⟩ := halone; cases hpasses)

/-- The call moves on from where it waits. -/
theorem Going.step {m : Move ε α} (h : x.Going L told spent e) (hplaced : x.Placed L told e)
    (halone : x.Alone e m) (hown : m.passes? = none) (hstep : e.step x.setup m = some e')
    (hgo : e'.isCancelled x.token = false) :
    x.Stands (L ++ (x.begun e e').toList) (told ++ m.named?.toList) (spent + 1) e' ∧
      m.call?.isSome = true ∧ ∀ id ∈ m.named?, ∀ t, e'.pool.find? id = some t → t.flag < e'.nextNo := by
  -- whoever is not cancelled now was not cancelled before, so the loop goes on where the plain one does
  have hgo₀ := isCancelled_of_step hstep hgo
  cases h with
  | entered call h hlength hpoint hpool hnow hspent =>
    have hmade := made_of_step h.calls halone hown hstep
    rw [hpoint] at hmade
    obtain ⟨rfl, heq⟩ := hmade
    rw [Engine.start, h.token, hgo₀, ← h.token] at heq
    have hnone : L.getLast? = none := by
      rw [List.getLast?_eq_none_iff]
      exact List.eq_nil_of_length_eq_zero hlength
    have hgoing := h.acquire hlength hpool (by simp [hnone]) hgo₀ hnow
      (show spent + 1 ≤ 3 * 0 + 1 by omega) ((startedOf_of_calls h.calls h.no).trans h.started) heq
    exact ⟨Or.inl (by simpa [Move.named?] using hgoing), rfl, by simp [Move.named?]⟩
  | creating n call since h hlength hpoint hpool hlast hnow hspent =>
    have hmade := made_of_step h.calls halone hown hstep
    rw [hpoint] at hmade
    obtain ⟨s, rfl, heq⟩ := hmade
    obtain ⟨hgoing, hfresh⟩ := h.created hplaced hlength hpoint hpool hlast hnow hspent s heq
    refine ⟨Or.inl hgoing, rfl, fun id hid => ?_⟩
    cases hid
    exact hfresh
  | operating n call k flags h hlength hlast hpoint hpool hnow hspent =>
    have hmade := made_of_step h.calls halone hown hstep
    rw [hpoint] at hmade
    obtain ⟨rfl, hdue, heq⟩ := hmade
    rw [h.due_of_operating hlength hpoint] at hdue
    rw [h.reply_eq hlength] at heq
    have hstands := h.operated hlength hlast hpool (Nat.le_antisymm hnow hdue) hspent heq hgo
    exact ⟨by simpa [Move.named?] using hstands, rfl, by simp [Move.named?]⟩
  | pausing n call h hlength hpoint hpool hlast hnow hspent =>
    have hmade := made_of_step h.calls halone hown hstep
    rw [hpoint] at hmade
    obtain ⟨rfl, hdue, heq⟩ := hmade
    rw [h.token, hgo₀, ← h.token, show (x.attempt n).next = x.attempt (n + 1) from
      Executor.next_of_not_stops (h.goes (n + 1) (Nat.succ_pos n) (Nat.le_refl _))] at heq
    have hgoing := h.acquire hlength hpool hlast hgo₀ (Nat.le_antisymm hnow hdue)
      (show spent + 1 ≤ 3 * (n + 1) + 1 by omega) ((startedOf_of_calls h.calls h.no).trans h.started) heq
    exact ⟨Or.inl (by simpa [Move.named?] using hgoing), rfl, by simp [Move.named?]⟩

/-- A move made by the call alone or beside it leads from where the call stands to where it stands. -/
theorem Stands.step {m : Move ε α} (h : x.Stands L told spent e) (hplaced : x.Placed L told e)
    (halone : x.Alone e m) (hstep : e.step x.setup m = some e') (hgo : e'.isCancelled x.token = false) :
    x.Stands (L ++ (x.begun e e').toList) (told ++ m.named?.toList)
        (spent + if m.call?.isSome then 1 else 0) e' ∧
      ∀ id ∈ m.named?, ∀ t, e'.pool.find? id = some t → t.flag < e'.nextNo := by
  cases hpasses : m.passes? with
  | some millis =>
    obtain ⟨hnamed, hcall⟩ := named?_of_passes hpasses
    have haside := Engine.aside_of_step hpasses hstep
    have hdue := passes_of_alone halone hpasses
    rw [hnamed, hcall]
    refine ⟨?_, by simp⟩
    simp only [Option.toList_none, List.append_nil, Bool.false_eq_true, if_false, Nat.add_zero]
    rcases h with hgoing | ⟨n, hended⟩
    · obtain ⟨hgoing', hbegun⟩ := hgoing.aside haside hdue
      rw [hbegun, Option.toList_none, List.append_nil]
      exact Or.inl hgoing'
    · obtain ⟨hended', hbegun⟩ := hended.aside haside hdue
      rw [hbegun, Option.toList_none, List.append_nil]
      exact Or.inr ⟨n, hended'⟩
  | none =>
    rcases h with hgoing | ⟨n, hended⟩
    · obtain ⟨hstands, hcall, hfresh⟩ := hgoing.step hplaced halone hpasses hstep hgo
      rw [hcall, if_pos rfl]
      exact ⟨hstands, hfresh⟩
    · exact (hended.not_step halone hpasses hstep).elim

/-! ## Runs -/

/-- The call stands at its beginning when it has been set up. -/
theorem stands_entered (x : Execution ε α) : x.Stands [] [] 0 x.entered ∧ x.Placed [] [] x.entered := by
  have hcalls : x.entered.calls = [⟨x.no, x.token, 0, .fresh (.operation x.idempotent)⟩] := by
    show x.origin.calls ++ _ = _
    rw [x.quiet.calls]
    rfl
  constructor
  · refine Or.inl (.entered _
      { calls := hcalls
        held := x.quiet.held
        no := rfl
        token := rfl
        started := rfl
        goes := fun j hj hle => by omega
        generator := rfl
        log := ⟨(List.append_nil _).symm, (List.append_nil _).symm, fun i l l' hl => by simp at hl⟩
        results := rfl } rfl rfl x.quiet.unleased ?_ rfl)
    show x.origin.now = x.clock 0
    simp [clock, Executor.startMillis, Executor.firstRecords]
  · refine ⟨fun id t ht => ?_, by simp⟩
    exact ⟨(x.quiet.flag_lt id t ht).trans (Nat.lt_succ_self _), Or.inl ⟨t, ht⟩⟩

theorem isCancelled_of_run {c : Setup} {xs : List (Bool × Move ε α)} (hrun : e.run c xs = some e')
    {t : Token} (hgo : e'.isCancelled t = false) : e.isCancelled t = false :=
  Engine.holds_of_run (P := fun u => u.isCancelled t = false → e.isCancelled t = false)
    (fun {b _ x} hstep hb hgo => hb (isCancelled_of_step (e := { b with background := x.1 }) hstep hgo)) hrun
    id hgo

/-- It does not matter for the call whether deletions can be started in the background. -/
theorem Stands.withBackground (h : x.Stands L told spent e) (place : Bool) :
    x.Stands L told spent { e with background := place } := by
  have haside : Engine.Aside 0 e { e with background := place } := ⟨rfl, rfl, rfl, fun _ hdead => hdead⟩
  rcases h with hgoing | ⟨n, hended⟩
  · exact Or.inl (hgoing.aside haside (Or.inl rfl)).1
  · exact Or.inr ⟨n, (hended.aside haside (Or.inl rfl)).1⟩

/-- A run made by the call alone or beside it leads from where the call stands to where it stands. -/
theorem Stands.run {xs : List (Bool × Move ε α)} (h : x.Stands L told spent e)
    (hplaced : x.Placed L told e) (halone : x.AllAlone e xs) (hrun : e.run x.setup xs = some e')
    (hgo : e'.isCancelled x.token = false) :
    x.Stands (L ++ x.leases e xs) (told ++ Engine.named xs)
      (spent + xs.countP fun y => y.2.call?.isSome) e' := by
  induction xs generalizing e L told spent with
  | nil =>
    cases hrun
    simpa [leases, Engine.named] using h
  | cons y ys ih =>
    obtain ⟨e₁, hstep, hrest⟩ := Option.bind_eq_some_iff.mp hrun
    obtain ⟨hfirst, hlater⟩ := halone
    have hplaced₀ : x.Placed L told { e with background := y.1 } := ⟨hplaced.tracked, hplaced.leased⟩
    have hfirst₀ : x.Alone { e with background := y.1 } y.2 := hfirst
    obtain ⟨hstands, hfresh⟩ := (h.withBackground y.1).step hplaced₀ hfirst₀ hstep
      (isCancelled_of_run hrest hgo)
    have hplaced₁ := (hplaced₀.step hstep hfresh).begun hstands
    have hlast := ih hstands hplaced₁ (hlater e₁ hstep) hrest
    have hleases : x.leases e (y :: ys) = (x.begun e e₁).toList ++ x.leases e₁ ys := by
      rw [leases, hstep]
    have hcount : spent + (y :: ys).countP (fun y => y.2.call?.isSome) =
        (spent + if y.2.call?.isSome then 1 else 0) + ys.countP (fun y => y.2.call?.isSome) := by
      rw [List.countP_cons, Nat.add_assoc, Nat.add_comm (List.countP _ ys)]
    rw [hleases, Engine.named_cons, hcount, ← List.append_assoc, ← List.append_assoc]
    exact hlast

/-- A call that goes on has not ended. -/
theorem Going.call?_ne_none (h : x.Going L told spent e) : e.call? x.no ≠ none := by
  cases h with
  | entered call h => simp [h.call?_eq]
  | creating n call since h => simp [h.call?_eq]
  | operating n call k flags h => simp [h.call?_eq]
  | pausing n call h => simp [h.call?_eq]

/-- The call can make a move, at once or when the time has come for which it waits, and whatever session
the server gives it. -/
def CanMove (x : Execution ε α) (e : Engine ε α) : Prop :=
  ∀ (s : SessionInfo) (place : Bool), ∃ millis m,
    x.AllAlone e [(place, .advance millis), (place, m)] ∧
      (e.run x.setup [(place, .advance millis), (place, m)]).isSome = true ∧
      m.call? = some x.no ∧ ∀ id ∈ m.named?, id = s.id

/-- The clock goes on and a move is made. -/
theorem run_of_step (place : Bool) {millis : Nat} {m : Move ε α}
    (hdue : millis = 0 ∨ e.now + millis ≤ x.due e) (halone : x.Alone { e with now := e.now + millis } m)
    (hstep : (({ e with now := e.now + millis, background := place } : Engine ε α).step x.setup
      m).isSome = true) :
    x.AllAlone e [(place, .advance millis), (place, m)] ∧
      (e.run x.setup [(place, .advance millis), (place, m)]).isSome = true := by
  obtain ⟨e', hstep⟩ := Option.isSome_iff_exists.mp hstep
  have hadvance : e.stepAt x.setup (place, .advance millis) =
      some { e with now := e.now + millis, background := place } := rfl
  have hmove : Engine.stepAt { e with now := e.now + millis, background := place } x.setup (place, m) =
      some e' := hstep
  constructor
  · refine ⟨⟨millis, rfl, hdue⟩, fun e₁ he₁ => ?_⟩
    cases hadvance.symm.trans he₁
    exact ⟨halone, fun _ _ => trivial⟩
  · rw [Engine.run, hadvance, Option.bind_some, Engine.run, hmove]
    rfl

/-- A call that has not ended can go on. -/
theorem Going.canMove (h : x.Going L told spent e) (hgo : e.isCancelled x.token = false) :
    x.CanMove e := by
  intro s place
  -- the clock may be put forward to the moment at which the call moves: that cancels nothing
  have hgo' : ∀ {n : Nat} {call : Call}, x.Midway n L told call e → ∀ now : Nat,
      ({ e with now := now, background := place } : Engine ε α).isCancelled call.token = false := by
    intro n call h now
    rw [h.token]
    exact hgo
  have hcall : ∀ {n : Nat} {call : Call}, x.Midway n L told call e → ∀ now : Nat,
      ({ e with now := now, background := place } : Engine ε α).call? x.no = some call :=
    fun h _ => h.call?_eq
  cases h with
  | entered call h hlength hpoint hpool hnow hspent =>
    obtain ⟨halone, hrun⟩ := run_of_step (x := x) (e := e) (m := .start x.no) place
      (Or.inl rfl) trivial (by simp [Engine.step, hcall h, hpoint])
    exact ⟨0, _, halone, hrun, rfl, by simp [Move.named?]⟩
  | creating n call since h hlength hpoint hpool hlast hnow hspent =>
    obtain ⟨halone, hrun⟩ := run_of_step (x := x) (e := e) (m := .created x.no (.ok s)) place
      (Or.inl rfl) rfl (by simp [Engine.step, hcall h, hpoint, hgo' h])
    exact ⟨0, _, halone, hrun, rfl, by simp [Move.named?]⟩
  | operating n call k flags h hlength hlast hpoint hpool hnow hspent =>
    have hdue := h.due_of_operating hlength hpoint
    have hsum : e.now + (x.due e - e.now) = x.due e := Nat.add_sub_cancel' (hdue ▸ hnow)
    have hreached : x.due { e with now := e.now + (x.due e - e.now) } ≤ e.now + (x.due e - e.now) := by
      rw [due_of_calls (e := { e with now := e.now + (x.due e - e.now) }) h.calls h.no, hpoint, h.started,
        hlength, Nat.add_sub_cancel, hsum, hdue]
    obtain ⟨halone, hrun⟩ := run_of_step (x := x) (e := e)
      (m := .operated x.no false (x.reply e).result) place (Or.inr (Nat.le_of_eq hsum))
      ⟨rfl, rfl, hreached⟩ (by simp [Engine.step, hcall h, hpoint, hgo' h])
    exact ⟨_, _, halone, hrun, rfl, by simp [Move.named?]⟩
  | pausing n call h hlength hpoint hpool hlast hnow hspent =>
    have hdue : x.due e = x.clock (n + 1) := by rw [due_of_calls h.calls h.no, hpoint]
    have hsum : e.now + (x.due e - e.now) = x.due e := Nat.add_sub_cancel' (hdue ▸ hnow)
    obtain ⟨halone, hrun⟩ := run_of_step (x := x) (e := e) (m := .woken x.no) place
      (Or.inr (Nat.le_of_eq hsum)) trivial
      (by simp [Engine.step, hcall h, hgo' h, Engine.woken, hpoint, hsum, ← hdue])
    exact ⟨_, _, halone, hrun, rfl, by simp [Move.named?]⟩

/-- The plain run ends with the first attempt at which it stops. -/
theorem exists_last (x : Execution ε α) : ∃ n, (∀ j, 1 ≤ j → j ≤ n → ¬ x.Stops j) ∧ x.Stops (n + 1) ∧
    x.plain.calls = n + 1 ∧ x.plain.result = (x.op n).result ∧ x.plain.records = x.records (n + 1) ∧
    x.origin.now + x.plain.elapsed = x.clock n + boundedWait (x.op n).work := by
  obtain ⟨n, hgoes, hstop, -⟩ := x.setup.operations.exists_first_stop x.idempotent x.op
  obtain ⟨hcalls, hresult, hrecords, helapsed⟩ :=
    Executor.run_eq_of_stops (g := x.origin.generator) x.calm hgoes hstop
  refine ⟨n, hgoes, hstop, hcalls, hresult, hrecords, ?_⟩
  rw [plain, helapsed, clock]
  omega

/-- What is known of the leases and the moves wherever the call stands, when the plain run ends with its
attempt `n + 1`. -/
theorem Stands.within (h : x.Stands L told spent e) (hstop : x.Stops (n + 1)) :
    L.length ≤ n + 1 ∧ spent ≤ 3 * (n + 1) ∧
      ∀ i l l', L[i]? = some l → L[i + 1]? = some l' →
        ∃ r, x.record? (i + 1) = some r ∧ x.Linked told r l l' := by
  have hle : ∀ {k : Nat}, (∀ j, 1 ≤ j → j ≤ k → ¬ x.Stops j) → k ≤ n := by
    intro k hk
    by_contra hlt
    exact hk (n + 1) (Nat.succ_pos n) (by omega) hstop
  rcases h with hgoing | ⟨k, hended⟩
  · cases hgoing with
    | entered call h hlength hpoint hpool hnow hspent =>
      exact ⟨by omega, by omega, h.log.linked⟩
    | creating k call since h hlength hpoint hpool hlast hnow hspent =>
      have := hle h.goes
      exact ⟨by omega, by omega, h.log.linked⟩
    | operating k call k' flags h hlength hlast hpoint hpool hnow hspent =>
      have := hle h.goes
      exact ⟨by omega, by omega, h.log.linked⟩
    | pausing k call h hlength hpoint hpool hlast hnow hspent =>
      have := hle h.goes
      exact ⟨by omega, by omega, h.log.linked⟩
  · have := hle hended.goes
    have := hended.length
    have := hended.spent
    exact ⟨by omega, by omega, hended.log.linked⟩

/-- An execution in an open pool that nobody else uses, whose sessions are created at once and that is not
cancelled, agrees with the plain retry loop.  When it has ended, it has started its operation as often, it
has the same result, the records that have been told are the same, the same time has passed, and no
session is leased.  As long as it has not ended it can go on, and it moves at most three times for each
attempt.  An attempt runs on the lease of the attempt before exactly if the record of that one does not
blame the session and no monitor has found the session dead until then; and as long as the server names no
session again, another lease is on another session. -/
theorem agrees_with_plain_of_run (x : Execution ε α) (xs : List (Bool × Move ε α)) (e : Engine ε α)
    (hrun : x.entered.run x.setup xs = some e) (halone : x.AllAlone x.entered xs)
    (hgo : e.isCancelled x.token = false) :
    (e.call? x.no = none →
      (x.leases x.entered xs).length = x.plain.calls ∧
      e.startsOf x.no = x.origin.startsOf x.no ++ (x.leases x.entered xs).map (fun l => l.1.info) ∧
      e.resultsOf x.no = x.origin.resultsOf x.no ++ [x.plain.result] ∧
      e.operationRecords = x.origin.operationRecords ++ x.plain.records ∧
      e.now = x.origin.now + x.plain.elapsed ∧
      e.outstanding = [] ∧ e.pool.pending = 0 ∧
      ∀ id t, e.pool.find? id = some t → t.use = .idle) ∧
    (e.call? x.no ≠ none → x.CanMove e) ∧
    xs.countP (fun y => y.2.call?.isSome) ≤ 3 * x.plain.calls ∧
    ∀ i l l', (x.leases x.entered xs)[i]? = some l → (x.leases x.entered xs)[i + 1]? = some l' →
      ∃ r, x.plain.records[i]? = some r ∧
        (l'.1 = l.1 ↔ r.invalidatesSession = false ∧ l'.2.isAlive l.1.flag = true) ∧
        (x.Novel (Engine.named xs) → l'.1 ≠ l.1 → l'.1.id ≠ l.1.id) := by
  obtain ⟨n, hgoes, hstop, hcalls, hresult, hrecords, helapsed⟩ := x.exists_last
  have hstands := x.stands_entered.1.run x.stands_entered.2 halone hrun hgo
  rw [List.nil_append, List.nil_append, Nat.zero_add] at hstands
  obtain ⟨hlength, hspent, hlinked⟩ := hstands.within hstop
  refine ⟨fun hnone => ?_, fun hsome => ?_, hcalls ▸ hspent, ?_⟩
  · rcases hstands with hgoing | ⟨k, hended⟩
    · exact absurd hnone hgoing.call?_ne_none
    · -- the call has ended where the plain run ends
      obtain rfl : k = n := by
        have hle : k ≤ n := by
          by_contra hlt
          exact hended.goes (n + 1) (Nat.succ_pos n) (by omega) hstop
        by_contra hne
        exact hgoes (k + 1) (Nat.succ_pos k) (by omega) hended.stops
      refine ⟨by rw [hended.length, hcalls], hended.log.starts, by rw [hended.results, hresult],
        by rw [hended.log.records, hrecords], hended.now.trans helapsed.symm, ?_, hended.pool.pending,
        fun id t ht => (hended.pool.idle id t ht).1⟩
      rw [Engine.outstanding, hended.held, hended.calls]
      rfl
  · rcases hstands with hgoing | ⟨k, hended⟩
    · exact hgoing.canMove hgo
    · rw [Engine.call?, hended.calls] at hsome
      exact absurd rfl hsome
  · intro i l l' hl hl'
    obtain ⟨r, hr, hlink⟩ := hlinked i l l' hl hl'
    -- an attempt that another one follows is not the last one, so its record is among the first ones
    have hi : i < n := by
      have := (List.getElem?_eq_some_iff.mp hl').1
      omega
    obtain ⟨hlengthRecords, hget⟩ := Executor.getElem?_firstRecords (g := x.origin.generator) hgoes
    refine ⟨r, ?_, hlink.same_iff, hlink.id_ne⟩
    rw [hrecords, records, Executor.firstRecords_succ, List.getElem?_append_left (by omega), hget i hi]
    exact hr

/-- An execution whose first attempt fails because the server has lost its session. -/
def retried : Execution DriverError Int where
  setup := .ofConfig {} .standard none
  limit_pos := Nat.le_max_left _ _
  op n := ⟨false, 5, if n = 0 then .error (.rpc (.status .badSession "gone")) else .ok 1⟩
  calm _ := rfl
  idempotent := false
  token := .unnamed 0
  origin := .fresh ⟨1⟩
  quiet := ⟨rfl, rfl, ⟨rfl, rfl, fun _ _ ht => by cases ht⟩, fun _ _ ht => by cases ht⟩

/-- Both attempts of the execution take some time. -/
def retriedMoves : List (Bool × Move DriverError Int) :=
  [(true, .start 0), (true, .created 0 (.ok ⟨⟨"a"⟩, 1⟩)), (true, .advance 5),
    (true, .operated 0 false (.error (.rpc (.status .badSession "gone")))),
    (true, .created 0 (.ok ⟨⟨"b"⟩, 2⟩)), (true, .advance 5), (true, .operated 0 false (.ok 1))]

theorem allAlone_retriedMoves : retried.AllAlone retried.entered retriedMoves := by
  refine ⟨trivial, fun e h => ?_⟩
  cases h
  refine ⟨rfl, fun e h => ?_⟩
  cases h
  refine ⟨⟨5, rfl, Or.inr (by decide)⟩, fun e h => ?_⟩
  cases h
  refine ⟨⟨rfl, rfl, by decide⟩, fun e h => ?_⟩
  cases h
  refine ⟨rfl, fun e h => ?_⟩
  cases h
  refine ⟨⟨5, rfl, Or.inr (by decide)⟩, fun e h => ?_⟩
  cases h
  exact ⟨⟨rfl, rfl, by decide⟩, fun e h => trivial⟩

theorem agrees_with_plain_of_retried :
    ∃ e, retried.entered.run retried.setup retriedMoves = some e ∧
      retried.AllAlone retried.entered retriedMoves ∧ e.isCancelled retried.token = false ∧
      e.call? retried.no = none ∧ retried.plain.calls = 2 ∧ retried.plain.elapsed = 10 ∧
      e.resultsOf retried.no = [retried.plain.result] := by
  obtain ⟨e, hrun, hgo, hnone, hnow⟩ : ∃ e, retried.entered.run retried.setup retriedMoves = some e ∧
      e.isCancelled retried.token = false ∧ e.call? retried.no = none ∧ e.now = 10 :=
    ⟨_, rfl, rfl, rfl, rfl⟩
  obtain ⟨hcalls, -, hresults, -, helapsed, -⟩ :=
    (agrees_with_plain_of_run retried retriedMoves e hrun allAlone_retriedMoves hgo).1 hnone
  refine ⟨e, hrun, allAlone_retriedMoves, hgo, hnone, ?_, ?_, hresults⟩
  · rw [← hcalls]
    rfl
  · rw [hnow] at helapsed
    simpa [retried, Engine.fresh] using helapsed.symm

end Execution

end PooledSessions
