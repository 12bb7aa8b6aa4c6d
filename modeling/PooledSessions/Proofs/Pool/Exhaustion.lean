import PooledSessions.Proofs.Pool.Tidings
/-!
# No false exhaustion

An execution holds one lease or one place at a time, and gives it back before it asks again.  A caller is
turned away as exhausted only when nothing is idle, and then every tracked session is leased and every
pending creation is in flight.  So where sessions are leased by executions only, each of them is held by
an execution under way, and the one that was turned away is under way as well but holds nothing: there
are more of them than the limit (`Engine.limit_lt_underWay`).

Dead sessions on the idle stack are removed before the limit is looked at, and sessions that are being
deleted are not tracked any more, so neither counts.
-/

namespace PooledSessions

variable {ε α : Type}

/-- Whether the pool is exhausted. -/
def PoolError.isExhausted : PoolError → Bool
  | exhausted .. => true
  | _ => false

/-- Whether a call that waits at the point has not been started. -/
def Point.isFresh : Point → Bool
  | .fresh _ => true
  | _ => false

/-- Whether a call that waits at the point has a lease or a place. -/
def Point.holds (p : Point) : Bool := p.lease?.isSome || p.creates

/-- Whether the move starts the call of that number. -/
def Move.starts (m : Move ε α) (no : TaskNo) : Bool :=
  match m with
  | .start n => n = no
  | _ => false

theorem Point.executes_iff {p : Point} :
    p.executes = true ↔ ∃ idempotent, p.purpose = .operation idempotent := by
  cases p with
  | fresh purpose => cases purpose <;> simp [executes, purpose]
  | creating client a since | createPause client a wake =>
    cases client <;> simp [executes, purpose, Client.purpose]
  | _ => simp [executes, purpose]

theorem Point.purpose_of_isForCaller {p : Point} (h : p.isForCaller = true) : p.purpose = .lease := by
  cases p with
  | fresh purpose =>
    cases purpose with
    | lease => rfl
    | operation _ | closing => cases h
  | creating client a since | createPause client a wake =>
    cases client with
    | caller => rfl
    | attempt a => cases h
  | _ => cases h

/-- A call that holds something and leases nothing for its caller executes an operation. -/
theorem Point.executes_of_holds {p : Point} (h : p.holds = true) (hpurpose : p.purpose ≠ .lease) :
    p.executes = true ∧ p.isFresh = false := by
  cases p with
  | creating client a since | createPause client a wake =>
    cases client with
    | caller => exact absurd rfl hpurpose
    | attempt a => exact ⟨rfl, rfl⟩
  | operating a k since => exact ⟨rfl, rfl⟩
  | _ => cases h

namespace Engine

/-- How many executions are under way while the move is made: those that have begun and have not ended,
and the one that begins with the move. -/
def underWay (e : Engine ε α) (m : Move ε α) : Nat :=
  e.calls.countP fun k => k.point.executes && (!k.point.isFresh || m.starts k.no)

/-- Sessions are leased for executions only. -/
structure ServesExecutions (e : Engine ε α) : Prop where
  /-- No caller holds a lease. -/
  held : e.held = []
  /-- No call is for a lease. -/
  purpose : ∀ k ∈ e.calls, k.point.purpose ≠ .lease

variable {c : Setup} {b e : Engine ε α} {m : Move ε α} {call : Call} {known : List SessionId}

/-! ## What is held when nothing is idle -/

/-- The calls that hold something have a lease or a creation in flight, and no call has both. -/
theorem leases_add_creations (calls : List Call) :
    (Call.leases calls).length + Call.creations calls = calls.countP (·.point.holds) := by
  induction calls with
  | nil => rfl
  | cons k calls ih =>
    rw [List.countP_cons, ← ih, Call.leases, Call.creations, List.countP_cons]
    cases hpoint : k.point <;>
      simp [Call.leases, Call.creations, hpoint, Point.lease?, Point.creates, Point.holds] <;> omega

/-- If nothing is idle, each tracked session has a lease of its own. -/
theorem length_active_le (hrest : e.ledger.AtRest c.limit known none) (hidle : e.pool.idle = []) :
    e.pool.active.length ≤ e.outstanding.length := by
  have hleased : e.pool.names ⊆ e.outstanding.map (·.id) := by
    intro id hid
    obtain ⟨t, ht⟩ := Option.ne_none_iff_exists'.mp (Pool.find?_eq_none_iff.not.mpr (not_not.mpr hid))
    -- a session that is not leased would be on the idle stack
    have huse : t.use = .leased := by
      cases huse : t.use with
      | leased => rfl
      | idle =>
        have hin : id ∈ e.pool.idle := (hrest.tables.mem_idle id).mpr ⟨t, ht, huse⟩
        rw [hidle] at hin
        cases hin
    obtain ⟨k, hk, rfl⟩ := hrest.lent.exists_lease id t ht huse
    exact List.mem_map_of_mem hk
  have hle := (List.subperm_of_subset hrest.tables.names_nodup hleased).length_le
  rwa [List.length_map, show e.ledger.pool.names.length = e.pool.active.length from List.length_map ..] at hle

/-- If nothing is idle, what the limit counts is held by calls. -/
theorem active_add_pending_le (hrest : e.ledger.AtRest c.limit known none) (hserves : e.ServesExecutions)
    (hidle : e.pool.idle = []) :
    e.pool.active.length + e.pool.pending ≤ e.calls.countP (·.point.holds) := by
  have hactive := length_active_le hrest hidle
  have hpending : e.pool.pending = Call.creations e.calls := hrest.pending
  rw [outstanding, hserves.held, List.nil_append] at hactive
  rw [← leases_add_creations, hpending]
  exact Nat.add_le_add_right hactive _

variable [PooledError ε]

/-! ## Who holds something after a call has ended -/

omit [PooledError ε] in
/-- A call that has been woken holds nothing. -/
theorem wake_of_holds {k : Call} (hholds : k.wake.point.holds = true) : k.wake = k := by
  obtain ⟨no, token, started, point⟩ := k
  cases point <;> first | rfl | cases hholds

/-- The calls that hold something after a move, but for the one that makes it, held something before. -/
theorem holds_of_step (hstep : b.step c m = some e) {k : Call} (hk : k ∈ e.calls)
    (hother : m.call? ≠ some k.no) (hholds : k.point.holds = true) : k ∈ b.calls := by
  rcases onward_step hstep with honward | ⟨call, -, -, -, -, -, -, rfl⟩
  · rcases honward.others k hk hother with hin | ⟨k₀, hk₀, rfl⟩ | ⟨purpose, hpoint⟩
    · exact hin
    · rwa [wake_of_holds hholds]
    · rw [hpoint] at hholds
      cases hholds
  · exact List.mem_of_mem_filter hk

/-- Whoever holds something when an execution has been turned away was under way beside it. -/
theorem holds_lt_underWay (hmover : Mover m call b) (hstep : b.step c m = some e) (he : e.Orderly)
    (hserves : e.ServesExecutions) (hended : e.HasEnded call.no)
    (hexecutes : call.point.executes = true) :
    e.calls.countP (·.point.holds) < b.underWay m := by
  have hcall := (mem_of_call? hmover.call?).1
  let waits : Call → Bool := fun k => k.point.executes && (!k.point.isFresh || m.starts k.no)
  have hmoving : waits call = true := by
    simp only [waits, hexecutes, Bool.true_and, Bool.or_eq_true, Bool.not_eq_true']
    cases hpoint : call.point with
    | fresh purpose =>
      refine Or.inr ?_
      rw [hmover.starts purpose hpoint]
      simp [Move.starts]
    | _ => exact Or.inl rfl
  -- the numbers of the holders and that of the call are numbers of calls under way
  have hsub : call.no :: (e.calls.filter (·.point.holds)).map (·.no) ⊆ (b.calls.filter waits).map (·.no) := by
    intro no hno
    rcases List.mem_cons.mp hno with rfl | hin
    · exact List.mem_map_of_mem (List.mem_filter.mpr ⟨hcall, hmoving⟩)
    · obtain ⟨k, hk, rfl⟩ := List.mem_map.mp hin
      obtain ⟨hke, hholds⟩ := List.mem_filter.mp hk
      have hother : m.call? ≠ some k.no := by
        rw [hmover.moves]
        exact fun he => hended k hke (Option.some.inj he).symm
      obtain ⟨hexecutes', hbegun⟩ := Point.executes_of_holds hholds (hserves.purpose k hke)
      refine List.mem_map_of_mem (List.mem_filter.mpr ⟨holds_of_step hstep hke hother hholds, ?_⟩)
      simp [waits, hexecutes', hbegun]
  have hnd : (call.no :: (e.calls.filter (·.point.holds)).map (·.no)).Nodup := by
    refine List.nodup_cons.mpr ⟨fun hin => ?_, he.nodup.sublist (List.filter_sublist.map _)⟩
    obtain ⟨k, hk, hno⟩ := List.mem_map.mp hin
    exact hended k (List.mem_of_mem_filter hk) hno
  have hle := (List.subperm_of_subset hnd hsub).length_le
  rw [List.length_cons, List.length_map, List.length_map, ← List.countP_eq_length_filter,
    ← List.countP_eq_length_filter] at hle
  exact hle

/-- When an execution is turned away as exhausted, more executions are under way than the limit allows. -/
theorem limit_lt_underWay (hmover : Mover m call b) (hstep : b.step c m = some e)
    (hrest : e.ledger.AtRest c.limit known none) (he : e.Orderly) (hserves : e.ServesExecutions)
    (hended : e.HasEnded call.no) (hexecutes : call.point.executes = true) (hidle : e.pool.idle = [])
    (hfull : c.limit ≤ e.pool.active.length + e.pool.pending) : c.limit < b.underWay m :=
  calc c.limit ≤ e.pool.active.length + e.pool.pending := hfull
    _ ≤ e.calls.countP (·.point.holds) := active_add_pending_le hrest hserves hidle
    _ < b.underWay m := holds_lt_underWay hmover hstep he hserves hended hexecutes

/-! ## Steps and runs -/

/-- No caller is leased a session in a move as long as no call is set up for that. -/
theorem ServesExecutions.step (h : b.ServesExecutions) (hb : b.Orderly) (hstep : b.step c m = some e)
    (hexecutions : ∀ token, m ≠ .call .lease token) : e.ServesExecutions := by
  constructor
  · rcases onward_step hstep with honward | ⟨call, -, -, -, -, -, -, rfl⟩
    · refine List.eq_nil_of_subset_nil (h.held ▸ honward.held fun hgrants => ?_)
      obtain ⟨call, hcall, hcaller⟩ := (Option.any_eq_true _ _).mp hgrants
      obtain ⟨no, -, hno⟩ := Option.bind_eq_some_iff.mp hcall
      exact absurd (Point.purpose_of_isForCaller hcaller) (h.purpose call (mem_of_call? hno).1)
    · exact h.held
  · intro k hk hlease
    rcases identity_of_step hb hstep hk with ⟨k₀, hk₀, hsame⟩ | ⟨-, hmove⟩
    · exact h.purpose k₀ hk₀ ((congrArg (·.2.2) hsame).trans hlease)
    · rw [hlease] at hmove
      exact hexecutions k.token hmove

/-- The error of an execution is the operation's own, or comes from the pool and not from exhaustion. -/
def HonestError (xs : List (Bool × Move ε α)) (no : TaskNo) (error : ε) : Prop :=
  (∃ x ∈ xs, ∃ cancels, x.2 = .operated no cancels (.error error)) ∨
    ∃ p : PoolError, p.isExhausted = false ∧ error = rejection p

/-- An execution that ends with an error in a move was not turned away as exhausted, unless more of them
are under way than the limit allows. -/
theorem honestError_of_step (hb : b.Orderly) (hstep : b.step c m = some e)
    (hrest : e.ledger.AtRest c.limit known none) (hserves : e.ServesExecutions)
    (hlimit : b.underWay m ≤ c.limit) {no : TaskNo} {error : ε}
    (htold : Signal.executed no (.error error) ∈ e.signals) :
    Signal.executed no (.error error) ∈ b.signals ∨
      ∀ place, HonestError [(place, m)] no error := by
  rcases says_of_step hb hstep htold rfl with hin | ⟨call, hmover, hsays⟩
  · exact Or.inl hin
  · refine Or.inr fun place => ?_
    cases hsays with
    | answered cancels result hended hmove =>
      exact Or.inl ⟨(place, m), List.mem_singleton_self _, cancels, hmove⟩
    | cancelled hended hgone => exact Or.inr ⟨.cancelled, rfl, rfl⟩
    | rejected p idempotent hended hpurpose hrefuses =>
      refine Or.inr ⟨p, ?_, rfl⟩
      cases hrefuses with
      | exhausted hidle hfull =>
        have hexecutes := Point.executes_iff.mpr ⟨idempotent, hpurpose⟩
        have hmore := limit_lt_underWay hmover hstep hrest (orderly_of_step hb hstep) hserves hended
          hexecutes hidle hfull
        exact absurd hlimit (Nat.not_le.mpr hmore)
      | _ => rfl

omit [PooledError ε] in
theorem HonestError.mono [PooledError ε] {xs ys : List (Bool × Move ε α)} (hsub : xs ⊆ ys) {no : TaskNo}
    {error : ε} (h : HonestError xs no error) : HonestError ys no error :=
  h.imp_left fun ⟨x, hx, hmove⟩ => ⟨x, hsub hx, hmove⟩

/-- No run of executions only in which no more of them are under way than the limit allows turns any of
them away as exhausted. -/
theorem honestErrors_of_run {xs : List (Bool × Move ε α)} (hrest : b.ledger.AtRest c.limit known none)
    (hb : b.Orderly) (hserves : b.ServesExecutions) (hrun : b.run c xs = some e)
    (hnd : (named xs).Nodup) (hnew : ∀ id ∈ named xs, id ∉ known)
    (hexecutions : ∀ x ∈ xs, ∀ token, x.2 ≠ .call .lease token)
    (hlimit : ∀ n x e₀, xs[n]? = some x → b.run c (xs.take n) = some e₀ → e₀.underWay x.2 ≤ c.limit)
    {no : TaskNo} {error : ε} (htold : Signal.executed no (.error error) ∈ e.signals) :
    Signal.executed no (.error error) ∈ b.signals ∨ HonestError xs no error := by
  induction xs generalizing b known with
  | nil =>
    cases hrun
    exact Or.inl htold
  | cons x xs ih =>
    obtain ⟨b₁, hstep, hlater⟩ := Option.bind_eq_some_iff.mp hrun
    obtain ⟨hfirst, hnd', hnew'⟩ := new_of_named_cons hnd hnew
    have hrest₁ := atRest_stepAt hrest hstep hfirst
    have hplace := hb.withBackground x.1
    have hserves₁ : b₁.ServesExecutions :=
      ServesExecutions.step (b := { b with background := x.1 }) ⟨hserves.held, hserves.purpose⟩ hplace hstep
        (hexecutions x List.mem_cons_self)
    have hlimit₁ : ∀ n x' e₀, xs[n]? = some x' → b₁.run c (xs.take n) = some e₀ →
        e₀.underWay x'.2 ≤ c.limit := by
      intro n x' e₀ hx' hrun'
      refine hlimit (n + 1) x' e₀ hx' ?_
      rw [List.take_succ_cons, run, hstep, Option.bind_some, hrun']
    -- an error that is not told in the rest of the run was told in the first move or before it
    have hbefore : b.underWay x.2 ≤ c.limit := hlimit 0 x b rfl rfl
    rcases ih hrest₁ (orderly_of_step hplace hstep) hserves₁ hlater hnd' hnew'
      (fun x' hx' => hexecutions x' (List.mem_cons_of_mem _ hx')) hlimit₁ with hin | hhonest
    · rcases honestError_of_step hplace hstep hrest₁ hserves₁ hbefore hin with hin | hhonest
      · exact Or.inl hin
      · exact Or.inr ((hhonest x.1).mono (List.cons_subset_cons _ (List.nil_subset _)))
    · exact Or.inr (hhonest.mono (List.subset_cons_self _ _))

/-- In a run in which the server names no session twice, sessions are leased for executions only, and no
more of these are under way at any time than the limit allows, no execution is turned away as
exhausted: each that ends with an error ends with an answer of its own operation, or with an error of the
pool that is another one. -/
theorem never_exhausted_of_run (c : Setup) (g : Generator) (xs : List (Bool × Move ε α))
    (e : Engine ε α) (hnames : (named xs).Nodup) (hrun : (fresh g).run c xs = some e)
    (hexecutions : ∀ x ∈ xs, ∀ token, x.2 ≠ .call .lease token)
    (hlimit : ∀ n x e₀, xs[n]? = some x → (fresh g).run c (xs.take n) = some e₀ →
      e₀.underWay x.2 ≤ c.limit) (no : TaskNo) (error : ε)
    (htold : Signal.executed no (.error error) ∈ e.signals) :
    (∃ x ∈ xs, ∃ cancels, x.2 = .operated no cancels (.error error)) ∨
      ∃ p : PoolError, p.isExhausted = false ∧ error = rejection p := by
  rcases honestErrors_of_run (atRest_fresh c.limit g) (orderly_fresh g) ⟨rfl, by simp [fresh]⟩ hrun hnames
    (by simp) hexecutions hlimit htold with hin | hhonest
  · cases hin
  · exact hhonest

/-- An execution in a pool of one session gives that session up, and fails to have another one created
while the first one is still being deleted. -/
def replacing : List (Bool × Move DriverError Int) :=
  executing ++ [(true, .operated 0 false (.error (.rpc (.status .badSession "gone")))),
    (true, .created 0 (.error (.status .badRequest "no")))]

/-- The pool of one session had room for the second creation. -/
theorem never_exhausted_of_replacing :
    ∃ e, (fresh ⟨1⟩).run (.ofConfig { pool := { sizeLimit := 1 } } .standard none) replacing = some e ∧
      e.deletions.map (·.id) = [⟨"a"⟩] ∧ ∃ p : PoolError, p.isExhausted = false ∧
        DriverError.pool (.creationFailed (.status .badRequest "no") false) = rejection p := by
  obtain ⟨e, hrun, hdeletions, hlast⟩ :
      ∃ e, (fresh ⟨1⟩).run (.ofConfig { pool := { sizeLimit := 1 } } .standard none) replacing = some e ∧
        e.deletions.map (·.id) = [⟨"a"⟩] ∧ e.signals.getLast? =
          some (.executed 0 (.error (.pool (.creationFailed (.status .badRequest "no") false)))) :=
    ⟨_, rfl, rfl, rfl⟩
  refine ⟨e, hrun, hdeletions, ?_⟩
  have hlimit : ∀ n x e₀, replacing[n]? = some x →
      (fresh ⟨1⟩).run (.ofConfig { pool := { sizeLimit := 1 } } .standard none) (replacing.take n) = some e₀ →
        e₀.underWay x.2 ≤ 1 := by
    intro n x e₀ hx hrun
    have hn : n < 5 := (List.getElem?_eq_some_iff.mp hx).1
    interval_cases n
    all_goals
      cases hx
      obtain rfl := Option.some.inj hrun
      decide
  rcases never_exhausted_of_run (.ofConfig { pool := { sizeLimit := 1 } } .standard none) ⟨1⟩ replacing e
    (by decide) hrun (by simp [replacing, executing]) hlimit 0 _ (List.mem_of_getLast? hlast) with hown | hhonest
  · simp [replacing, executing] at hown
  · exact hhonest

end Engine

end PooledSessions
