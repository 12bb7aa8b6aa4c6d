import PooledSessions.Proofs.Pool.Frame
/-!
# Runs of the pool

A run is any sequence of possible moves, each of which is made where deletions can be started in the
background or where they cannot.  As long as the server names no session twice, the tables are in order
after every run, and every leased session has exactly one outstanding lease.
-/

namespace PooledSessions

variable {ε α : Type}

/-- Whether a call that waits at the point executes an operation. -/
def Point.executes : Point → Bool
  | .fresh (.operation _) => true
  | .creating (.attempt _) _ _ => true
  | .createPause (.attempt _) _ _ => true
  | .operating _ _ _ => true
  | .pausing _ _ => true
  | _ => false

/-- The end of an execution that a signal tells. -/
def Signal.executed? : Signal ε α → Option (TaskNo × Except ε α)
  | .executed no r => some (no, r)
  | _ => none

namespace Engine

/-- The outstanding leases: those of the callers, and those that carry executions. -/
def outstanding (e : Engine ε α) : List Handle := e.held ++ Call.leases e.calls

/-- The sessions that the server names in a run. -/
def named (xs : List (Bool × Move ε α)) : List SessionId := xs.filterMap (·.2.named?)

theorem named_append (xs ys : List (Bool × Move ε α)) : named (xs ++ ys) = named xs ++ named ys :=
  List.filterMap_append

theorem named_cons (x : Bool × Move ε α) (xs : List (Bool × Move ε α)) :
    named (x :: xs) = x.2.named?.toList ++ named xs := by
  cases hx : x.2.named? <;> simp [named, hx]

/-- Where the server names no session twice, what it names later is new even when its first move is
known. -/
theorem new_of_named_cons {known : List SessionId} {x : Bool × Move ε α} {xs : List (Bool × Move ε α)}
    (hnd : (named (x :: xs)).Nodup) (hnew : ∀ id ∈ named (x :: xs), id ∉ known) :
    (∀ id ∈ x.2.named?, id ∉ known) ∧ (named xs).Nodup ∧
      ∀ id ∈ named xs, id ∉ x.2.named?.toList ++ known := by
  rw [named_cons] at hnd hnew
  obtain ⟨-, hlater, hdisjoint⟩ := List.nodup_append.mp hnd
  refine ⟨fun id hid => hnew id (List.mem_append_left _ (Option.mem_toList.mpr hid)), hlater,
    fun id hid hin => ?_⟩
  rcases List.mem_append.mp hin with hin | hin
  · exact hdisjoint id hin id hid rfl
  · exact hnew id (List.mem_append_right _ hid) hin

variable [PooledError ε]

/-- Makes a move where deletions can be started in the background, or where they cannot. -/
def stepAt (e : Engine ε α) (c : Setup) (x : Bool × Move ε α) : Option (Engine ε α) :=
  ({ e with background := x.1 } : Engine ε α).step c x.2

/-- Makes moves one after another, if each of them is possible. -/
def run (e : Engine ε α) (c : Setup) : List (Bool × Move ε α) → Option (Engine ε α)
  | [] => some e
  | x :: xs => (e.stepAt c x).bind fun e => e.run c xs

variable {c : Setup} {e e' : Engine ε α} {known : List SessionId}

theorem run_append (xs ys : List (Bool × Move ε α)) (e : Engine ε α) :
    e.run c (xs ++ ys) = (e.run c xs).bind fun e => e.run c ys := by
  induction xs generalizing e with
  | nil => rfl
  | cons x xs ih =>
    rw [List.cons_append, run, run, Option.bind_assoc]
    exact congrArg _ (funext ih)

/-! ## What holds after every run -/

/-- What every move keeps, wherever it is made, is kept by every run. -/
theorem holds_of_run {P : Engine ε α → Prop} {xs : List (Bool × Move ε α)}
    (hkeeps : ∀ {b e : Engine ε α} {x : Bool × Move ε α}, b.stepAt c x = some e → P b → P e)
    (hrun : e.run c xs = some e') (h : P e) : P e' := by
  induction xs generalizing e with
  | nil =>
    cases hrun
    exact h
  | cons x xs ih =>
    obtain ⟨e₁, hstep, hrest⟩ := Option.bind_eq_some_iff.mp hrun
    exact ih hrest (hkeeps hstep h)

omit [PooledError ε] in
theorem atRest_fresh (limit : Nat) (g : Generator) :
    (fresh g : Engine ε α).ledger.AtRest limit [] none where
  tables := Pool.inOrder_fresh limit
  lent := Pool.lent_fresh
  pending := rfl
  flag_lt := by simp [Pool.Bears, Pool.find?, ledger, fresh, Pool.fresh, Call.leases]
  names_known := List.nil_subset _
  lease_known := by simp [ledger, fresh, Call.leases]
  watched := by simp [ledger, fresh]
  numbers_nodup := List.nodup_nil
  number_lt := by simp [Ledger.numbers, ledger, fresh]
  accounts := by simp
  closed := by simp [ledger, fresh]
  drains := by simp [ledger, fresh]

/-- A move leads from rest to rest, wherever it is made. -/
theorem atRest_stepAt {x : Bool × Move ε α} (h : e.ledger.AtRest c.limit known none)
    (hstep : e.stepAt c x = some e') (hnew : ∀ id ∈ x.2.named?, id ∉ known) :
    e'.ledger.AtRest c.limit (x.2.named?.toList ++ known) none := by
  have hplace : ({ e with background := x.1 } : Engine ε α).ledger.AtRest c.limit known none :=
    Ledger.Sound.withBackground h x.1
  exact atRest_step hplace hstep hnew

/-- Every run leads from rest to rest. -/
theorem atRest_run {xs : List (Bool × Move ε α)} (h : e.ledger.AtRest c.limit known none)
    (hrun : e.run c xs = some e') (hnd : (named xs).Nodup) (hnew : ∀ id ∈ named xs, id ∉ known) :
    e'.ledger.AtRest c.limit ((named xs).reverse ++ known) none := by
  induction xs generalizing e known with
  | nil =>
    cases hrun
    exact h
  | cons x xs ih =>
    obtain ⟨e₁, hstep, hrest⟩ := Option.bind_eq_some_iff.mp hrun
    obtain ⟨hfirst, hnd', hlater⟩ := new_of_named_cons hnd hnew
    have hlast := ih (atRest_stepAt h hstep hfirst) hrest hnd' hlater
    rw [named_cons, List.reverse_append, List.append_assoc]
    have hone : x.2.named?.toList.reverse = x.2.named?.toList := by
      cases x.2.named? <;> rfl
    rw [hone]
    exact hlast

/-- A closed pool stays closed, and no creation begins in it. -/
theorem closed_of_step {m : Move ε α} (hclosed : e.pool.closed = true)
    (hstep : e.step c m = some e') : e'.pool.closed = true ∧ e'.pool.pending ≤ e.pool.pending := by
  rcases onward_step hstep with honward | ⟨call, -, -, -, -, -, -, rfl⟩
  · exact honward.closed hclosed
  · exact ⟨hclosed, Nat.le_refl _⟩

theorem closed_of_run {xs : List (Bool × Move ε α)} (hclosed : e.pool.closed = true)
    (hrun : e.run c xs = some e') : e'.pool.closed = true ∧ e'.pool.pending ≤ e.pool.pending := by
  refine holds_of_run (P := fun u => u.pool.closed = true ∧ u.pool.pending ≤ e.pool.pending)
    (fun {b u x} hstep hb => ?_) hrun ⟨hclosed, Nat.le_refl _⟩
  exact (closed_of_step (e := { b with background := x.1 }) hb.1 hstep).imp_right fun hle => hle.trans hb.2

/-- After every run the tables are in order: tracked sessions and pending creations stay within the
limit, the idle stack holds each idle session once, the creations in flight are counted, and a closed pool
tracks nothing and begins no creation any more. -/
theorem tables_inOrder_of_run (c : Setup) (g : Generator) (xs : List (Bool × Move ε α))
    (e : Engine ε α) (hnames : (named xs).Nodup) (hrun : (fresh g).run c xs = some e) :
    e.pool.active.length + e.pool.pending ≤ c.limit ∧
      (e.pool.active.map (·.1)).Nodup ∧
      e.pool.idle.Nodup ∧
      (∀ id, id ∈ e.pool.idle ↔ ∃ t, e.pool.find? id = some t ∧ t.use = .idle) ∧
      e.pool.pending = e.calls.countP (·.point.creates) ∧
      (e.pool.closed = true → e.pool.idle = [] ∧ e.pool.active = [] ∧
        ∀ later e', e.run c later = some e' →
          e'.pool.closed = true ∧ e'.pool.pending ≤ e.pool.pending) ∧
      (e.stats c).active + (e.stats c).pending ≤ (e.stats c).limit ∧
      (e.stats c).leased + (e.stats c).dead ≤ (e.stats c).active ∧
      (e.stats c).active ≤ (e.stats c).idle + (e.stats c).leased + (e.stats c).dead := by
  have hrest := atRest_run (atRest_fresh c.limit g) hrun hnames (by simp)
  have htables := hrest.tables
  refine ⟨htables.room, htables.names_nodup, htables.idle_nodup, htables.mem_idle, hrest.pending, ?_,
    htables.stats_le e.isAlive e.now⟩
  intro hclosed
  obtain ⟨hidle, hactive⟩ := htables.shut hclosed
  exact ⟨hidle, hactive, fun later e' hlater => closed_of_run hclosed hlater⟩

/-- A caller returns a session where no deletion could be started, while two others wait for
creations. -/
def leaseAndReturn : List (Bool × Move DriverError Int) :=
  [(true, .call .lease (.unnamed 0)), (true, .start 0), (true, .created 0 (.ok ⟨⟨"a"⟩, 1⟩)),
    (true, .call .lease (.unnamed 1)), (true, .call .lease (.unnamed 2)), (true, .start 2),
    (true, .start 3), (false, .release 1)]

theorem tables_inOrder_of_leaseAndReturn :
    ∃ e, (fresh ⟨1⟩).run (.ofConfig {} .standard none) leaseAndReturn = some e ∧
      e.pool.idle = [⟨"a"⟩] ∧ e.pool.pending = 2 ∧
      e.pool.pending = e.calls.countP (·.point.creates) :=
  ⟨_, rfl, rfl, rfl, (tables_inOrder_of_run (.ofConfig {} .standard none) ⟨1⟩ leaseAndReturn _
    (by decide) rfl).2.2.2.2.1⟩

/-! ## Leases -/

theorem isForCaller_of_executes {p : Point} (h : p.executes = true) : p.isForCaller = false := by
  cases p with
  | fresh purpose =>
    cases purpose with
    | operation idempotent => rfl
    | lease => cases h
    | closing => cases h
  | creating client a since =>
    cases client with
    | attempt a => rfl
    | caller => cases h
  | createPause client a wake =>
    cases client with
    | attempt a => rfl
    | caller => cases h
  | _ => rfl

theorem closes_of_executes {p : Point} (h : p.executes = true) : p.closes = false := by
  cases p with
  | deleting | draining _ | settling => cases h
  | _ => rfl

/-- An execution that ends in a move has made it, and no caller is handed a lease in it. -/
theorem onward_of_ended {m : Move ε α} {call : Call} (hnd : (e.calls.map (·.no)).Nodup)
    (hstep : e.step c m = some e') (hcall : call ∈ e.calls) (hexecutes : call.point.executes = true)
    (hended : ∀ k ∈ e'.calls, k.no ≠ call.no) :
    Onward (e.grants m = true) (some call.no) (e.owner? m) e e' ∧ e.grants m = false := by
  have hfind := call?_of_mem hnd hcall
  have hcaller := isForCaller_of_executes hexecutes
  rcases onward_step hstep with honward | ⟨call', hcall', rfl, hcloses', -, -, -, rfl⟩
  · -- a call that does not move goes on waiting, so the one that ends has moved
    have hmover : m.call? = some call.no := by
      by_contra hne
      rcases honward.calls call hcall hne with hin | hin
      · exact hended call hin rfl
      · exact hended call.wake hin call.wake_no
    refine ⟨hmover ▸ honward, ?_⟩
    simp [grants, hmover, hfind, hcaller]
  · have hno : call.no = call'.no := by
      by_contra hne
      exact hended call (List.mem_filter.mpr ⟨hcall, by simpa using hne⟩) rfl
    rw [← hno, hfind, Option.some.injEq] at hcall'
    rw [← hcall', closes_of_executes hexecutes] at hcloses'
    cases hcloses'

/-- The leases that are left when an execution has ended were there before, with somebody else. -/
theorem outstanding_of_ended {m : Move ε α} {call : Call} {k : Handle}
    (hnd : (e.calls.map (·.no)).Nodup) (hstep : e.step c m = some e') (hcall : call ∈ e.calls)
    (hexecutes : call.point.executes = true) (hended : ∀ k ∈ e'.calls, k.no ≠ call.no)
    (hk : k ∈ e'.outstanding) : k ∈ e.held ++ Call.leases (Call.except call.no e.calls) := by
  obtain ⟨honward, hgrants⟩ := onward_of_ended hnd hstep hcall hexecutes hended
  rcases List.mem_append.mp hk with hheld | hcarried
  · refine List.mem_append_left _ (honward.held (fun hgrants' => ?_) hheld)
    rw [hgrants] at hgrants'
    cases hgrants'
  · obtain ⟨k', hk', hlease⟩ := List.mem_filterMap.mp hcarried
    have hother : some call.no ≠ some k'.no := fun he => hended k' hk' (Option.some.inj he).symm
    refine List.mem_append_right _ ?_
    -- the other calls carry the leases that they carried before
    rcases honward.others k' hk' hother with hin | ⟨k₀, hk₀, rfl⟩ | ⟨purpose, hpoint⟩
    · exact List.mem_filterMap.mpr
        ⟨k', List.mem_filter.mpr ⟨hin, by simpa using hended k' hk'⟩, hlease⟩
    · rw [Call.wake_lease?] at hlease
      have hno : k₀.no ≠ call.no := k₀.wake_no ▸ hended _ hk'
      exact List.mem_filterMap.mpr ⟨k₀, List.mem_filter.mpr ⟨hk₀, by simpa using hno⟩, hlease⟩
    · rw [hpoint] at hlease
      cases hlease

/-- After every run, no two outstanding leases are on one session; every session tracked as leased has
exactly one outstanding lease, and every session tracked as idle has none.  So when an execution has
ended, every session that is still leased is leased to somebody else, who had the lease before, and no
place is kept for the execution. -/
theorem leases_exclusive_of_run (c : Setup) (g : Generator) (xs : List (Bool × Move ε α))
    (e : Engine ε α) (hnames : (named xs).Nodup) (hrun : (fresh g).run c xs = some e) :
    (e.outstanding.map (·.id)).Nodup ∧
      (∀ id t, e.pool.find? id = some t → t.use = .leased →
        (e.outstanding.map (·.id)).count id = 1) ∧
      (∀ id t, e.pool.find? id = some t → t.use = .idle →
        (e.outstanding.map (·.id)).count id = 0) ∧
      ∀ x e' call, (named (xs ++ [x])).Nodup → e.stepAt c x = some e' → call ∈ e.calls →
        call.point.executes = true → (∀ k ∈ e'.calls, k.no ≠ call.no) →
        (∀ id t, e'.pool.find? id = some t → t.use = .leased →
          ∃ k ∈ e.held ++ Call.leases (Call.except call.no e.calls), k.id = id ∧ k ∈ e'.outstanding) ∧
        e'.pool.pending = e'.calls.countP (·.point.creates) := by
  have hrest := atRest_run (atRest_fresh c.limit g) hrun hnames (by simp)
  have hlent := hrest.lent
  refine ⟨hlent.ids_nodup, ?_, ?_, ?_⟩
  · intro id t ht huse
    obtain ⟨k, hk, rfl⟩ := hlent.exists_lease id t ht huse
    exact List.count_eq_one_of_mem hlent.ids_nodup (List.mem_map_of_mem hk)
  · intro id t ht huse
    refine List.count_eq_zero_of_not_mem fun hin => ?_
    obtain ⟨k, hk, rfl⟩ := List.mem_map.mp hin
    have := hlent.use_of_lease k hk t ht
    rw [huse] at this
    cases this
  · intro x e' call hlast hstep hcall hexecutes hended
    -- the session that the last move may name is new, since no session is named twice
    have hnew : ∀ id ∈ x.2.named?, id ∉ (named xs).reverse ++ [] := by
      intro id hid hin
      rw [List.append_nil, List.mem_reverse] at hin
      rw [named, List.filterMap_append] at hlast
      exact (List.nodup_append.mp hlast).2.2 id hin id (List.mem_filterMap.mpr ⟨x, by simp, hid⟩) rfl
    have hrest' := atRest_stepAt hrest hstep hnew
    refine ⟨fun id t ht huse => ?_, hrest'.pending⟩
    obtain ⟨k, hk, rfl⟩ := hrest'.lent.exists_lease id t ht huse
    exact ⟨k, outstanding_of_ended (e := { e with background := x.1 }) hrest.calls_nodup hstep hcall
      hexecutes hended hk, rfl, hk⟩

/-- An execution waits for the operation that it has started. -/
def executing : List (Bool × Move DriverError Int) :=
  [(true, .call (.operation false) (.unnamed 0)), (true, .start 0),
    (true, .created 0 (.ok ⟨⟨"a"⟩, 1⟩))]

/-- The execution ends with its operation, and its session is not leased any more. -/
theorem leases_exclusive_of_executing :
    ∃ e e', (fresh ⟨1⟩).run (.ofConfig {} .standard none) executing = some e ∧
      e.stepAt (.ofConfig {} .standard none) (true, .operated 0 false (.ok 1)) = some e' ∧
      (e.outstanding.map (·.id)).count ⟨"a"⟩ = 1 ∧
      (∀ t, e'.pool.find? ⟨"a"⟩ = some t → t.use ≠ .leased) := by
  refine ⟨_, _, rfl, rfl, ?_, ?_⟩
  · exact (leases_exclusive_of_run (.ofConfig {} .standard none) ⟨1⟩ executing _ (by decide) rfl).2.1
      ⟨"a"⟩ _ rfl rfl
  · intro t ht huse
    obtain ⟨k, hk, -, -⟩ := ((leases_exclusive_of_run (.ofConfig {} .standard none) ⟨1⟩ executing _
      (by decide) rfl).2.2.2 (true, .operated 0 false (.ok 1)) _
        ⟨0, .unnamed 0, 1, .operating (.first false) ⟨⟨"a"⟩, 1, 1⟩ 0⟩ (by decide) rfl
        List.mem_cons_self rfl (fun k hk => by cases hk)).1 ⟨"a"⟩ t ht huse
    cases hk

end Engine

end PooledSessions
