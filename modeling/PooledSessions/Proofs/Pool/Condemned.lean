import PooledSessions.Proofs.Pool.Handover
import PooledSessions.Proofs.Pool.Runs
/-!
# Condemned sessions

A session is condemned when it is given up, when its lease is lost, when an operation on it fails in a way
that its record blames on the session, or is cancelled or dropped, and when it is found dead as its lease
comes back or as it lies on the idle stack (`Engine.Condemns`).  In each case it leaves the tables
within the move, before anything else is handed out.  Only tracked sessions are handed out, and a session
comes to be tracked once, when the server names it; so a condemned session is never used again.
-/

namespace PooledSessions

variable {ε α : Type}

namespace Engine

/-! ## Leaving the tables -/

section Leaving

variable {c : Setup} {e e₁ e' : Engine ε α} {fresh : Option SessionId} {id : SessionId}

/-- A lease that comes back on a dead session takes the session out of the tables. -/
theorem find?_giveBack_of_dead {t : Tracked} (ht : e.pool.find? id = some t)
    (huse : t.use = .leased) (hdead : e.isAlive t.flag = false) :
    (e.giveBack c id).pool.find? id = none := by
  unfold giveBack Pool.release
  simp only [ht, if_pos huse, hdead]
  rw [if_neg (by simp), pool_retire]
  exact (Pool.find?_discard e.pool id id).trans (if_pos rfl)

/-- An operation that cancels its call as it starts changes nothing else. -/
theorem exists_cancelled_eq (e : Engine ε α) (cancels : Bool) (t : Token) :
    ∃ tokens, (if cancels then e.cancel t else e) = { e with cancelled := tokens } := by
  unfold cancel
  repeat' split
  all_goals exact ⟨_, rfl⟩

/-- Assessing a failed operation hands out nothing. -/
theorem handedOut_assess (e : Engine ε α) (c : Setup) (f : Fault) (a : Attempt) :
    (e.assess c .operation f a).2.handedOut = e.handedOut := by
  rw [handedOut_eq, course_assess, handedOut_eq, List.filterMap_append]
  exact List.append_nil _

/-- The session is not tracked any more, and nothing has been handed out on it since. -/
def Spared (id : SessionId) (e e' : Engine ε α) : Prop :=
  e'.pool.find? id = none ∧ ∃ more, e'.handedOut = e.handedOut ++ more ∧ id ∉ more

theorem spared_of_find?_eq_none (hsame : e'.handedOut = e.handedOut)
    (hnone : e'.pool.find? id = none) : Spared id e e' :=
  ⟨hnone, [], by rw [hsame, List.append_nil], List.not_mem_nil⟩

theorem Spared.trans (h : Spared id e e₁) (h' : Spared id e₁ e') : Spared id e e' := by
  obtain ⟨-, more, heq, hnot⟩ := h
  obtain ⟨hnone, more', heq', hnot'⟩ := h'
  refine ⟨hnone, more ++ more', by rw [heq', heq, List.append_assoc], fun hid => ?_⟩
  exact (List.mem_append.mp hid).elim hnot hnot'

/-- A session that has left the tables within a move is spared by the rest of it. -/
theorem Spared.descends (h : Spared id e e₁) (hrest : Descends fresh e₁ e') (hfresh : fresh ≠ some id) :
    Spared id e e' :=
  h.trans (hrest.of_find?_eq_none h.1 hfresh)

theorem spared_invalidate (e : Engine ε α) (c : Setup) (id : SessionId) :
    Spared id e (e.invalidate c id) :=
  spared_of_find?_eq_none (handedOut_of_course (course_invalidate e c id)) (find?_invalidate e c id)

theorem spared_loseLease (e : Engine ε α) (c : Setup) (id : SessionId) :
    Spared id e (e.loseLease c id) :=
  spared_of_find?_eq_none (handedOut_of_course (course_loseLease e c id)) (find?_invalidate _ c id)

theorem spared_giveBack_of_dead {t : Tracked} (ht : e.pool.find? id = some t)
    (huse : t.use = .leased) (hdead : e.isAlive t.flag = false) : Spared id e (e.giveBack c id) :=
  spared_of_find?_eq_none (handedOut_of_course (course_giveBack e c id))
    (find?_giveBack_of_dead ht huse hdead)

variable [PooledError ε]

/-- A session that is not tracked is spared by every move that does not name it. -/
theorem spared_of_step {m : Move ε α} (hnone : e.pool.find? id = none) (hnew : m.named? ≠ some id)
    (hstep : e.step c m = some e') : Spared id e e' :=
  (leadsTo_of_step hstep).descends.of_find?_eq_none hnone hnew

theorem spared_of_run {xs : List (Bool × Move ε α)} (hnone : e.pool.find? id = none)
    (hnew : id ∉ named xs) (hrun : e.run c xs = some e') : Spared id e e' := by
  induction xs generalizing e with
  | nil =>
    cases hrun
    exact spared_of_find?_eq_none rfl hnone
  | cons x xs ih =>
    obtain ⟨e₁, hstep, hrest⟩ := Option.bind_eq_some_iff.mp hrun
    rw [named_cons, List.mem_append, not_or, Option.mem_toList] at hnew
    obtain ⟨hnew₁, hnew₂⟩ := hnew
    have hfirst : Spared id e e₁ :=
      spared_of_step (e := { e with background := x.1 }) hnone hnew₁ hstep
    exact hfirst.trans (ih hfirst.1 hnew₂ hrest)

end Leaving

/-! ## What condemns a session -/

variable [PooledError ε]

/-- The moves, and what they lead to, after which a session must not be used again.  The server has named
the sessions `known` so far: giving up a name that belongs to no session condemns nothing. -/
inductive Condemns (c : Setup) (known : List SessionId) (e : Engine ε α) :
    Move ε α → Engine ε α → SessionId → Prop
  /-- A caller gives up the session of his lease. -/
  | givenUp {e' : Engine ε α} (h : Handle) (hheld : e.held? h.flag = some h) :
      Condemns c known e (.invalidate h.flag) e' h.id
  /-- A caller loses his lease. -/
  | lost {e' : Engine ε α} (h : Handle) (hheld : e.held? h.flag = some h) :
      Condemns c known e (.drop h.flag) e' h.id
  /-- A session is given up by its name. -/
  | givenUpByName {e' : Engine ε α} (id : SessionId) (hknown : id ∈ known) :
      Condemns c known e (.invalidateId id) e' id
  /-- An operation on it fails with a record that blames the session. -/
  | failed {e' : Engine ε α} (call : Call) (a : Attempt) (h : Handle) (since : Nat) (cancels : Bool)
      (error : ε) (hcall : e.call? call.no = some call) (hpoint : call.point = .operating a h since)
      (hrecord : (c.operations.assess (CallError.toFault error) a e.generator).record.invalidatesSession =
        true) :
      Condemns c known e (.operated call.no cancels (.error error)) e' h.id
  /-- An operation on it is cancelled. -/
  | cancelled {e' : Engine ε α} (call : Call) (a : Attempt) (h : Handle) (since : Nat)
      (hcall : e.call? call.no = some call) (hpoint : call.point = .operating a h since) :
      Condemns c known e (.noticed call.no) e' h.id
  /-- An execution is dropped while its operation runs on it. -/
  | dropped {e' : Engine ε α} (call : Call) (a : Attempt) (h : Handle) (since : Nat)
      (hcall : e.call? call.no = some call) (hpoint : call.point = .operating a h since) :
      Condemns c known e (.abandon call.no) e' h.id
  /-- It is dead when a caller returns his lease. -/
  | returnedDead {e' : Engine ε α} (h : Handle) (t : Tracked) (hheld : e.held? h.flag = some h)
      (ht : e.pool.find? h.id = some t) (hdead : e.isAlive t.flag = false) :
      Condemns c known e (.release h.flag) e' h.id
  /-- It is dead when an operation on it ends. -/
  | operatedDead {e' : Engine ε α} (call : Call) (a : Attempt) (h : Handle) (since : Nat) (cancels : Bool)
      (result : Except ε α) (t : Tracked) (hcall : e.call? call.no = some call)
      (hpoint : call.point = .operating a h since) (ht : e.pool.find? h.id = some t)
      (hdead : e.isAlive t.flag = false) :
      Condemns c known e (.operated call.no cancels result) e' h.id
  /-- It lies dead on the idle stack, and is taken off. -/
  | poppedDead {m : Move ε α} {e' : Engine ε α} (id : SessionId) (t : Tracked)
      (hidle : id ∈ e.pool.idle) (ht : e.pool.find? id = some t) (hdead : e.isAlive t.flag = false)
      (hpopped : id ∉ e'.pool.idle) :
      Condemns c known e m e' id

variable {c : Setup} {known : List SessionId} {e e' : Engine ε α} {m : Move ε α} {id : SessionId}

/-- It does not matter whether deletions can be started in the background. -/
theorem Condemns.withBackground (h : e.Condemns c known m e' id) (place : Bool) :
    ({ e with background := place } : Engine ε α).Condemns c known m e' id := by
  cases h with
  | givenUp k hk => exact .givenUp k hk
  | lost k hk => exact .lost k hk
  | givenUpByName id hknown => exact .givenUpByName id hknown
  | failed call a k since cancels error hcall hpoint hrecord =>
    exact .failed call a k since cancels error hcall hpoint hrecord
  | cancelled call a k since hcall hpoint => exact .cancelled call a k since hcall hpoint
  | dropped call a k since hcall hpoint => exact .dropped call a k since hcall hpoint
  | returnedDead k t hk ht hdead => exact .returnedDead k t hk ht hdead
  | operatedDead call a k since cancels result t hcall hpoint ht hdead =>
    exact .operatedDead call a k since cancels result t hcall hpoint ht hdead
  | poppedDead id t hidle ht hdead hpopped => exact .poppedDead id t hidle ht hdead hpopped

/-- The server has named every session that is condemned. -/
theorem Condemns.mem_known (h : e.Condemns c known m e' id) {named : List SessionId}
    (hrest : e.ledger.AtRest c.limit named none) (hsub : named ⊆ known) : id ∈ known := by
  have hcarried : ∀ call k, e.call? call.no = some call → call.point.lease? = some k → k.id ∈ known := by
    intro call k hcall hlease
    exact hsub (hrest.lease_known k (List.mem_append_right _
      (List.mem_filterMap.mpr ⟨call, (mem_of_call? hcall).1, hlease⟩)))
  have hheld : ∀ k, e.held? k.flag = some k → k.id ∈ known := fun k hk =>
    hsub (hrest.lease_known k (List.mem_append_left _ (mem_of_held? hk).1))
  cases h with
  | givenUp k hk => exact hheld k hk
  | lost k hk => exact hheld k hk
  | givenUpByName id hknown => exact hknown
  | failed call a k since cancels error hcall hpoint => exact hcarried call k hcall (by rw [hpoint]; rfl)
  | cancelled call a k since hcall hpoint => exact hcarried call k hcall (by rw [hpoint]; rfl)
  | dropped call a k since hcall hpoint => exact hcarried call k hcall (by rw [hpoint]; rfl)
  | returnedDead k t hk => exact hheld k hk
  | operatedDead call a k since cancels result t hcall hpoint =>
    exact hcarried call k hcall (by rw [hpoint]; rfl)
  | poppedDead id t hidle ht => exact hsub (hrest.names_known (Pool.mem_names_of_find? ht))

/-- An operation ends, and its session is given up because of the record or because it is dead. -/
theorem spared_operated {call : Call} {a : Attempt} {k : Handle} {result : Except ε α}
    (hcondemned :
      (∃ error, result = .error error ∧
        (c.operations.assess (CallError.toFault error) a e.generator).record.invalidatesSession = true) ∨
      ∃ t, e.pool.find? k.id = some t ∧ t.use = .leased ∧ e.isAlive t.flag = false) :
    Spared k.id e (e.operated c call a k result) := by
  cases result with
  | ok v =>
    rcases hcondemned with ⟨error, herror, -⟩ | ⟨t, ht, huse, hdead⟩
    · cases herror
    · exact (spared_giveBack_of_dead ht huse hdead).descends
        (Descends.rfl.finish call.no _ : Descends none _ _) (by simp)
  | error error =>
    have hassessed := handedOut_assess e c (CallError.toFault error) a
    have hpool : (e.assess c .operation (CallError.toFault error) a).2.pool = e.pool :=
      congrArg Ledger.pool (ledger_assess e c .operation (CallError.toFault error) a)
    have hflags : (e.assess c .operation (CallError.toFault error) a).2.flags = e.flags :=
      congrArg Course.flags (course_assess e c (CallError.toFault error) a)
    rw [operated_error]
    -- what the loop decides afterwards hands out no session that is not tracked
    refine Spared.descends ?_ (Descends.rfl.follow c call.no call.token _ : Descends none _ _) (by simp)
    refine spared_of_find?_eq_none ((handedOut_of_course (course_partFrom _ c k.id _)).trans hassessed) ?_
    unfold partFrom
    split
    · exact find?_invalidate _ c k.id
    · rename_i hkept
      rcases hcondemned with ⟨_, herror, hrecord⟩ | ⟨t, ht, huse, hdead⟩
      · cases herror
        exact absurd hrecord hkept
      · refine find?_giveBack_of_dead (t := t) (by rw [hpool, ht]) huse ?_
        rw [isAlive, hflags]
        exact hdead

/-- A dead session that is taken off the idle stack is not leased, so it has left the tables. -/
theorem spared_of_popped {named named' : List SessionId} (hrest : e.ledger.AtRest c.limit named none)
    (hrest' : e'.ledger.AtRest c.limit named' none) (hstep : e.step c m = some e')
    (hnew : m.named? ≠ some id) {t : Tracked} (hidle : id ∈ e.pool.idle)
    (ht : e.pool.find? id = some t) (hdead : e.isAlive t.flag = false) (hpopped : id ∉ e'.pool.idle) :
    Spared id e e' := by
  have hleads := leadsTo_of_step hstep
  have hdead' : ¬ e'.isAlive t.flag = true := fun halive => by
    rw [hleads.alive _ halive] at hdead
    cases hdead
  obtain ⟨t₁, ht₁, huse⟩ := (hrest.tables.mem_idle id).mp hidle
  rw [show e.ledger.pool.find? id = e.pool.find? id from rfl, ht, Option.some.injEq] at ht₁
  constructor
  -- a session that stays tracked is still idle, or it was leased again although it is dead
  · refine Option.eq_none_iff_forall_ne_some.mpr fun t' ht' => ?_
    rcases hleads.descends.tables id t' ht' with hfresh | ⟨t₀, ht₀, -, hleased⟩
    · exact hnew hfresh
    · rw [show ({ e with flags := e'.flags } : Engine ε α).pool.find? id = e.pool.find? id from rfl, ht,
        Option.some.injEq] at ht₀
      rw [← ht₀, ht₁, huse] at hleased
      cases huse' : t'.use with
      | idle => exact hpopped ((hrest'.tables.mem_idle id).mpr ⟨t', ht', huse'⟩)
      | leased =>
        rcases hleased huse' with hbefore | halive
        · cases hbefore
        · exact hdead' (ht₁ ▸ halive)
  · obtain ⟨more, heq, hmore⟩ := hleads.descends.handedOut
    refine ⟨more, heq, fun hid => ?_⟩
    rcases hmore id hid with hfresh | ⟨t₀, ht₀, halive⟩
    · exact hnew hfresh
    · rw [show ({ e with flags := e'.flags } : Engine ε α).pool.find? id = e.pool.find? id from rfl, ht,
        Option.some.injEq] at ht₀
      exact hdead' (ht₀ ▸ halive)

/-- A condemned session leaves the tables with the move that condemns it, and is not handed out in it. -/
theorem spared_of_condemns {named named' : List SessionId} (hrest : e.ledger.AtRest c.limit named none)
    (hrest' : e'.ledger.AtRest c.limit named' none) (hcondemns : e.Condemns c known m e' id)
    (hstep : e.step c m = some e') (hunnamed : m.named? ≠ some id) : Spared id e e' := by
  have hleased : ∀ k ∈ e.held ++ Call.leases e.calls, ∀ t, e.pool.find? k.id = some t → t.use = .leased :=
    hrest.lent.use_of_lease
  -- a lease that an operation works with is outstanding, so its session counts as leased
  have hcarried : ∀ {call : Call} {a : Attempt} {k : Handle} {since : Nat},
      e.call? call.no = some call → call.point = .operating a k since →
      k ∈ e.held ++ Call.leases e.calls := by
    intro call a k since hcall hpoint
    exact List.mem_append_right _ (List.mem_filterMap.mpr
      ⟨call, (mem_of_call? hcall).1, by rw [hpoint]; rfl⟩)
  cases hcondemns with
  | givenUp k hk =>
    simp only [step, hk, Option.map_some, Option.some.injEq] at hstep
    subst hstep
    exact spared_invalidate _ c k.id
  | lost k hk =>
    simp only [step, hk, Option.map_some, Option.some.injEq] at hstep
    subst hstep
    exact spared_loseLease _ c k.id
  | givenUpByName id =>
    cases hstep
    exact spared_invalidate e c id
  | failed call a k since cancels error hcall hpoint hrecord =>
    simp only [step, hcall, Option.bind_eq_bind, Option.bind_some, hpoint] at hstep
    split at hstep
    · cases hstep
    · cases hstep
      obtain ⟨tokens, htokens⟩ := exists_cancelled_eq e cancels call.token
      rw [htokens]
      exact spared_operated (e := { e with cancelled := tokens }) (Or.inl ⟨error, rfl, hrecord⟩)
  | cancelled call a k since hcall hpoint =>
    simp only [step, hcall, Option.bind_eq_bind, Option.bind_some, noticed, hpoint] at hstep
    split at hstep
    · cases hstep
      exact (spared_invalidate e c k.id).descends (Descends.rfl.finish call.no _ : Descends none _ _)
        (by simp)
    · cases hstep
  | dropped call a k since hcall hpoint =>
    simp only [step, hcall, Option.map_some, abandon, hpoint, Option.some.injEq] at hstep
    subst hstep
    exact spared_loseLease (e.endCall call.no) c k.id
  | returnedDead k t hk ht hdead =>
    simp only [step, hk, Option.map_some, Option.some.injEq] at hstep
    subst hstep
    have hheld := List.mem_append_left (Call.leases e.calls) (mem_of_held? hk).1
    exact spared_giveBack_of_dead (e := e.part k.flag) ht (hleased k hheld t ht) hdead
  | operatedDead call a k since cancels result t hcall hpoint ht hdead =>
    have huse := hleased k (hcarried hcall hpoint) t ht
    simp only [step, hcall, Option.bind_eq_bind, Option.bind_some, hpoint] at hstep
    split at hstep
    · cases hstep
    · cases hstep
      obtain ⟨tokens, htokens⟩ := exists_cancelled_eq e cancels call.token
      rw [htokens]
      exact spared_operated (e := { e with cancelled := tokens }) (Or.inr ⟨t, ht, huse, hdead⟩)
  | poppedDead id t hidle ht hdead hpopped =>
    exact spared_of_popped hrest hrest' hstep hunnamed hidle ht hdead hpopped

/-- After every run, a move hands out only the session that the server has just named and sessions that
are tracked and alive, before the move and after it.  A session that a move condemns has left the tables
after every later run and has not been handed out, to a caller or to an operation, in the move or since.
Giving up a name that the server has not used changes nothing. -/
theorem condemned_never_used_of_run (c : Setup) (g : Generator) (xs : List (Bool × Move ε α))
    (e : Engine ε α) (hnames : (named xs).Nodup) (hrun : (fresh g).run c xs = some e) :
    (∀ x e₁, e.stepAt c x = some e₁ →
      ∃ more, e₁.handedOut = e.handedOut ++ more ∧ ∀ id ∈ more, x.2.named? = some id ∨
        ∃ t, e.pool.find? id = some t ∧ e.isAlive t.flag = true ∧ e₁.isAlive t.flag = true) ∧
      (∀ x later e₁ e' id, (named (xs ++ x :: later)).Nodup → e.stepAt c x = some e₁ →
        e.Condemns c (named xs) x.2 e₁ id → e₁.run c later = some e' →
        e'.pool.find? id = none ∧ ∃ more, e'.handedOut = e.handedOut ++ more ∧ id ∉ more) ∧
      ∀ id place, id ∉ named xs →
        e.stepAt c (place, .invalidateId id) = some { e with background := place } := by
  have hrest := atRest_run (atRest_fresh c.limit g) hrun hnames (by simp)
  rw [List.append_nil] at hrest
  refine ⟨?_, ?_, ?_⟩
  · intro x e₁ hstep
    have hleads := leadsTo_of_step (e := { e with background := x.1 }) hstep
    obtain ⟨more, heq, hmore⟩ := hleads.descends.handedOut
    refine ⟨more, heq, fun id hid => ?_⟩
    rcases hmore id hid with hfresh | ⟨t, ht, halive⟩
    · exact Or.inl hfresh
    · exact Or.inr ⟨t, ht, hleads.alive _ halive, halive⟩
  · intro x later e₁ e' id hnames' hstep hcondemns hlater
    rw [named_append, named_cons] at hnames'
    -- the server names no session again: not in the move and not later
    have hdisjoint := (List.nodup_append.mp hnames').2.2
    have hknown : id ∈ named xs := hcondemns.mem_known hrest fun _ => List.mem_reverse.mp
    have hunnamed : x.2.named? ≠ some id := fun hid =>
      hdisjoint id hknown id (List.mem_append_left _ (Option.mem_toList.mpr hid)) rfl
    have hlater' : id ∉ named later := fun hid =>
      hdisjoint id hknown id (List.mem_append_right _ hid) rfl
    have hplace : ({ e with background := x.1 } : Engine ε α).ledger.AtRest c.limit
        (named xs).reverse none := Ledger.Sound.withBackground hrest x.1
    have hrest₁ := atRest_stepAt hrest hstep fun id' hid' hin =>
      hdisjoint id' (List.mem_reverse.mp hin) id' (List.mem_append_left _ (Option.mem_toList.mpr hid')) rfl
    have hspared : Spared id e e₁ :=
      spared_of_condemns (e := { e with background := x.1 }) hplace hrest₁
        (hcondemns.withBackground x.1) hstep hunnamed
    exact hspared.trans (spared_of_run hspared.1 hlater' hlater)
  · intro id place hid
    have hnone : e.pool.find? id = none := Pool.find?_eq_none_iff.mpr fun hin =>
      hid (List.mem_reverse.mp (hrest.names_known hin))
    exact congrArg some (invalidate_of_none (e := { e with background := place }) hnone)

/-- The session of an attempt is blamed for its failure, so the next attempt is made on another one. -/
theorem condemned_never_used_of_executing :
    ∃ e e₁ e', (fresh ⟨1⟩).run (.ofConfig {} .standard none) executing = some e ∧
      e.stepAt (.ofConfig {} .standard none)
        (true, .operated 0 false (.error (.rpc (.status .badSession "gone")))) = some e₁ ∧
      e₁.run (.ofConfig {} .standard none) [(true, .created 0 (.ok ⟨⟨"b"⟩, 2⟩))] = some e' ∧
      e'.handedOut = [⟨"a"⟩, ⟨"b"⟩] ∧
      ∃ more, e'.handedOut = e.handedOut ++ more ∧ ⟨"a"⟩ ∉ more := by
  refine ⟨_, _, _, rfl, rfl, rfl, rfl, ?_⟩
  exact ((condemned_never_used_of_run (.ofConfig {} .standard none) ⟨1⟩ executing _ (by decide) rfl).2.1
    (true, .operated 0 false (.error (.rpc (.status .badSession "gone"))))
    [(true, .created 0 (.ok ⟨⟨"b"⟩, 2⟩))] _ _ ⟨"a"⟩ (by decide) rfl
    (.failed ⟨0, .unnamed 0, 1, .operating (.first false) ⟨⟨"a"⟩, 1, 1⟩ 0⟩ (.first false) ⟨⟨"a"⟩, 1, 1⟩ 0
      false _ rfl rfl rfl) rfl).2

end Engine

end PooledSessions
