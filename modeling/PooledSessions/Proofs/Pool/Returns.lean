import PooledSessions.Proofs.Pool.Exhaustion
/-!
# The order on the idle stack

A session comes onto the idle stack only when its lease is returned, by its caller or by an execution whose
operation has ended, and then it comes on top (`Engine.idle_of_step`).  All other things that happen take
sessions off the stack or leave it alone.  So the idle sessions stand in the order of their last returns,
the one returned last on top (`Engine.returned_of_run`).
-/

namespace PooledSessions

variable {ε α : Type}

namespace Engine

/-! ## What becomes of the stack -/

section Idle

variable (e : Engine ε α) (c : Setup)

theorem idle_invalidate (id : SessionId) : (e.invalidate c id).pool.idle.Sublist e.pool.idle := by
  rw [pool_invalidate]
  unfold Pool.remove
  split
  · exact List.filter_sublist
  · exact List.Sublist.refl _

theorem idle_giveBack (id : SessionId) : (e.giveBack c id).pool.idle.Sublist (id :: e.pool.idle) := by
  rw [pool_giveBack]
  unfold Pool.release
  have hkept : e.pool.idle.Sublist (id :: e.pool.idle) := List.sublist_cons_self id e.pool.idle
  repeat' split
  all_goals first | exact hkept | exact List.Sublist.refl _

/-- The search takes sessions off the stack from its top. -/
theorem idle_search : e.search.idle.Sublist e.pool.idle := by
  unfold search
  generalize e.pool.active = active
  generalize e.pool.idle = idle
  induction idle generalizing active with
  | nil => exact List.Sublist.refl _
  | cons top idle ih =>
    cases htop : active.lookup top with
    | none =>
      rw [Pool.popIdle_cons_of_none htop]
      exact (ih active).cons top
    | some t =>
      cases halive : e.isAlive t.flag with
      | true =>
        rw [Pool.popIdle_cons_of_alive htop halive]
        exact List.sublist_cons_self top idle
      | false =>
        rw [Pool.popIdle_cons_of_dead htop halive]
        exact (ih (Pool.without top active)).cons top

theorem pool_assess (role : Role) (f : Fault) (a : Attempt) : (e.assess c role f a).2.pool = e.pool :=
  congrArg Ledger.pool (ledger_assess e c role f a)

theorem pool_condemn (k : Monitor) (reason : String) : (e.condemn k reason).pool = e.pool := by
  unfold condemn
  dsimp only
  split <;> rfl

variable [PooledError ε]

theorem pool_reject (no : TaskNo) (client : Client) (p : PoolError) :
    (e.reject no client p).pool = e.pool := by
  cases client <;> rfl

omit [PooledError ε] in
theorem pool_lease (no : TaskNo) (client : Client) (h : Handle) : (e.lease no client h).pool = e.pool := by
  cases client <;> rfl

theorem idle_followCreation (no : TaskNo) (client : Client) (next : Loop.Next RpcError) :
    (e.followCreation c no client next).pool.idle = e.pool.idle := by
  unfold followCreation
  split
  · rfl
  · rfl
  · rw [pool_reject]
    rfl
  · rw [pool_reject]
    rfl

theorem idle_acquireFor (no : TaskNo) (token : Token) (client : Client) :
    (e.acquireFor c no token client).pool.idle.Sublist e.pool.idle := by
  cases hclosed : e.pool.closed with
  | true => rw [acquireFor_closed hclosed, pool_reject]
  | false =>
    rw [acquireFor_open hclosed]
    split
    · rw [pool_lease]
      exact e.idle_search
    · split
      · rw [idle_followCreation]
        exact e.idle_search
      · rw [pool_reject]
        exact e.idle_search

theorem idle_follow (no : TaskNo) (token : Token) (next : Loop.Next ε) :
    (e.follow c no token next).pool.idle.Sublist e.pool.idle := by
  unfold follow
  split
  · exact e.idle_acquireFor c no token _
  · exact List.Sublist.refl _
  · exact List.Sublist.refl _

theorem idle_register (no : TaskNo) (client : Client) (s : SessionInfo) :
    (e.register c no client s).pool.idle = e.pool.idle := by
  unfold register
  dsimp only
  split
  · rw [pool_reject]
    show (Engine.pool (Engine.deleteInBackground _ c s.id)).idle = e.pool.idle
    rw [pool_deleteInBackground]
  · rw [pool_lease]
    rfl

theorem idle_created (call : Call) (client : Client) (a : Attempt) (result : Except RpcError SessionInfo) :
    (e.created c call client a result).pool.idle = e.pool.idle := by
  cases result with
  | ok s => exact e.idle_register c call.no client s
  | error error =>
    unfold created
    dsimp only
    rw [idle_followCreation, pool_assess]

omit [PooledError ε] in
theorem idle_beginClose (no : TaskNo) : (e.beginClose c no).pool.idle = [] := by
  rw [beginClose_eq]
  rfl

omit [PooledError ε] in
theorem pool_settle (no : TaskNo) : (e.settle no).pool = e.pool := by
  unfold settle
  repeat' split
  all_goals rfl

theorem idle_partFrom_error (call : Call) (a : Attempt) (k : Handle) (error : ε) :
    (e.operated c call a k (.error error)).pool.idle.Sublist
      ((if (c.operations.classifier.classify (CallError.toFault error)).invalidatesSession then []
        else [k.id]) ++ e.pool.idle) := by
  rw [operated_error]
  refine (idle_follow _ c call.no call.token _).trans ?_
  have hpool := e.pool_assess c .operation (CallError.toFault error) a
  generalize (e.assess c .operation (CallError.toFault error) a).2 = assessed at hpool
  rw [show (c.operations.assess (CallError.toFault error) a e.generator).record.invalidatesSession =
    (c.operations.classifier.classify (CallError.toFault error)).invalidatesSession from rfl, ← hpool]
  unfold partFrom
  split
  · exact assessed.idle_invalidate c k.id
  · exact assessed.idle_giveBack c k.id

end Idle

/-! ## What comes onto the stack -/

/-- The session whose lease comes back in a move: a caller returns it, or an execution does whose operation
has ended, unless the failure says that the session be given up. -/
def returned? [PooledError ε] (e : Engine ε α) (c : Setup) : Move ε α → Option SessionId
  | .release flag => (e.held? flag).map (·.id)
  | .operated no _ result =>
    ((e.call? no).bind (·.point.lease?)).bind fun lease =>
      match result with
      | .ok _ => some lease.id
      | .error error =>
        if (c.operations.classifier.classify (CallError.toFault error)).invalidatesSession then none
        else some lease.id
  | _ => none

section Steps

variable {e e' : Engine ε α} {c : Setup} {known : List SessionId} [PooledError ε]

/-- In a move, only the session whose lease comes back is put onto the idle stack, on top of it. -/
theorem idle_of_step {m : Move ε α} (hstep : e.step c m = some e') :
    e'.pool.idle.Sublist ((e.returned? c m).toList ++ e.pool.idle) := by
  have hcancel : ∀ (e : Engine ε α) (t : Token), (e.cancel t).pool = e.pool := fun e t =>
    congrArg Ledger.pool (ledger_cancel e t)
  cases makes_of_step hstep with
  | call purpose token => exact List.Sublist.refl _
  | start call purpose hcall hpoint =>
    cases purpose with
    | lease => exact e.idle_acquireFor c call.no call.token .caller
    | operation idempotent => exact e.idle_follow c call.no call.token _
    | closing =>
      show (e.beginClose c call.no).pool.idle.Sublist _
      rw [idle_beginClose]
      exact List.nil_sublist _
  | abandon call hcall =>
    unfold abandon
    dsimp only
    split
    · exact List.Sublist.refl _
    · exact List.Sublist.refl _
    · exact idle_invalidate _ c _
    · exact List.Sublist.refl _
    · exact List.Sublist.refl _
  | created call client a since result hcall hpoint hgo =>
    rw [idle_created]
    exact List.Sublist.refl _
  | createExpired call client a since hcall hpoint hgo hdue =>
    rw [idle_created]
    exact List.Sublist.refl _
  | operated call a k since cancels result hcall hpoint hgo =>
    -- the lease of the operation comes back, unless its failure gives the session up
    have hlease : (e.call? call.no).bind (·.point.lease?) = some k := by
      rw [hcall, Option.bind_some, hpoint]
      rfl
    have hpool : (if cancels then e.cancel call.token else e).pool = e.pool := by
      split
      · exact hcancel e call.token
      · rfl
    rw [← hpool]
    cases result with
    | ok v =>
      rw [returned?, hlease]
      exact idle_giveBack _ c k.id
    | error error =>
      refine (idle_partFrom_error _ c call a k error).trans ?_
      rw [returned?, hlease, Option.bind_some]
      dsimp only
      split <;> exact List.Sublist.refl _
  | createWoken call client a wake hcall hpoint hgo hdue =>
    rw [idle_followCreation]
    exact List.Sublist.refl _
  | woken call a wake hcall hpoint hgo hdue => exact e.idle_follow c call.no call.token _
  | creationNoticed call client a since hcall hpoint hgo =>
    rw [idle_followCreation]
    exact List.Sublist.refl _
  | createPauseNoticed call client a wake hcall hpoint hgo =>
    rw [idle_followCreation]
    exact List.Sublist.refl _
  | operationNoticed call a k since hcall hpoint hgo => exact e.idle_invalidate c k.id
  | pauseNoticed call a wake hcall hpoint hgo => exact List.Sublist.refl _
  | proceed call hcall hcloses hown hothers hwoken =>
    rw [pool_settle]
    exact List.Sublist.refl _
  | attached k result hk hwatch =>
    cases result with
    | ok stream => exact List.Sublist.refl _
    | error error =>
      rw [attached, pool_condemn]
      exact List.Sublist.refl _
  | heard k message hk hwatch =>
    unfold heard
    split
    · exact List.Sublist.refl _
    · rw [pool_condemn]
      exact List.Sublist.refl _
    · rw [pool_condemn]
      exact List.Sublist.refl _
  | streamEnded k hk hwatch =>
    rw [pool_condemn]
    exact List.Sublist.refl _
  | deleted d result hd => cases result <;> exact List.Sublist.refl _
  | deletionExpired d hd hdue => exact List.Sublist.refl _
  | release k hk =>
    rw [returned?, hk]
    exact (e.part k.flag).idle_giveBack c k.id
  | invalidate k hk => exact (e.part k.flag).idle_invalidate c k.id
  | drop k hk => exact idle_invalidate _ c k.id
  | invalidateId id => exact e.idle_invalidate c id
  | cancel token =>
    rw [hcancel]
    exact List.Sublist.refl _
  | advance millis => exact List.Sublist.refl _

/-- A session whose lease comes back does not lie on the idle stack. -/
theorem notMem_idle_of_returned? (hrest : e.ledger.AtRest c.limit known none) {m : Move ε α}
    {id : SessionId} (hid : id ∈ e.returned? c m) : id ∉ e.pool.idle := by
  have hlent : ∀ k ∈ e.outstanding, k.id ∉ e.pool.idle := by
    intro k hk hin
    obtain ⟨t, ht, huse⟩ := (hrest.tables.mem_idle k.id).mp hin
    rw [hrest.lent.use_of_lease k hk t ht] at huse
    cases huse
  cases m with
  | release flag =>
    obtain ⟨k, hk, rfl⟩ := Option.map_eq_some_iff.mp hid
    exact hlent k (List.mem_append_left _ (mem_of_held? hk).1)
  | operated no cancels result =>
    obtain ⟨k, hk, hback⟩ := Option.bind_eq_some_iff.mp hid
    obtain ⟨call, hcall, hlease⟩ := Option.bind_eq_some_iff.mp hk
    have hcarried : k ∈ Call.leases e.calls :=
      List.mem_filterMap.mpr ⟨call, (mem_of_call? hcall).1, hlease⟩
    have hid : k.id = id := by
      split at hback
      · exact Option.some.inj hback
      · split at hback
        · cases hback
        · exact Option.some.inj hback
    exact hid ▸ hlent k (List.mem_append_right _ hcarried)
  | _ => cases hid

end Steps

/-! ## The order of the stack -/

/-- The sessions whose leases come back in a run, the one that comes back last first. -/
def returns [PooledError ε] (e : Engine ε α) (c : Setup) : List (Bool × Move ε α) → List SessionId
  | [] => []
  | x :: xs =>
    match e.stepAt c x with
    | some e' => e'.returns c xs ++ (e.returned? c x.2).toList
    | none => []

/-- The sessions of the stack stand in the order in which a list names them first. -/
structure Ordered (log stack : List SessionId) : Prop where
  /-- The list names each of them. -/
  subset : stack ⊆ log
  /-- What the list names first lies on top. -/
  pairwise : stack.Pairwise fun a b => log.idxOf a < log.idxOf b

namespace Ordered

variable {log stack stack' : List SessionId} {id : SessionId}

theorem nil (log : List SessionId) : Ordered log [] := ⟨List.nil_subset _, List.Pairwise.nil⟩

theorem sublist (h : Ordered log stack) (hsub : stack'.Sublist stack) : Ordered log stack' :=
  ⟨fun _ hid => h.subset (hsub.subset hid), h.pairwise.sublist hsub⟩

/-- A session that is named anew comes onto the stack, on top of it. -/
theorem push (h : Ordered log stack) (hnew : id ∉ stack) : Ordered (id :: log) (id :: stack) where
  subset := List.cons_subset_cons id h.subset
  pairwise := by
    have hlater : ∀ a ∈ stack, (id :: log).idxOf a = log.idxOf a + 1 := fun a ha =>
      List.idxOf_cons_ne _ fun he => hnew (he ▸ ha)
    refine List.Pairwise.cons (fun a ha => ?_) (h.pairwise.imp_of_mem fun {a b} ha hb hab => ?_)
    · rw [hlater a ha, List.idxOf_cons_self]
      exact Nat.succ_pos _
    · rw [hlater a ha, hlater b hb]
      exact Nat.succ_lt_succ hab

end Ordered

section Runs

variable {e e' : Engine ε α} {c : Setup} {known log : List SessionId} [PooledError ε]

/-- A move keeps the order of the stack, where the list takes down what comes back in it. -/
theorem ordered_of_step {m : Move ε α} (hrest : e.ledger.AtRest c.limit known none)
    (h : Ordered log e.pool.idle) (hstep : e.step c m = some e') :
    Ordered ((e.returned? c m).toList ++ log) e'.pool.idle := by
  refine Ordered.sublist ?_ (idle_of_step hstep)
  cases hback : e.returned? c m with
  | none => exact h
  | some id => exact h.push (notMem_idle_of_returned? hrest hback)

theorem ordered_of_run {xs : List (Bool × Move ε α)} (hrest : e.ledger.AtRest c.limit known none)
    (h : Ordered log e.pool.idle) (hrun : e.run c xs = some e') (hnd : (named xs).Nodup)
    (hnew : ∀ id ∈ named xs, id ∉ known) : Ordered (e.returns c xs ++ log) e'.pool.idle := by
  induction xs generalizing e known log with
  | nil =>
    cases hrun
    exact h
  | cons x xs ih =>
    obtain ⟨e₁, hstep, hrun₁⟩ := Option.bind_eq_some_iff.mp hrun
    obtain ⟨hfirst, hnd', hlater⟩ := new_of_named_cons hnd hnew
    have hplace : ({ e with background := x.1 } : Engine ε α).ledger.AtRest c.limit known none :=
      Ledger.Sound.withBackground hrest x.1
    have h₁ : Ordered ((e.returned? c x.2).toList ++ log) e₁.pool.idle :=
      ordered_of_step (e := { e with background := x.1 }) hplace h hstep
    have hlast := ih (atRest_stepAt hrest hstep hfirst) h₁ hrun₁ hnd' hlater
    rw [returns, hstep, List.append_assoc]
    exact hlast

end Runs

end Engine

end PooledSessions
