import PooledSessions.Proofs.Classifier.Codes
import PooledSessions.Proofs.Pool.Cancellation
/-!
# Operations that must not be repeated

An operation that must not be repeated is tried again only where the code that decides on a failure leaves
no doubt that the operation has had no effect: the server was down, it was overloaded, or the session was
refused (`FailureClass.leavesNoDoubt`).  In all other cases the failure ends the call, be it that of the
plain retry loop or an execution of the pool.

Codes that do not decide have no say.  A transport code that leaves no doubt hides a status code behind it
that leaves one.
-/

namespace PooledSessions

variable {ε α : Type}

/-- Whether failures of the class are tried again even if the operation must not be repeated. -/
def FailureClass.leavesNoDoubt : FailureClass → Bool
  | unavailable | overloaded | sessionConflict => true
  | undetermined | nonRetryable => false

theorem FailureClass.eq_of_doubt {k : FailureClass} (h : k.leavesNoDoubt = false) :
    k = nonRetryable ∨ k = undetermined := by
  cases k with
  | nonRetryable => exact Or.inl rfl
  | undetermined => exact Or.inr rfl
  | unavailable | overloaded | sessionConflict => cases h

/-- The class of the code that decides on a fault. -/
def Classifier.decidingClass (c : Classifier) (f : Fault) : FailureClass := .ofCode? (c.decidingCode f)

namespace Executor

variable [CallError ε] {x : Executor} {error : ε}

/-- A failure whose deciding code leaves a doubt is not tried again unless its operation may be repeated. -/
theorem classOf_of_doubt
    (hdoubt : (x.classifier.decidingClass (CallError.toFault error)).leavesNoDoubt = false) :
    x.classOf error = .nonRetryable ∨ x.classOf error = .undetermined := by
  rcases x.classifier.failureClass_classify (CallError.toFault error) with hcrash | hclass
  · refine Or.inl ?_
    rw [classOf, hcrash]
    rfl
  · rw [classOf, hclass]
    exact FailureClass.eq_of_doubt hdoubt

theorem stops_of_doubt {op : Nat → Reply ε α} {i : Nat} (hfails : (op i).result = .error error)
    (hdoubt : (x.classifier.decidingClass (CallError.toFault error)).leavesNoDoubt = false) :
    x.Stops false op (i + 1) :=
  Or.inr (Or.inr ⟨error, hfails, (classOf_of_doubt hdoubt).imp_right fun hclass => ⟨hclass, rfl⟩⟩)

theorem passesOn_of_doubt {a : Attempt} (honce : a.idempotent = false)
    (hdoubt : (x.classifier.decidingClass (CallError.toFault error)).leavesNoDoubt = false) :
    x.PassesOn a (.error error : Except ε α) := by
  intro error' herror
  cases herror
  exact Or.inr ((classOf_of_doubt hdoubt).imp_right fun hclass => ⟨hclass, honce⟩)

end Executor

namespace Engine

variable [PooledError ε] {c : Setup} {b e : Engine ε α} {call : Call}

/-- An execution whose operation must not be repeated ends with a failure whose deciding code leaves a
doubt, and asks for nothing in the move. -/
theorem ends_of_doubt (hb : b.Orderly) (hcall : call ∈ b.calls)
    (hpurpose : call.point.purpose = .operation false) {cancels : Bool} {error : ε}
    (hdoubt : (c.operations.classifier.decidingClass (CallError.toFault error)).leavesNoDoubt = false)
    (hstep : b.step c (.operated call.no cancels (.error error)) = some e) :
    e.HasEnded call.no ∧ e.signals.getLast? = some (.executed call.no (.error error)) ∧
      e.asked call.no = b.asked call.no := by
  have hfind := call?_of_mem hb.nodup hcall
  -- the move is possible only at the point at which the call waits for its operation
  obtain ⟨a, k, since, hpoint, hgo⟩ :
      ∃ a k since, call.point = .operating a k since ∧ b.isCancelled call.token = false := by
    generalize hno : call.no = no at hstep
    cases makes_of_step hstep with
    | operated call' a k since _ _ hcall' hpoint hgo =>
      rw [← hno, hfind] at hcall'
      obtain rfl := Option.some.inj hcall'
      exact ⟨a, k, since, hpoint, hgo⟩
  have honce : a.idempotent = false := by
    rw [hpoint] at hpurpose
    exact Purpose.operation.inj hpurpose
  obtain ⟨e', hstep', -, hended, hlast⟩ :=
    step_of_passesOn hfind hpoint hgo cancels (Executor.passesOn_of_doubt (α := α) honce hdoubt)
  rw [hstep, Option.some.injEq] at hstep'
  subst hstep'
  exact ⟨hended, hlast, asked_of_getLast? hb hstep hlast rfl⟩

/-- The class of a fault is that of its deciding code, unless an adapter crashes before that is found, and then
nothing is tried again.  An operation that must not be repeated is not called again after a failure whose
deciding code leaves a doubt, neither by the plain retry loop nor in any run of a pool. -/
theorem doubtful_not_repeated :
    (∀ (c : Classifier) (f : Fault), c.classify f = .unclassified ∨
      (c.classify f).failureClass = c.decidingClass f) ∧
    (∀ (x : Executor) (op : Nat → Reply ε α) (s : Surroundings) (g : Generator) (i : Nat) (error : ε),
      (op i).result = .error error →
      (x.classifier.decidingClass (CallError.toFault error)).leavesNoDoubt = false →
      (x.run false op s g).calls ≤ i + 1) ∧
    ∀ (c : Setup) (g : Generator) (xs : List (Bool × Move ε α)) (b : Engine ε α),
      (fresh g).run c xs = some b → ∀ call ∈ b.calls, call.point.purpose = .operation false →
      ∀ place cancels error e,
        (c.operations.classifier.decidingClass (CallError.toFault error)).leavesNoDoubt = false →
        b.stepAt c (place, .operated call.no cancels (.error error)) = some e →
        e.signals.getLast? = some (.executed call.no (.error error)) ∧ e.HasEnded call.no ∧
          ∀ ys e', e.run c ys = some e' → e'.asked call.no = b.asked call.no := by
  refine ⟨fun c f => c.failureClass_classify f, ?_, ?_⟩
  · intro x op s g i error hfails hdoubt
    exact Executor.calls_le_of_stops s g (Executor.stops_of_doubt hfails hdoubt)
  · intro c g xs b hrun call hcall hpurpose place cancels error e hdoubt hstep
    have hb := (orderly_of_run (orderly_fresh g) hrun).withBackground place
    obtain ⟨hended, hlast, hasked⟩ :=
      ends_of_doubt (b := { b with background := place }) hb hcall hpurpose hdoubt hstep
    refine ⟨hlast, hended, fun ys e' hlater => ?_⟩
    have hhushed : e.Hushed call.no :=
      ⟨(hb.no_lt call hcall).trans_le (le_of_step hstep).1, fun k hk hno => absurd hno (hended k hk)⟩
    exact (hushed_of_run (orderly_of_step hb hstep) hhushed hlater).2.trans hasked

end Engine

/-! ## Which code decides -/

/-- A caller may hand over any fault. -/
instance : PooledError Fault := { toFault := id, cancelled := .cancelled, ofPool := .pool }

/-- An operation that fails at first with a given fault and then works. -/
def failsFirst (f : Fault) (n : Nat) : Reply Fault Int := ⟨false, 0, if n = 0 then .error f else .ok 1⟩

/-- A connection that timed out while the server was unavailable leaves a doubt, and so does an answer of the
server that it does not know the outcome. -/
theorem doubtful_not_repeated_of_lost :
    ((⟨.ofConfig {}, .standard⟩ : Executor).run false
      (failsFirst (.io .timedOut (some (.rpc (.status .unavailable "down"))))) (.calm 0) ⟨1⟩).calls ≤ 1 ∧
    ∃ b e : Engine DriverError Int,
      (Engine.fresh ⟨1⟩).run (.ofConfig {} .standard none) Engine.executing = some b ∧
      b.stepAt (.ofConfig {} .standard none)
        (true, .operated 0 false (.error (.rpc (.status .undetermined "lost")))) = some e ∧
      e.HasEnded 0 := by
  constructor
  · exact (Engine.doubtful_not_repeated (ε := Fault) (α := Int)).2.1 ⟨.ofConfig {}, .standard⟩ _ _ _ 0 _ rfl
      (by decide +kernel)
  · obtain ⟨b, e, hrun, hstep, hcalls⟩ : ∃ b e : Engine DriverError Int,
        (Engine.fresh ⟨1⟩).run (.ofConfig {} .standard none) Engine.executing = some b ∧
        b.stepAt (.ofConfig {} .standard none)
          (true, .operated 0 false (.error (.rpc (.status .undetermined "lost")))) = some e ∧
        b.calls = [⟨0, .unnamed 0, 1, .operating (.first false) ⟨⟨"a"⟩, 1, 1⟩ 0⟩] := ⟨_, _, rfl, rfl, rfl⟩
    refine ⟨b, e, hrun, hstep, ?_⟩
    exact (Engine.doubtful_not_repeated.2.2 _ _ _ b hrun
      ⟨0, .unnamed 0, 1, .operating (.first false) ⟨⟨"a"⟩, 1, 1⟩ 0⟩
      (by rw [hcalls]; exact List.mem_singleton_self _) rfl true false _ e (by decide +kernel) hstep).2.1

/-- A connection that was refused, around the answer of the server that it does not know the outcome. -/
def hiddenDoubt : Fault := .io .connectionRefused (some (.rpc (.status .undetermined "lost")))

/-- An execution that fails with it waits for the delay, and is leased another session. -/
def repeating : List (Bool × Move Fault Int) :=
  [(true, .call (.operation false) (.unnamed 0)), (true, .start 0), (true, .created 0 (.ok ⟨⟨"a"⟩, 1⟩)),
    (true, .operated 0 false (.error hiddenDoubt)), (true, .advance 100000), (true, .woken 0),
    (true, .created 0 (.ok ⟨⟨"b"⟩, 1⟩))]

/-- A refused connection hides that the server does not know the outcome: that code is within the bounds of
the walk and leaves a doubt, but the operation is called again. -/
theorem repeated_of_hiddenDoubt :
    (∃ code ∈ Classifier.standard.codes hiddenDoubt, FailureClass.ofCode code = .undetermined) ∧
      ((failsFirst hiddenDoubt 0).result = .error hiddenDoubt ∧
        ((⟨.ofConfig {}, .standard⟩ : Executor).run false (failsFirst hiddenDoubt) (.calm 0) ⟨1⟩).calls = 2) ∧
      ∃ e : Engine Fault Int,
        (Engine.fresh ⟨1⟩).run (.ofConfig {} .standard none) repeating = some e ∧
        e.asked 0 = [.createBegun 0, .operationStarted 0 ⟨⟨"a"⟩, 1⟩, .createBegun 0,
          .operationStarted 0 ⟨⟨"b"⟩, 1⟩] := by
  refine ⟨⟨.status .undetermined, ?_, rfl⟩, ⟨rfl, ?_⟩, _, rfl, rfl⟩
  · decide +kernel
  · decide +kernel

end PooledSessions
