import PooledSessions.Proofs.Retry.Attempts
/-!
# Runs that are cancelled

A run of the retry loop is a sequence of rounds (`Executor.round`): an attempt is started, and the round
ends where the run ends or where the next attempt would be started.  No attempt is started once the call
has been cancelled (`Executor.startsFrom`).

When another task cancels the call at some moment, the run is compared with the one that nobody
disturbs.  Both go alike up to the last moment at which the cancellation is not seen
(`Surroundings.lastUnseen`): that is the moment itself, or the one before it if the cancellation comes
before the timers of the run.  The disturbed run either has ended by then, or it ends when it is
cancelled, wherever it waits (`Executor.runFrom_cancelledAt`).
-/

namespace PooledSessions

variable {ε α : Type}

/-! ## Waiting -/

namespace Surroundings

/-- The same surroundings, but that another task will cancel the call when the clock shows `t`, before the
timers of the run that are due then or after them. -/
def cancelledAt (s : Surroundings) (t : Nat) (first : Bool) : Surroundings :=
  { s with cancelAt := some t, cancelsFirst := first }

/-- The last moment at which the run does not see yet that another task cancels its call at `t`. -/
def lastUnseen (s : Surroundings) (t : Nat) (first : Bool) : Nat := max s.now (t - first.toNat)

/-- The same surroundings, but that no other task will cancel the call. -/
def undisturbed (s : Surroundings) : Surroundings := { s with cancelAt := none }

/-- The surroundings in which an attempt answers, or in which its call is cancelled before that. -/
def through (s : Surroundings) (r : Reply ε α) : Surroundings :=
  ({ s with cancelled := s.cancelled || r.cancels } : Surroundings).wait (s.now + boundedWait r.work)

variable {s : Surroundings} {t : Nat} {first : Bool}

@[simp] theorem cancelledAt_now : (s.cancelledAt t first).now = s.now := rfl

@[simp] theorem cancelledAt_cancelled : (s.cancelledAt t first).cancelled = s.cancelled := rfl

theorem observe_cancelledAt : (s.cancelledAt t first).observe = s.observe.cancelledAt t first := by
  unfold observe cancelledAt
  dsimp only
  split <;> rfl

theorem observe_now : s.observe.now = s.now := by
  unfold observe
  split <;> rfl

theorem observe_cancelAt : s.observe.cancelAt = s.cancelAt := by
  unfold observe
  split <;> rfl

theorem wait_cancelAt (s : Surroundings) (due : Nat) : (s.wait due).cancelAt = s.cancelAt := by
  unfold wait
  repeat' split
  all_goals rfl

theorem le_wait_now (s : Surroundings) (due : Nat) : s.now ≤ (s.wait due).now := by
  unfold wait
  split
  · exact Nat.le_refl _
  · rename_i hwaits
    have hdue : s.now ≤ due := by
      have : ¬ due ≤ s.now := fun hle => hwaits (by simp [hle])
      omega
    split
    · split
      · exact Nat.le_max_left _ _
      · exact hdue
    · exact hdue

/-- Whoever has been cancelled does not wait. -/
theorem wait_of_cancelled (h : s.cancelled = true) (due : Nat) : s.wait due = s := by
  unfold wait
  rw [h, Bool.true_or, if_pos rfl]

/-- Whoever is not disturbed waits until the time has come. -/
theorem wait_of_undisturbed (hgo : s.cancelled = false) (hnone : s.cancelAt = none) (due : Nat) :
    s.wait due = { s with now := max s.now due } := by
  obtain ⟨now, cancelled, cancelAt, cancelsFirst, onRecord⟩ := s
  obtain rfl : cancelled = false := hgo
  obtain rfl : cancelAt = none := hnone
  by_cases hdue : due ≤ now
  · simp [wait, hdue]
  · simp [wait, hdue, Nat.max_eq_right (Nat.le_of_not_le hdue)]

theorem now_le_lastUnseen : s.now ≤ s.lastUnseen t first := Nat.le_max_left _ _

theorem lastUnseen_le : s.lastUnseen t first ≤ max s.now t := by
  unfold lastUnseen
  omega

/-- Until the cancellation is seen, what is still to come of it is the same. -/
theorem lastUnseen_of_le {s' : Surroundings} (hle : s.now ≤ s'.now) (hunseen : s'.now ≤ s.lastUnseen t first) :
    s'.lastUnseen t first = s.lastUnseen t first ∧ max s'.now t = max s.now t := by
  unfold lastUnseen at hunseen ⊢
  omega

/-- A wait is cut off if it would end after the last moment at which the cancellation is not seen. -/
theorem wait_cancelledAt (hgo : s.cancelled = false) {due : Nat} (hlater : s.now < due) :
    (s.cancelledAt t first).wait due =
      if s.lastUnseen t first < due then
        { s.cancelledAt t first with now := max s.now t, cancelled := true }
      else { s.cancelledAt t first with now := due } := by
  have hwaits : ¬ (s.cancelled || decide (due ≤ s.now)) = true := by
    simp only [hgo, Bool.false_or, decide_eq_true_eq]
    omega
  have hseen : (decide (t < due) || (t == due && first)) = true ↔ s.lastUnseen t first < due := by
    unfold lastUnseen
    cases first with
    | false =>
      simp only [Bool.and_false, Bool.or_false, decide_eq_true_eq, Bool.toNat_false]
      omega
    | true =>
      simp only [Bool.and_true, Bool.or_eq_true, decide_eq_true_eq, beq_iff_eq, Bool.toNat_true]
      omega
  unfold wait
  rw [cancelledAt_cancelled, cancelledAt_now, if_neg hwaits]
  exact if_congr hseen rfl rfl

/-- A wait that is over before the cancellation by another task is seen is not disturbed. -/
theorem wait_cancelledAt_of_le (hgo : s.cancelled = false) (hnone : s.cancelAt = none) {due : Nat}
    (hle : due ≤ s.lastUnseen t first) :
    (s.cancelledAt t first).wait due = (s.wait due).cancelledAt t first := by
  rw [wait_of_undisturbed hgo hnone]
  rcases Nat.lt_or_ge s.now due with hlater | hover
  · rw [wait_cancelledAt hgo hlater, if_neg (Nat.not_lt.mpr hle), Nat.max_eq_right hlater.le]
    rfl
  · rw [Nat.max_eq_left hover]
    simp [wait, hover]

/-- A wait in which the cancellation by another task is seen ends when that cancels the call. -/
theorem wait_cancelledAt_of_lt (hgo : s.cancelled = false) {due : Nat} (hlt : s.lastUnseen t first < due) :
    ((s.cancelledAt t first).wait due).cancelled = true ∧
      ((s.cancelledAt t first).wait due).now = max s.now t := by
  rw [wait_cancelledAt hgo (now_le_lastUnseen.trans_lt hlt), if_pos hlt]
  exact ⟨rfl, rfl⟩

theorem le_through_now (s : Surroundings) (r : Reply ε α) : s.now ≤ (s.through r).now :=
  le_wait_now { s with cancelled := s.cancelled || r.cancels } _

theorem through_cancelAt (s : Surroundings) (r : Reply ε α) : (s.through r).cancelAt = s.cancelAt :=
  wait_cancelAt { s with cancelled := s.cancelled || r.cancels } _

/-- An attempt that is answered before the cancellation by another task is seen is not disturbed, and any
other one is cancelled when that cancels the call. -/
theorem through_cancelledAt (hgo : s.cancelled = false) (hnone : s.cancelAt = none) (r : Reply ε α)
    (t : Nat) (first : Bool) :
    ((s.through r).now ≤ s.lastUnseen t first ∧
        (s.cancelledAt t first).through r = (s.through r).cancelledAt t first) ∨
      (s.lastUnseen t first < (s.through r).now ∧ r.work ≠ 0 ∧
        ((s.cancelledAt t first).through r).cancelled = true ∧
        ((s.cancelledAt t first).through r).now = max s.now t) := by
  cases hcancels : r.cancels with
  | true =>
    -- an operation that cancels its own call takes no time
    have hgone : ∀ s : Surroundings, s.through r = { s with cancelled := true } := by
      intro s
      unfold through
      rw [hcancels, Bool.or_true]
      exact wait_of_cancelled rfl _
    refine Or.inl ?_
    rw [hgone, hgone]
    exact ⟨now_le_lastUnseen, rfl⟩
  | false =>
    -- any other one is a wait for its end
    have hsame : ∀ s : Surroundings, s.through r = s.wait (s.now + boundedWait r.work) := by
      intro s
      unfold through
      rw [hcancels, Bool.or_false]
    have hnow : (s.through r).now = s.now + boundedWait r.work := by
      rw [hsame, wait_of_undisturbed hgo hnone]
      exact Nat.max_eq_right (Nat.le_add_right _ _)
    rw [hnow, hsame, hsame]
    rcases Nat.lt_or_ge (s.lastUnseen t first) (s.now + boundedWait r.work) with hlt | hle
    · have hwork : r.work ≠ 0 := by
        intro hzero
        rw [hzero] at hlt
        exact absurd hlt (Nat.not_lt.mpr now_le_lastUnseen)
      exact Or.inr ⟨hlt, hwork, wait_cancelledAt_of_lt hgo hlt⟩
    · exact Or.inl ⟨hle, wait_cancelledAt_of_le hgo hnone hle⟩

end Surroundings

/-! ## Rounds -/

/-- What a round of the retry loop comes to. -/
inductive Round (ε α : Type)
  /-- The run ends with a result, after an attempt whose failure was assessed, if it was. -/
  | ended (result : Except ε α) (s : Surroundings) (assessed : Option Assessment)
  /-- An attempt has failed, and the next one would be started in the surroundings. -/
  | again (a : Attempt) (s : Surroundings) (assessed : Assessment)

namespace Round

/-- The surroundings at the end of a round. -/
def surroundings : Round ε α → Surroundings
  | ended _ s _ => s
  | again _ s _ => s

/-- The same round, but that another task will cancel the call when the clock shows `t`. -/
def cancelledAt (t : Nat) (first : Bool) : Round ε α → Round ε α
  | ended result s assessed => ended result (s.cancelledAt t first) assessed
  | again a s assessed => again a (s.cancelledAt t first) assessed

end Round

/-- A run with the failure of an attempt before it. -/
def Run.after (run : Run ε α) (assessed : Assessment) : Run ε α :=
  { run with
    records := assessed.record :: run.records
    events := assessed.events ++ run.events }

namespace Executor

/-- An attempt that works for no time is answered even if it cancels its call. -/
theorem attemptOnce_eq (r : Reply ε α) (s : Surroundings) :
    attemptOnce r s =
      (if r.work ≠ 0 ∧ (s.through r).cancelled = true then none else some r.result, s.through r) := by
  unfold attemptOnce
  by_cases hwork : r.work = 0
  · have hnow : s.through r = { s with cancelled := s.cancelled || r.cancels } := by
      simp [Surroundings.through, hwork, boundedWait, Surroundings.wait]
    simp [hwork, hnow]
  · rw [if_neg hwork]
    show (if (s.through r).cancelled = true then (none, s.through r)
      else (some r.result, s.through r)) = _
    by_cases hgone : (s.through r).cancelled = true
    · rw [if_pos hgone, if_pos ⟨hwork, hgone⟩]
    · rw [if_neg hgone, if_neg fun h => hgone h.2]

variable [CallError ε]

/-- What an attempt leads to that has failed with `e`. -/
def afterError (x : Executor) (e : ε) (a : Attempt) (s : Surroundings) (g : Generator) : Round ε α :=
  let assessed := x.assess (CallError.toFault e) a g
  match Loop.afterFailure a e assessed.record.delay s.observe.cancelled s.observe.now with
  | .fail e => .ended (.error e) s.observe (some assessed)
  | .attempt a => .again a s.observe assessed
  | .pause a wake => .again a.next (s.observe.wait wake) assessed

/-- A round of the retry loop: an attempt that is made, and the delay after it. -/
def round (x : Executor) (r : Reply ε α) (a : Attempt) (s : Surroundings) (g : Generator) : Round ε α :=
  match attemptOnce r s with
  | (none, s) => .ended (.error CallError.cancelled) s none
  | (some (.ok v), s) => .ended (.ok v) s none
  | (some (.error e), s) => x.afterError e a s g

variable {x : Executor} {op : Nat → Reply ε α} {fuel n : Nat} {a : Attempt} {s : Surroundings}
  {g : Generator}

theorem round_of_none {r : Reply ε α} (hgone : r.work ≠ 0 ∧ (s.through r).cancelled = true) :
    x.round r a s g = .ended (.error CallError.cancelled) (s.through r) none := by
  rw [round, attemptOnce_eq, if_pos hgone]

/-- A round in which the attempt is answered. -/
theorem round_of_some {r : Reply ε α} (hgo : ¬ (r.work ≠ 0 ∧ (s.through r).cancelled = true)) :
    x.round r a s g =
      match r.result with
      | .ok v => .ended (.ok v) (s.through r) none
      | .error e => x.afterError e a (s.through r) g := by
  rw [round, attemptOnce_eq, if_neg hgo]
  cases r.result <;> rfl

/-- A run that has been cancelled ends where it stands. -/
theorem runFrom_of_cancelled (h : s.cancelled = true) :
    x.runFrom op fuel a n s g = ⟨.error CallError.cancelled, n, [], s.now, [], g⟩ := by
  cases fuel with
  | zero => rfl
  | succ fuel => rw [runFrom, if_pos h]

/-- A run is a round and the rest of the run. -/
theorem runFrom_succ (hgo : s.cancelled = false) :
    x.runFrom op (fuel + 1) a n s g =
      match x.round (op n) a s g with
      | .ended result s assessed =>
        ⟨result, n + 1, (assessed.map (·.record)).toList, s.now, (assessed.map (·.events)).getD [],
          (assessed.map (·.generator)).getD g⟩
      | .again a s assessed => (x.runFrom op fuel a (n + 1) s assessed.generator).after assessed := by
  rw [runFrom, if_neg (by simp [hgo]), round]
  rcases attemptOnce (op n) s with ⟨_ | ⟨e | v⟩, s'⟩
  · rfl
  · dsimp only [afterError]
    cases Loop.afterFailure a e (x.assess (CallError.toFault e) a g).record.delay s'.observe.cancelled
      s'.observe.now <;> rfl
  · rfl

/-! ### The clock of a round -/

theorem afterError_frame (x : Executor) (e : ε) (a : Attempt) (s : Surroundings) (g : Generator) :
    s.now ≤ (x.afterError e a s g : Round ε α).surroundings.now ∧
      (x.afterError e a s g : Round ε α).surroundings.cancelAt = s.cancelAt := by
  have hobserved : s.now ≤ s.observe.now ∧ s.observe.cancelAt = s.cancelAt := by
    rw [Surroundings.observe_now, Surroundings.observe_cancelAt]
    exact ⟨Nat.le_refl _, rfl⟩
  unfold afterError
  dsimp only
  split
  · exact hobserved
  · exact hobserved
  · exact ⟨hobserved.1.trans (Surroundings.le_wait_now _ _),
      (Surroundings.wait_cancelAt _ _).trans hobserved.2⟩

/-- The clock does not go back in a round, and other tasks do what they would have done. -/
theorem round_frame (x : Executor) (r : Reply ε α) (a : Attempt) (s : Surroundings) (g : Generator) :
    s.now ≤ (x.round r a s g).surroundings.now ∧
      (x.round r a s g).surroundings.cancelAt = s.cancelAt := by
  have hframe : s.now ≤ (s.through r).now ∧ (s.through r).cancelAt = s.cancelAt :=
    ⟨s.le_through_now r, s.through_cancelAt r⟩
  by_cases hgone : r.work ≠ 0 ∧ (s.through r).cancelled = true
  · rw [round_of_none hgone]
    exact hframe
  · rw [round_of_some hgone]
    cases r.result with
    | ok v => exact hframe
    | error e =>
      have hafter := afterError_frame (α := α) x e a (s.through r) g
      exact ⟨hframe.1.trans hafter.1, hafter.2.trans hframe.2⟩

theorem le_elapsed (x : Executor) (op : Nat → Reply ε α) (fuel : Nat) (a : Attempt) (n : Nat)
    (s : Surroundings) (g : Generator) : s.now ≤ (x.runFrom op fuel a n s g).elapsed := by
  induction fuel generalizing a n s g with
  | zero => exact Nat.le_refl _
  | succ fuel ih =>
    cases hgone : s.cancelled with
    | true => rw [runFrom_of_cancelled hgone]
    | false =>
      rw [runFrom_succ hgone]
      refine (round_frame x (op n) a s g).1.trans ?_
      cases x.round (op n) a s g with
      | ended result s' assessed => exact Nat.le_refl _
      | again a' s' assessed => exact ih a' (n + 1) s' assessed.generator

/-! ### A round that another task disturbs -/

/-- Whoever waits for a delay has not been cancelled. -/
theorem not_cancelled_of_pause {e : ε} {delay : Option Span} {cancelled : Bool} {now wake : Nat}
    {a' : Attempt} (h : Loop.afterFailure a e delay cancelled now = .pause a' wake) :
    cancelled = false := by
  cases delay with
  | none => cases h
  | some d =>
    cases cancelled with
    | false => rfl
    | true => cases h

/-- The round `cut` comes to the moment `m` at which its call is cancelled, and `free` does not: the run ends
as cancelled, or the next attempt would be started when the call has been cancelled. -/
inductive CutAt (m : Nat) (free : Round ε α) : Round ε α → Prop
  /-- The call is cancelled while the attempt works. -/
  | working (s' : Surroundings) (hnow : s'.now = m) :
      CutAt m free (.ended (.error CallError.cancelled) s' none)
  /-- The call is cancelled in the delay after the attempt. -/
  | waiting (a : Attempt) (s₀ s' : Surroundings) (assessed : Assessment) (hfree : free = .again a s₀ assessed)
      (hgone : s'.cancelled = true) (hnow : s'.now = m) : CutAt m free (.again a s' assessed)

/-- A delay that is over before the cancellation by another task is seen is not disturbed, and any other one
ends when that cancels the call. -/
theorem afterError_cancelledAt (hnone : s.cancelAt = none) (x : Executor) (e : ε) (a : Attempt)
    (g : Generator) (t : Nat) (first : Bool) :
    ((x.afterError e a s g : Round ε α).surroundings.now ≤ s.lastUnseen t first ∧
      (x.afterError e a (s.cancelledAt t first) g : Round ε α) =
        (x.afterError e a s g).cancelledAt t first) ∨
    (s.lastUnseen t first < (x.afterError e a s g : Round ε α).surroundings.now ∧
      CutAt (max s.now t) (x.afterError e a s g : Round ε α)
        (x.afterError e a (s.cancelledAt t first) g)) := by
  have hnow : s.observe.now = s.now := Surroundings.observe_now
  have hunseen : s.observe.lastUnseen t first = s.lastUnseen t first := by
    rw [Surroundings.lastUnseen, hnow, Surroundings.lastUnseen]
  have hearly : s.observe.now ≤ s.lastUnseen t first := hnow ▸ Surroundings.now_le_lastUnseen
  unfold afterError
  dsimp only
  rw [Surroundings.observe_cancelledAt, Surroundings.cancelledAt_cancelled, Surroundings.cancelledAt_now]
  cases hnext : Loop.afterFailure a e (x.assess (CallError.toFault e) a g).record.delay
    s.observe.cancelled s.observe.now with
  | fail e => exact Or.inl ⟨hearly, rfl⟩
  | attempt a => exact Or.inl ⟨hearly, rfl⟩
  | pause a wake =>
    -- only a pause takes time, and only whoever is not cancelled pauses
    have hgo := not_cancelled_of_pause hnext
    have hundisturbed : s.observe.cancelAt = none := Surroundings.observe_cancelAt.trans hnone
    have hwait := Surroundings.wait_of_undisturbed hgo hundisturbed wake
    rw [← hunseen] at hearly ⊢
    rcases Nat.lt_or_ge (s.observe.lastUnseen t first) wake with hlt | hle
    · obtain ⟨hgone, hends⟩ := Surroundings.wait_cancelledAt_of_lt hgo hlt
      refine Or.inr ⟨?_, .waiting _ _ _ _ rfl hgone (by rw [hends, hnow])⟩
      show s.observe.lastUnseen t first < (s.observe.wait wake).now
      rw [hwait]
      exact hlt.trans_le (Nat.le_max_right _ _)
    · refine Or.inl ⟨?_, ?_⟩
      · show (s.observe.wait wake).now ≤ s.observe.lastUnseen t first
        rw [hwait]
        exact Nat.max_le.mpr ⟨hearly, hle⟩
      · exact congrArg (Round.again a.next · _) (Surroundings.wait_cancelledAt_of_le hgo hundisturbed hle)

/-- A round that is over before the cancellation by another task is seen is not disturbed, and any other one
is cut off when that cancels the call. -/
theorem round_cancelledAt (hgo : s.cancelled = false) (hnone : s.cancelAt = none) (x : Executor)
    (r : Reply ε α) (a : Attempt) (g : Generator) (t : Nat) (first : Bool) :
    ((x.round r a s g).surroundings.now ≤ s.lastUnseen t first ∧
      x.round r a (s.cancelledAt t first) g = (x.round r a s g).cancelledAt t first) ∨
    (s.lastUnseen t first < (x.round r a s g).surroundings.now ∧
      CutAt (max s.now t) (x.round r a s g) (x.round r a (s.cancelledAt t first) g)) := by
  rcases s.through_cancelledAt hgo hnone r t first with ⟨hle, hsame⟩ | ⟨hlt, hwork, hgone, hnow⟩
  · by_cases hgone : r.work ≠ 0 ∧ (s.through r).cancelled = true
    · refine Or.inl ?_
      rw [round_of_none hgone, round_of_none (by rwa [hsame]), hsame]
      exact ⟨hle, rfl⟩
    · rw [round_of_some hgone, round_of_some (by rwa [hsame]), hsame]
      cases r.result with
      | ok v => exact Or.inl ⟨hle, rfl⟩
      | error e =>
        -- the attempt is over by then, but the delay after it may not be
        obtain ⟨hunseen, hmax⟩ := Surroundings.lastUnseen_of_le (s.le_through_now r) hle
        have hafter := afterError_cancelledAt (α := α) ((s.through_cancelAt r).trans hnone) x e a g t first
        rwa [hunseen, hmax] at hafter
  · rw [round_of_none (s := s.cancelledAt t first) ⟨hwork, hgone⟩]
    refine Or.inr ⟨hlt.trans_le ?_, .working _ hnow⟩
    by_cases hgone : r.work ≠ 0 ∧ (s.through r).cancelled = true
    · rw [round_of_none hgone]
      exact Nat.le_refl _
    · rw [round_of_some hgone]
      cases r.result with
      | ok v => exact Nat.le_refl _
      | error e => exact (afterError_frame x e a (s.through r) g).1

/-! ## Runs that another task disturbs -/

/-- The run `cut` goes like the run `free` if that has ended by the moment `l`.  If not, it ends at the moment
`m` as cancelled. -/
structure CutShort (l m : Nat) (free cut : Run ε α) : Prop where
  /-- Whatever has ended by then is not different. -/
  before : free.elapsed ≤ l → cut = free
  /-- The run is cancelled at the moment. -/
  cancelled : l < free.elapsed → cut.result = .error CallError.cancelled ∧ cut.elapsed = m ∧
    cut.records <+: free.records

/-- A run that nobody disturbs before it ends is not different. -/
theorem CutShort.rfl {l m : Nat} {run : Run ε α} (hle : run.elapsed ≤ l) : CutShort l m run run :=
  ⟨fun _ => Eq.refl run, fun hlt => absurd hle (Nat.not_le.mpr hlt)⟩

/-- A run that ends at the moment as cancelled is cut short, if the other one goes on. -/
theorem CutShort.of_lt {l m : Nat} {free cut : Run ε α} (hlater : l < free.elapsed)
    (hresult : cut.result = .error CallError.cancelled) (hnow : cut.elapsed = m)
    (hrecords : cut.records <+: free.records) : CutShort l m free cut :=
  ⟨fun hle => absurd hlater (Nat.not_lt.mpr hle), fun _ => ⟨hresult, hnow, hrecords⟩⟩

theorem CutShort.after {l m : Nat} {free cut : Run ε α} (h : CutShort l m free cut) (assessed : Assessment) :
    CutShort l m (free.after assessed) (cut.after assessed) where
  before hle := congrArg (Run.after · assessed) (h.before hle)
  cancelled hlt :=
    have hcancelled := h.cancelled hlt
    ⟨hcancelled.1, hcancelled.2.1, (List.prefix_cons_inj _).mpr hcancelled.2.2⟩

/-- The surroundings in which a run starts its attempts, from a given attempt on. -/
def startsFrom (x : Executor) (op : Nat → Reply ε α) :
    Nat → Attempt → Nat → Surroundings → Generator → List Surroundings
  | 0, _, _, _, _ => []
  | fuel + 1, a, n, s, g =>
    if s.cancelled then []
    else
      s :: match x.round (op n) a s g with
        | .ended _ _ _ => []
        | .again a s assessed => startsFrom x op fuel a (n + 1) s assessed.generator

theorem startsFrom_of_cancelled (h : s.cancelled = true) : x.startsFrom op fuel a n s g = [] := by
  cases fuel with
  | zero => rfl
  | succ fuel => rw [startsFrom, if_pos h]

theorem startsFrom_succ (hgo : s.cancelled = false) :
    x.startsFrom op (fuel + 1) a n s g =
      s :: match x.round (op n) a s g with
        | .ended _ _ _ => []
        | .again a s assessed => x.startsFrom op fuel a (n + 1) s assessed.generator := by
  rw [startsFrom, if_neg (by simp [hgo])]

/-- Each attempt that a run counts has been started, and none after the call had been cancelled. -/
theorem starts_of_runFrom (x : Executor) (op : Nat → Reply ε α) (fuel : Nat) (a : Attempt) (n : Nat)
    (s : Surroundings) (g : Generator) :
    (x.runFrom op fuel a n s g).calls = n + (x.startsFrom op fuel a n s g).length ∧
      ∀ s' ∈ x.startsFrom op fuel a n s g, s'.cancelled = false ∧ s.now ≤ s'.now := by
  induction fuel generalizing a n s g with
  | zero => exact ⟨rfl, by simp [startsFrom]⟩
  | succ fuel ih =>
    cases hgone : s.cancelled with
    | true =>
      rw [runFrom_of_cancelled hgone, startsFrom_of_cancelled hgone]
      exact ⟨rfl, by simp⟩
    | false =>
      have hle := (round_frame x (op n) a s g).1
      rw [runFrom_succ hgone, startsFrom_succ hgone]
      cases hround : x.round (op n) a s g with
      | ended result s' assessed => simp [hgone]
      | again a' s' assessed =>
        rw [hround] at hle
        obtain ⟨hcalls, hstarts⟩ := ih a' (n + 1) s' assessed.generator
        refine ⟨?_, fun s'' hs'' => ?_⟩
        · rw [List.length_cons, ← Nat.add_assoc, Nat.add_right_comm]
          exact hcalls
        · rcases List.mem_cons.mp hs'' with rfl | hin
          · exact ⟨hgone, Nat.le_refl _⟩
          · exact (hstarts s'' hin).imp_right hle.trans

/-- What the clock shows when the attempts are started that are made up to a moment, if the first one is
made by then and the others are not. -/
theorem filter_starts_of_lt {l : Nat} (hfirst : s.now ≤ l) {a' : Attempt} {s' : Surroundings}
    (hlater : l < s'.now) :
    (((s :: x.startsFrom op fuel a' n s' g).map (·.now)).filter (· ≤ l)) = [s.now] := by
  have hnone : ((x.startsFrom op fuel a' n s' g).map (·.now)).filter (· ≤ l) = [] := by
    refine List.filter_eq_nil_iff.mpr fun now hnow => ?_
    obtain ⟨s'', hs'', rfl⟩ := List.mem_map.mp hnow
    have hle := ((starts_of_runFrom x op fuel a' n s' g).2 s'' hs'').2
    simp only [decide_eq_true_eq, Nat.not_le]
    omega
  rw [List.map_cons, List.filter_cons_of_pos (by simpa using hfirst), hnone]

/-- A run is cut short when its first round is cut off.  It has started one attempt. -/
theorem runFrom_of_cutAt (hgo : s.cancelled = false) {l m t : Nat} {first : Bool} (hfirst : s.now ≤ l)
    (hlt : l < (x.round (op n) a s g).surroundings.now)
    (hcut : CutAt m (x.round (op n) a s g) (x.round (op n) a (s.cancelledAt t first) g)) :
    CutShort l m (x.runFrom op (fuel + 1) a n s g)
        (x.runFrom op (fuel + 1) a n (s.cancelledAt t first) g) ∧
      (x.startsFrom op (fuel + 1) a n (s.cancelledAt t first) g).map (·.now) =
        ((x.startsFrom op (fuel + 1) a n s g).map (·.now)).filter (· ≤ l) := by
  rw [runFrom_succ hgo, runFrom_succ (s := s.cancelledAt t first) hgo, startsFrom_succ hgo,
    startsFrom_succ (s := s.cancelledAt t first) hgo]
  generalize x.round (op n) a (s.cancelledAt t first) g = cut at hcut
  cases hcut with
  | working s' hnow =>
    cases hround : x.round (op n) a s g with
    | ended result s₀ assessed =>
      rw [hround] at hlt
      exact ⟨.of_lt hlt rfl hnow List.nil_prefix, by simp [hfirst]⟩
    | again a' s₀ assessed =>
      rw [hround] at hlt
      have hlater := hlt.trans_le (le_elapsed x op fuel a' (n + 1) s₀ assessed.generator)
      exact ⟨.of_lt hlater rfl hnow List.nil_prefix, (filter_starts_of_lt hfirst hlt).symm⟩
  | waiting a' s₀ s' assessed hfree hgone hnow =>
    rw [hfree] at hlt ⊢
    have hlater := hlt.trans_le (le_elapsed x op fuel a' (n + 1) s₀ assessed.generator)
    dsimp only
    rw [runFrom_of_cancelled hgone, startsFrom_of_cancelled hgone]
    exact ⟨CutShort.after (.of_lt hlater rfl hnow List.nil_prefix) assessed,
      (filter_starts_of_lt hfirst hlt).symm⟩

/-- A run that another task cancels at some moment is cut short then, if it has not ended before it sees
that.  It starts the attempts that are started before, and no others. -/
theorem runFrom_cancelledAt (hnone : s.cancelAt = none) (x : Executor) (op : Nat → Reply ε α) (fuel : Nat)
    (a : Attempt) (n : Nat) (g : Generator) (t : Nat) (first : Bool) :
    CutShort (s.lastUnseen t first) (max s.now t) (x.runFrom op fuel a n s g)
        (x.runFrom op fuel a n (s.cancelledAt t first) g) ∧
      (x.startsFrom op fuel a n (s.cancelledAt t first) g).map (·.now) =
        ((x.startsFrom op fuel a n s g).map (·.now)).filter (· ≤ s.lastUnseen t first) := by
  induction fuel generalizing a n s g with
  | zero => exact ⟨.rfl Surroundings.now_le_lastUnseen, rfl⟩
  | succ fuel ih =>
    cases hgone : s.cancelled with
    | true =>
      rw [runFrom_of_cancelled hgone, runFrom_of_cancelled (s := s.cancelledAt t first) hgone,
        startsFrom_of_cancelled hgone, startsFrom_of_cancelled (s := s.cancelledAt t first) hgone]
      exact ⟨.rfl Surroundings.now_le_lastUnseen, rfl⟩
    | false =>
      rcases round_cancelledAt hgone hnone x (op n) a g t first with ⟨hle, hsame⟩ | ⟨hlt, hcut⟩
      · have hframe := round_frame x (op n) a s g
        rw [runFrom_succ hgone, runFrom_succ (s := s.cancelledAt t first) hgone, startsFrom_succ hgone,
          startsFrom_succ (s := s.cancelledAt t first) hgone, hsame]
        cases hround : x.round (op n) a s g with
        | ended result s' assessed =>
          rw [hround] at hle
          exact ⟨.rfl hle, by simp [Round.cancelledAt, Surroundings.now_le_lastUnseen]⟩
        | again a' s' assessed =>
          rw [hround] at hle hframe
          -- the cancellation has not been seen yet, so the rest of the run sees it at the same moment
          obtain ⟨hunseen, hmax⟩ := Surroundings.lastUnseen_of_le hframe.1 hle
          have hnone' : s'.cancelAt = none := hframe.2.trans hnone
          obtain ⟨hshort, hstarts⟩ := ih hnone' a' (n + 1) assessed.generator
          dsimp only [Round.surroundings] at hunseen hmax
          rw [hunseen, hmax] at hshort
          rw [hunseen] at hstarts
          refine ⟨hshort.after assessed, ?_⟩
          rw [List.map_cons, List.map_cons,
            List.filter_cons_of_pos (by simpa using Surroundings.now_le_lastUnseen)]
          exact congrArg (s.now :: ·) hstarts
      · exact runFrom_of_cutAt hgone Surroundings.now_le_lastUnseen hlt hcut

/-! ## Answers that come in time -/

/-- Whoever goes on after a failed attempt was given a delay, and makes the next attempt. -/
theorem next_of_again {e : ε} {a' : Attempt} {s' : Surroundings} {assessed : Assessment}
    (h : (x.afterError e a s g : Round ε α) = .again a' s' assessed) :
    a' = a.next ∧ (x.assess (CallError.toFault e) a g).record.delay.isSome = true := by
  unfold afterError at h
  dsimp only at h
  cases hdelay : (x.assess (CallError.toFault e) a g).record.delay with
  | none =>
    rw [hdelay] at h
    cases h
  | some d =>
    rw [hdelay] at h
    refine ⟨?_, rfl⟩
    cases hgone : s.observe.cancelled with
    | true =>
      rw [hgone] at h
      cases h
    | false =>
      by_cases hzero : d.isZero = true
      · simp only [Loop.afterFailure, hgone, Bool.false_eq_true, if_false, hzero, if_true,
          Round.again.injEq] at h
        exact h.1.symm
      · simp only [Loop.afterFailure, hgone, Bool.false_eq_true, if_false, hzero,
          Round.again.injEq] at h
        exact h.1.symm

/-- A run goes on after an attempt only if it does not stop there. -/
theorem not_stops_of_again {idempotent : Bool} {a' : Attempt} {s' : Surroundings} {assessed : Assessment}
    (h : x.round (op n) ⟨n + 1, idempotent⟩ s g = .again a' s' assessed) :
    ¬ x.Stops idempotent op (n + 1) ∧ a' = ⟨n + 1 + 1, idempotent⟩ := by
  by_cases hgone : (op n).work ≠ 0 ∧ (s.through (op n)).cancelled = true
  · rw [round_of_none hgone] at h
    cases h
  · rw [round_of_some hgone] at h
    cases hresult : (op n).result with
    | ok v =>
      rw [hresult] at h
      cases h
    | error e =>
      rw [hresult] at h
      obtain ⟨rfl, hdelay⟩ := next_of_again h
      have hgo := (delay_isSome_iff_of_error hresult g).mp hdelay
      exact ⟨hgo, next_of_not_stops hgo⟩

theorem round_of_startsFrom {k : Nat} {s₀ : Surroundings}
    (hstart : (x.startsFrom op fuel a n s g)[k]? = some s₀) :
    s.cancelled = false ∧ ∃ fuel', fuel = fuel' + 1 := by
  constructor
  · by_contra hgone
    rw [startsFrom_of_cancelled (by simpa using hgone)] at hstart
    cases hstart
  · cases fuel with
    | zero => cases hstart
    | succ fuel => exact ⟨fuel, rfl⟩

/-- From each of the attempts that it starts, a run goes on like a run that begins there. -/
theorem exists_runFrom_of_start {idempotent : Bool} {k : Nat} {s₀ : Surroundings}
    (hstart : (x.startsFrom op fuel ⟨n + 1, idempotent⟩ n s g)[k]? = some s₀) :
    s₀.cancelled = false ∧ ∃ fuel' g',
      (x.runFrom op fuel ⟨n + 1, idempotent⟩ n s g).result =
        (x.runFrom op (fuel' + 1) ⟨n + k + 1, idempotent⟩ (n + k) s₀ g').result ∧
      (x.runFrom op fuel ⟨n + 1, idempotent⟩ n s g).elapsed =
        (x.runFrom op (fuel' + 1) ⟨n + k + 1, idempotent⟩ (n + k) s₀ g').elapsed ∧
      (x.startsFrom op fuel ⟨n + 1, idempotent⟩ n s g).drop k =
        x.startsFrom op (fuel' + 1) ⟨n + k + 1, idempotent⟩ (n + k) s₀ g' := by
  induction k generalizing fuel n s g with
  | zero =>
    obtain ⟨hgo, fuel, rfl⟩ := round_of_startsFrom hstart
    have hfirst : s = s₀ := by
      rw [startsFrom_succ hgo] at hstart
      exact Option.some.inj hstart
    subst hfirst
    exact ⟨hgo, fuel, g, rfl, rfl, rfl⟩
  | succ k ih =>
    obtain ⟨hgo, fuel, rfl⟩ := round_of_startsFrom hstart
    rw [startsFrom_succ hgo] at hstart ⊢
    rw [runFrom_succ hgo]
    cases hround : x.round (op n) ⟨n + 1, idempotent⟩ s g with
    | ended result s' assessed =>
      rw [hround] at hstart
      cases hstart
    | again a' s' assessed =>
      rw [hround] at hstart
      obtain ⟨-, rfl⟩ := not_stops_of_again hround
      -- one round shifts the numbers of the attempts by one
      have hshift : n + (k + 1) = n + 1 + k := by omega
      rw [hshift]
      exact ih hstart

/-- A run starts no attempt after one at which it stops. -/
theorem length_startsFrom_le {idempotent : Bool} (fuel n : Nat) (s : Surroundings) (g : Generator) {k : Nat}
    (hstop : x.Stops idempotent op (n + k + 1)) :
    (x.startsFrom op fuel ⟨n + 1, idempotent⟩ n s g).length ≤ k + 1 := by
  by_contra hmore
  have hlt : k < (x.startsFrom op fuel ⟨n + 1, idempotent⟩ n s g).length := by omega
  obtain ⟨hgo, fuel', g', -, -, hdrop⟩ := exists_runFrom_of_start (List.getElem?_eq_getElem hlt)
  have hlength := congrArg List.length hdrop
  rw [List.length_drop, startsFrom_succ hgo] at hlength
  cases hround : x.round (op (n + k)) ⟨n + k + 1, idempotent⟩ _ g' with
  | ended result s' assessed =>
    rw [hround] at hlength
    dsimp only [List.length_singleton] at hlength
    omega
  | again a' s' assessed => exact (not_stops_of_again hround).1 hstop

/-- A run ends with the answer of an attempt at which it stops, if that comes before the call is seen to be
cancelled. -/
theorem runFrom_of_answered {idempotent : Bool} {k : Nat} {s₀ : Surroundings}
    (hstart : (x.startsFrom op fuel ⟨n + 1, idempotent⟩ n s g)[k]? = some s₀)
    (hanswered : (attemptOnce (op (n + k)) s₀).1 ≠ none) (hstop : x.Stops idempotent op (n + k + 1)) :
    (x.runFrom op fuel ⟨n + 1, idempotent⟩ n s g).result = (op (n + k)).result := by
  obtain ⟨hgo, fuel', g', hresult, -, -⟩ := exists_runFrom_of_start hstart
  have htime : ¬ ((op (n + k)).work ≠ 0 ∧ (s₀.through (op (n + k))).cancelled = true) := by
    intro hgone
    rw [attemptOnce_eq, if_pos hgone] at hanswered
    exact hanswered rfl
  rw [hresult, runFrom_succ hgo, round_of_some htime]
  cases hanswer : (op (n + k)).result with
  | ok v => rfl
  | error e =>
    dsimp only [afterError]
    rw [delay_eq_none_of_stops hanswer hstop]
    rfl

/-- A run ends at once as cancelled when the call is seen to be cancelled while an attempt works, or after
its failure where the run would go on. -/
theorem runFrom_of_seen {idempotent : Bool} {k : Nat} {s₀ : Surroundings}
    (hstart : (x.startsFrom op fuel ⟨n + 1, idempotent⟩ n s g)[k]? = some s₀)
    (hseen : (attemptOnce (op (n + k)) s₀).1 = none ∨
      ¬ x.Stops idempotent op (n + k + 1) ∧ (attemptOnce (op (n + k)) s₀).2.observe.cancelled = true) :
    (x.runFrom op fuel ⟨n + 1, idempotent⟩ n s g).result = .error CallError.cancelled ∧
      (x.runFrom op fuel ⟨n + 1, idempotent⟩ n s g).elapsed = (attemptOnce (op (n + k)) s₀).2.now := by
  obtain ⟨hgo, fuel', g', hresult, helapsed, -⟩ := exists_runFrom_of_start hstart
  rw [hresult, helapsed, runFrom_succ hgo]
  by_cases hgone : (op (n + k)).work ≠ 0 ∧ (s₀.through (op (n + k))).cancelled = true
  · rw [round_of_none hgone, attemptOnce_eq]
    exact ⟨rfl, rfl⟩
  · rw [attemptOnce_eq, if_neg hgone] at hseen
    obtain ⟨hgoes, hobserved⟩ := hseen.resolve_left (by simp)
    obtain ⟨e, d, hanswer, hdelay⟩ := exists_delay_of_not_stops hgoes g'
    rw [round_of_some hgone, hanswer, attemptOnce_eq]
    dsimp only [afterError] at hobserved ⊢
    rw [hdelay, hobserved]
    exact ⟨rfl, Surroundings.observe_now⟩

/-! ## Answers that are passed on -/

/-- Whether the executor passes an answer to the attempt on: it is a success, or the failure is not tried
again. -/
def PassesOn (x : Executor) (a : Attempt) (result : Except ε α) : Prop :=
  ∀ error, result = .error error → x.policy.maxAttempts ≤ a.number ∨ x.classOf error = .nonRetryable ∨
    (x.classOf error = .undetermined ∧ a.idempotent = false)

/-- A failed attempt is given no delay if its failure is passed on, and only then. -/
theorem delay_eq_none_iff_passesOn (x : Executor) (a : Attempt) (error : ε) (g : Generator) :
    (x.assess (CallError.toFault error) a g).record.delay = none ↔
      x.PassesOn a (.error error : Except ε α) := by
  have hdecide := x.policy.decideFresh_isSome_iff (x.classifier.classify (CallError.toFault error)) a g
  have hpasses : x.PassesOn a (.error error : Except ε α) ↔ x.policy.maxAttempts ≤ a.number ∨
      x.classOf error = .nonRetryable ∨ (x.classOf error = .undetermined ∧ a.idempotent = false) :=
    ⟨fun h => h error rfl, fun h error' he => by cases he; exact h⟩
  rw [show (x.assess (CallError.toFault error) a g).record.delay =
    (x.policy.decideFresh (x.classifier.classify (CallError.toFault error)) a g).1 from rfl,
    ← Option.not_isSome_iff_eq_none, hdecide, hpasses, classOf]
  rw [← Nat.not_lt, ← Bool.not_eq_true]
  tauto

/-! ## From the first attempt on -/

/-- The surroundings in which a run starts its attempts. -/
def starts (x : Executor) (idempotent : Bool) (op : Nat → Reply ε α) (s : Surroundings)
    (g : Generator) : List Surroundings :=
  x.startsFrom op x.policy.maxAttempts (.first idempotent) 0 s g

theorem calls_le_of_stops {idempotent : Bool} (s : Surroundings) (g : Generator) {k : Nat}
    (hstop : x.Stops idempotent op (k + 1)) : (x.run idempotent op s g).calls ≤ k + 1 := by
  have hcalls := (starts_of_runFrom x op x.policy.maxAttempts (.first idempotent) 0 s g).1
  have hlength := length_startsFrom_le (n := 0) x.policy.maxAttempts s g (by rwa [Nat.zero_add])
  rw [Nat.zero_add] at hcalls
  rw [run, hcalls]
  exact hlength

/-- What becomes of a run at every moment at which its call is cancelled, by its operation, by an observer or
by another task. -/
structure Cancellable (x : Executor) (idempotent : Bool) (op : Nat → Reply ε α) (s : Surroundings)
    (g : Generator) : Prop where
  /-- Each attempt that is made has been started. -/
  calls : (x.run idempotent op s g).calls = (x.starts idempotent op s g).length
  /-- No attempt is started once the call has been cancelled. -/
  hushed : ∀ s' ∈ x.starts idempotent op s g, s'.cancelled = false
  /-- The answer of an attempt at which the run stops is its result, if it comes before the call is seen to
  be cancelled. -/
  answers : ∀ k s', (x.starts idempotent op s g)[k]? = some s' → (attemptOnce (op k) s').1 ≠ none →
    x.Stops idempotent op (k + 1) → (x.run idempotent op s g).result = (op k).result
  /-- If the call is seen to be cancelled while an attempt works, or after its failure where the run would
  go on, the run ends at once as cancelled. -/
  seen : ∀ k s', (x.starts idempotent op s g)[k]? = some s' →
    (attemptOnce (op k) s').1 = none ∨
      (¬ x.Stops idempotent op (k + 1) ∧ (attemptOnce (op k) s').2.observe.cancelled = true) →
    (x.run idempotent op s g).result = .error CallError.cancelled ∧
      (x.run idempotent op s g).elapsed = (attemptOnce (op k) s').2.now
  /-- If another task cancels the call at some moment, before or after the timers of the run that are due
  then, the run is cut short at that moment. -/
  cut : ∀ t first, CutShort (s.lastUnseen t first) (max s.now t) (x.run idempotent op s.undisturbed g)
    (x.run idempotent op (s.cancelledAt t first) g)
  /-- The attempts that are started before it sees that are the same, and no others are started. -/
  starts : ∀ t first, (x.starts idempotent op (s.cancelledAt t first) g).map (·.now) =
    ((x.starts idempotent op s.undisturbed g).map (·.now)).filter (· ≤ s.lastUnseen t first)

/-- Every run can be cancelled at every moment. -/
theorem cancellable (x : Executor) (idempotent : Bool) (op : Nat → Reply ε α) (s : Surroundings)
    (g : Generator) : x.Cancellable idempotent op s g := by
  obtain ⟨hcalls, hstarts⟩ := starts_of_runFrom x op x.policy.maxAttempts (.first idempotent) 0 s g
  have hcut := fun t first => runFrom_cancelledAt (s := s.undisturbed) rfl x op x.policy.maxAttempts
    (.first idempotent) 0 g t first
  refine ⟨hcalls.trans (Nat.zero_add _), fun s' hs' => (hstarts s' hs').1, ?_, ?_,
    fun t first => (hcut t first).1, fun t first => (hcut t first).2⟩
  · intro k s' hstart hanswered hstop
    have hresult := runFrom_of_answered (n := 0) (k := k) hstart (by rwa [Nat.zero_add])
      (by rwa [Nat.zero_add])
    simp only [Nat.zero_add] at hresult
    exact hresult
  · intro k s' hstart hseen
    have hends := runFrom_of_seen (n := 0) (k := k) hstart (by rwa [Nat.zero_add])
    simp only [Nat.zero_add] at hends
    exact hends

end Executor

end PooledSessions
