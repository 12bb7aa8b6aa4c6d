import Mathlib
import PooledSessions.Retry.Run
/-!
# The attempts of a run

When nobody cancels a run of the retry loop, what its operation does on each attempt decides where it
stops: at the first attempt that succeeds, that is the last one the policy allows, or that fails in a way
which is not tried again (`Executor.Stops`).  Until then every attempt fails and is given a delay, and the
record of an attempt (`Executor.record?`) depends only on its number, its error and the generator, which
steps once for each failed attempt.

So a run is told in full by the number of its last attempt (`Executor.run_eq_of_stops`).
-/

namespace PooledSessions

/-! ## Decisions -/

namespace Policy

variable (p : Policy) (f : Failure) (a : Attempt) (g : Generator)

/-- Which failures are tried again as long as there are attempts left. -/
theorem delayFor_isSome_iff (k : FailureClass) :
    (p.delayFor a g k).1.isSome = true ↔
      k ≠ .nonRetryable ∧ (k = .undetermined → a.idempotent = true) := by
  cases k with
  | undetermined => cases h : a.idempotent <;> simp [delayFor, h]
  | _ => simp [delayFor]

/-- One generator is spawned for each decision, whatever is decided. -/
theorem decideFresh_eq :
    p.decideFresh f a g = ((p.decideWith f a g.spawn.1).1, g.spawn.2) := by
  unfold decideFresh
  rcases g.spawn with ⟨fresh, rest⟩
  rfl

/-- A failed attempt is followed by another one if there are attempts left and its failure is tried
again. -/
theorem decideFresh_isSome_iff :
    (p.decideFresh f a g).1.isSome = true ↔
      a.number < p.maxAttempts ∧ f.failureClass ≠ .nonRetryable ∧
        (f.failureClass = .undetermined → a.idempotent = true) := by
  rw [decideFresh_eq]
  unfold decideWith
  split
  · rename_i hlast
    simp [Nat.not_lt.mpr hlast]
  · rename_i hmore
    rw [delayFor_isSome_iff]
    exact ⟨fun h => ⟨Nat.lt_of_not_le hmore, h⟩, fun h => h.2⟩

end Policy

/-- The generator after `n` delays have been decided on. -/
def Generator.afterDecisions (g : Generator) (n : Nat) : Generator := (fun g => g.spawn.2)^[n] g

theorem Generator.afterDecisions_succ (g : Generator) (n : Nat) :
    g.afterDecisions (n + 1) = (g.afterDecisions n).spawn.2 :=
  Function.iterate_succ_apply' _ n g

theorem Span.waitMillis_of_isZero {d : Span} (h : d.isZero = true) : d.waitMillis = 0 := by
  have hnanos : d.nanos = 0 := by simpa [Span.isZero] using h
  simp [Span.waitMillis, Span.ceilMillis, boundedWait, hnanos]

/-! ## Runs that nobody cancels -/

namespace Surroundings

/-- A run that nobody cancels, when the clock shows `now`. -/
def calm (now : Nat) : Surroundings := ⟨now, false, none, false, none⟩

@[simp] theorem calm_now (now : Nat) : (calm now).now = now := rfl

@[simp] theorem calm_cancelled (now : Nat) : (calm now).cancelled = false := rfl

@[simp] theorem observe_calm (now : Nat) : (calm now).observe = calm now := rfl

@[simp] theorem wait_calm (now millis : Nat) : (calm now).wait (now + millis) = calm (now + millis) := by
  unfold wait
  split
  · rename_i hdue
    have hzero : millis = 0 := by simpa [calm] using hdue
    rw [hzero, Nat.add_zero]
  · rfl

end Surroundings

namespace Executor

variable {ε α : Type} [CallError ε] (x : Executor)

/-- The class of the failure for which an error is taken. -/
def classOf (e : ε) : FailureClass := (x.classifier.classify (CallError.toFault e)).failureClass

/-- A run goes no further than its attempt `k`, counted from one: it succeeds, it is the last one that the
policy allows, or its failure is not tried again. -/
def Stops (idempotent : Bool) (op : Nat → Reply ε α) (k : Nat) : Prop :=
  (∃ v, (op (k - 1)).result = .ok v) ∨ x.policy.maxAttempts ≤ k ∨
    ∃ e, (op (k - 1)).result = .error e ∧
      (x.classOf e = .nonRetryable ∨ (x.classOf e = .undetermined ∧ idempotent = false))

/-- The record of attempt `k`, counted from one, if it fails. -/
def record? (idempotent : Bool) (op : Nat → Reply ε α) (g : Generator) (k : Nat) :
    Option AttemptRecord :=
  match (op (k - 1)).result with
  | .ok _ => none
  | .error e =>
    some (x.assess (CallError.toFault e) ⟨k, idempotent⟩ (g.afterDecisions (k - 1))).record

variable {x} {idempotent : Bool} {op : Nat → Reply ε α} {g : Generator} {k : Nat}

theorem record?_of_error {n : Nat} {e : ε} (h : (op n).result = .error e) :
    x.record? idempotent op g (n + 1) =
      some (x.assess (CallError.toFault e) ⟨n + 1, idempotent⟩ (g.afterDecisions n)).record := by
  simp [record?, h]

theorem record?_of_ok {n : Nat} {v : α} (h : (op n).result = .ok v) :
    x.record? idempotent op g (n + 1) = none := by
  simp [record?, h]

/-- A failed attempt is given a delay unless the run stops there. -/
theorem delay_isSome_iff_of_error {n : Nat} {e : ε} (h : (op n).result = .error e) (g : Generator) :
    (x.assess (CallError.toFault e) ⟨n + 1, idempotent⟩ g).record.delay.isSome = true ↔
      ¬ x.Stops idempotent op (n + 1) := by
  have hdecide := x.policy.decideFresh_isSome_iff (x.classifier.classify (CallError.toFault e))
    ⟨n + 1, idempotent⟩ g
  have hstops : x.Stops idempotent op (n + 1) ↔ x.policy.maxAttempts ≤ n + 1 ∨
      x.classOf e = .nonRetryable ∨ (x.classOf e = .undetermined ∧ idempotent = false) := by
    simp [Stops, h]
  rw [show (x.assess (CallError.toFault e) ⟨n + 1, idempotent⟩ g).record.delay =
    (x.policy.decideFresh (x.classifier.classify (CallError.toFault e)) ⟨n + 1, idempotent⟩ g).1 from rfl,
    hdecide, hstops, classOf]
  cases idempotent <;> simp [not_or]

/-- The last attempt of a run is given no delay. -/
theorem delay_eq_none_of_stops {n : Nat} {e : ε} (h : (op n).result = .error e)
    (hstop : x.Stops idempotent op (n + 1)) (g : Generator) :
    (x.assess (CallError.toFault e) ⟨n + 1, idempotent⟩ g).record.delay = none := by
  rw [← Option.not_isSome_iff_eq_none, delay_isSome_iff_of_error h]
  exact not_not.mpr hstop

/-- An attempt at which the run does not stop has failed, and is given a delay. -/
theorem exists_delay_of_not_stops {n : Nat} (hgo : ¬ x.Stops idempotent op (n + 1)) (g : Generator) :
    ∃ e d, (op n).result = .error e ∧
      (x.assess (CallError.toFault e) ⟨n + 1, idempotent⟩ g).record.delay = some d := by
  cases hresult : (op n).result with
  | ok v => exact absurd (Or.inl ⟨v, hresult⟩) hgo
  | error e =>
    obtain ⟨d, hd⟩ := Option.isSome_iff_exists.mp ((delay_isSome_iff_of_error hresult g).mpr hgo)
    exact ⟨e, d, rfl, hd⟩

/-- The number of an attempt at which the run does not stop is not the largest one. -/
theorem next_of_not_stops {n : Nat} (hgo : ¬ x.Stops idempotent op (n + 1)) :
    (⟨n + 1, idempotent⟩ : Attempt).next = ⟨n + 1 + 1, idempotent⟩ := by
  have hmore : n + 1 < x.policy.maxAttempts := by
    by_contra hle
    exact hgo (Or.inr (Or.inl (Nat.le_of_not_lt hle)))
  have := x.policy.maxAttempts_le
  simp only [Attempt.next, Attempt.mk.injEq, and_true]
  omega

omit [CallError ε] in
/-- An attempt of a run that nobody cancels is waited for. -/
theorem attemptOnce_calm {r : Reply ε α} (hcalm : r.cancels = false) (now : Nat) :
    attemptOnce r (.calm now) = (some r.result, .calm (now + boundedWait r.work)) := by
  have hsame : ({ Surroundings.calm now with cancelled := (Surroundings.calm now).cancelled || r.cancels } :
      Surroundings) = .calm now := by
    rw [hcalm]
    rfl
  unfold attemptOnce
  rw [hsame]
  by_cases hwork : r.work = 0
  · simp [hwork, boundedWait]
  · simp [hwork]

/-- How a run that nobody cancels goes on from an attempt: a delay that is empty is a wait of no time. -/
theorem runFrom_succ_calm {n : Nat} (hcalm : (op n).cancels = false) (fuel : Nat) (a : Attempt)
    (now : Nat) (g : Generator) :
    x.runFrom op (fuel + 1) a n (.calm now) g =
      match (op n).result with
      | .ok v => ⟨.ok v, n + 1, [], now + boundedWait (op n).work, [], g⟩
      | .error e =>
        let assessed := x.assess (CallError.toFault e) a g
        match assessed.record.delay with
        | none =>
          ⟨.error e, n + 1, [assessed.record], now + boundedWait (op n).work, assessed.events,
            assessed.generator⟩
        | some d =>
          let rest := x.runFrom op fuel a.next (n + 1)
            (.calm (now + boundedWait (op n).work + d.waitMillis)) assessed.generator
          { rest with
            records := assessed.record :: rest.records
            events := assessed.events ++ rest.events } := by
  rw [runFrom, if_neg (by simp), attemptOnce_calm hcalm]
  cases hresult : (op n).result with
  | ok v => rfl
  | error e =>
    dsimp only
    rw [Surroundings.observe_calm]
    cases hdelay : (x.assess (CallError.toFault e) a g).record.delay with
    | none => rfl
    | some d =>
      by_cases hzero : d.isZero = true
      · simp only [Loop.afterFailure, Surroundings.calm_cancelled, Bool.false_eq_true, if_false, hzero,
          if_true, Span.waitMillis_of_isZero hzero, Nat.add_zero]
      · simp only [Loop.afterFailure, Surroundings.calm_cancelled, Bool.false_eq_true, if_false, hzero,
          Surroundings.calm_now, Surroundings.wait_calm]

/-- The records of a run from attempt `n + 1` to its last attempt `n + 1 + d`. -/
def recordsFrom (x : Executor) (idempotent : Bool) (op : Nat → Reply ε α) (g : Generator) (n d : Nat) :
    List AttemptRecord :=
  (List.range' (n + 1) (d + 1)).filterMap (x.record? idempotent op g)

/-- For how many milliseconds a run works on its attempts `n + 1` to `n + 1 + d`. -/
def workFrom (op : Nat → Reply ε α) (n d : Nat) : Nat :=
  ((List.range' n (d + 1)).map fun i => boundedWait (op i).work).sum

omit [CallError ε] in
theorem workFrom_succ (op : Nat → Reply ε α) (n d : Nat) :
    workFrom op n (d + 1) = boundedWait (op n).work + workFrom op (n + 1) d := by
  rw [workFrom, List.range'_succ, List.map_cons, List.sum_cons, workFrom]

/-- A run that nobody cancels and that has made `n` attempts makes `d + 1` further ones, if it stops at
attempt `n + 1 + d` and not before. -/
theorem runFrom_eq (hcalm : ∀ i, (op i).cancels = false) {n d fuel : Nat} (hfuel : d < fuel)
    (hgo : ∀ j, n < j → j < n + 1 + d → ¬ x.Stops idempotent op j)
    (hstop : x.Stops idempotent op (n + 1 + d)) (now : Nat) :
    let run := x.runFrom op fuel ⟨n + 1, idempotent⟩ n (.calm now) (g.afterDecisions n)
    run.calls = n + 1 + d ∧ run.result = (op (n + d)).result ∧
      run.records = x.recordsFrom idempotent op g n d ∧
      run.elapsed = now + workFrom op n d +
        (((x.recordsFrom idempotent op g n d).filterMap AttemptRecord.delay).map Span.waitMillis).sum := by
  induction d generalizing n fuel now with
  | zero =>
    obtain ⟨fuel, rfl⟩ : ∃ k, fuel = k + 1 := ⟨fuel - 1, by omega⟩
    dsimp only
    rw [runFrom_succ_calm (hcalm n)]
    cases hresult : (op n).result with
    | ok v => simp [recordsFrom, workFrom, record?_of_ok hresult]
    | error e =>
      simp [recordsFrom, workFrom, record?_of_error hresult, delay_eq_none_of_stops hresult hstop]
  | succ d ih =>
    obtain ⟨fuel, rfl⟩ : ∃ k, fuel = k + 1 := ⟨fuel - 1, by omega⟩
    have hfirst : ¬ x.Stops idempotent op (n + 1) := hgo (n + 1) (Nat.lt_succ_self n) (by omega)
    obtain ⟨e, delay, hresult, hdelay⟩ := exists_delay_of_not_stops hfirst (g.afterDecisions n)
    have hnext := next_of_not_stops hfirst
    have hgenerator : (x.assess (CallError.toFault e) ⟨n + 1, idempotent⟩
        (g.afterDecisions n)).generator = g.afterDecisions (n + 1) :=
      (g.afterDecisions_succ n).symm
    -- the rest of the run begins when the first delay is over
    have hrest := ih (n := n + 1) (show d < fuel by omega)
      (fun j hj hlt => hgo j (by omega) (by omega)) (by rwa [show n + 1 + 1 + d = n + 1 + (d + 1) by omega])
      (now + boundedWait (op n).work + delay.waitMillis)
    have hrecords : x.recordsFrom idempotent op g n (d + 1) =
        (x.assess (CallError.toFault e) ⟨n + 1, idempotent⟩ (g.afterDecisions n)).record ::
          x.recordsFrom idempotent op g (n + 1) d := by
      rw [recordsFrom, List.range'_succ, List.filterMap_cons, record?_of_error hresult, recordsFrom]
    dsimp only at hrest ⊢
    rw [runFrom_succ_calm (hcalm n)]
    simp only [hresult, hdelay, hnext, hgenerator, hrecords]
    refine ⟨by rw [hrest.1]; omega, by rw [hrest.2.1]; congr 2; omega, by rw [hrest.2.2.1], ?_⟩
    rw [hrest.2.2.2, workFrom_succ, List.filterMap_cons_some hdelay, List.map_cons, List.sum_cons]
    omega

/-! ## From the first attempt on -/

/-- The records of the first `n` attempts of a run. -/
def firstRecords (x : Executor) (idempotent : Bool) (op : Nat → Reply ε α) (g : Generator) (n : Nat) :
    List AttemptRecord :=
  (List.range' 1 n).filterMap (x.record? idempotent op g)

/-- For how many milliseconds a run has worked and waited when its attempt `n + 1` starts. -/
def startMillis (x : Executor) (idempotent : Bool) (op : Nat → Reply ε α) (g : Generator) (n : Nat) :
    Nat :=
  ((List.range n).map fun i => boundedWait (op i).work).sum +
    (((x.firstRecords idempotent op g n).filterMap AttemptRecord.delay).map Span.waitMillis).sum

theorem firstRecords_succ (x : Executor) (idempotent : Bool) (op : Nat → Reply ε α) (g : Generator)
    (n : Nat) : x.firstRecords idempotent op g (n + 1) =
      x.firstRecords idempotent op g n ++ (x.record? idempotent op g (n + 1)).toList := by
  rw [firstRecords, List.range'_1_concat, List.filterMap_append, firstRecords, Nat.add_comm 1 n]
  cases h : x.record? idempotent op g (n + 1) <;> simp [h]

/-- Before a run stops, each of its attempts has a record. -/
theorem getElem?_firstRecords {n : Nat} (hgo : ∀ j, 1 ≤ j → j ≤ n → ¬ x.Stops idempotent op j) :
    (x.firstRecords idempotent op g n).length = n ∧
      ∀ i < n, (x.firstRecords idempotent op g n)[i]? = x.record? idempotent op g (i + 1) := by
  induction n with
  | zero => exact ⟨rfl, fun i hi => absurd hi (Nat.not_lt_zero i)⟩
  | succ n ih =>
    obtain ⟨hlength, hbefore⟩ := ih fun j hj hle => hgo j hj (Nat.le_succ_of_le hle)
    obtain ⟨e, d, hresult, -⟩ := exists_delay_of_not_stops (hgo (n + 1) (Nat.succ_pos n) (Nat.le_refl _)) g
    rw [firstRecords_succ, record?_of_error hresult, Option.toList_some]
    refine ⟨by simp [hlength], fun i hi => ?_⟩
    rcases Nat.lt_succ_iff_lt_or_eq.mp hi with hlt | rfl
    · rw [List.getElem?_append_left (hlength.symm ▸ hlt), hbefore i hlt]
    · rw [List.getElem?_append_right (Nat.le_of_eq hlength), hlength, Nat.sub_self,
        record?_of_error hresult]
      rfl

theorem startMillis_succ {n : Nat} {r : AttemptRecord} {d : Span}
    (hrecord : x.record? idempotent op g (n + 1) = some r) (hdelay : r.delay = some d) :
    x.startMillis idempotent op g (n + 1) =
      x.startMillis idempotent op g n + boundedWait (op n).work + d.waitMillis := by
  rw [startMillis, firstRecords_succ, hrecord, Option.toList_some, List.filterMap_append,
    List.filterMap_cons_some hdelay, List.filterMap_nil, List.map_append, List.sum_append,
    List.range_succ, List.map_append, List.sum_append, startMillis]
  simp only [List.map_cons, List.map_nil, List.sum_singleton]
  ring

/-- The last attempt is given no delay. -/
theorem delays_of_stops {n : Nat} (hstop : x.Stops idempotent op (n + 1)) :
    (x.firstRecords idempotent op g (n + 1)).filterMap AttemptRecord.delay =
      (x.firstRecords idempotent op g n).filterMap AttemptRecord.delay := by
  rw [firstRecords_succ, List.filterMap_append]
  cases hanswer : (op n).result with
  | ok v =>
    rw [record?_of_ok hanswer]
    exact List.append_nil _
  | error e =>
    rw [record?_of_error hanswer, Option.toList_some,
      List.filterMap_cons_none (delay_eq_none_of_stops hanswer hstop _)]
    exact List.append_nil _

/-- A run that nobody cancels ends at the first attempt at which it stops, with the result of that
attempt. -/
theorem run_eq_of_stops (hcalm : ∀ i, (op i).cancels = false) {n : Nat}
    (hgo : ∀ j, 1 ≤ j → j ≤ n → ¬ x.Stops idempotent op j) (hstop : x.Stops idempotent op (n + 1)) :
    let run := x.run idempotent op (.atStart false none none) g
    run.calls = n + 1 ∧ run.result = (op n).result ∧
      run.records = x.firstRecords idempotent op g (n + 1) ∧
      run.elapsed = x.startMillis idempotent op g n + boundedWait (op n).work := by
  have hmore : n < x.policy.maxAttempts := by
    by_contra hle
    rcases Nat.eq_zero_or_pos n with rfl | hpos
    · exact hle x.policy.one_le_maxAttempts
    · exact hgo n hpos (Nat.le_refl n) (Or.inr (Or.inl (Nat.le_of_not_lt hle)))
  have hrun : x.run idempotent op (.atStart false none none) g =
      x.runFrom op x.policy.maxAttempts ⟨0 + 1, idempotent⟩ 0 (.calm 0) (g.afterDecisions 0) := rfl
  have hone : 0 + 1 + n = n + 1 := by omega
  obtain ⟨hcalls, hresult, hrecords, helapsed⟩ := runFrom_eq (g := g) hcalm (n := 0) hmore
    (fun j hj hlt => hgo j hj (by omega)) (hone ▸ hstop) 0
  have hlast : x.recordsFrom idempotent op g 0 n = x.firstRecords idempotent op g (n + 1) := rfl
  dsimp only
  rw [hrun]
  refine ⟨hcalls.trans hone, by rw [hresult, Nat.zero_add], hrecords.trans hlast, ?_⟩
  rw [helapsed, hlast, delays_of_stops hstop, workFrom, startMillis, ← List.range_eq_range', List.range_succ,
    List.map_append, List.sum_append, List.map_cons, List.map_nil, List.sum_singleton]
  omega

/-! ## The last attempt -/

/-- Every run stops at some attempt, at the last one that the policy allows if at none before. -/
theorem exists_first_stop (x : Executor) (idempotent : Bool) (op : Nat → Reply ε α) :
    ∃ n, (∀ j, 1 ≤ j → j ≤ n → ¬ x.Stops idempotent op j) ∧ x.Stops idempotent op (n + 1) ∧
      n + 1 ≤ x.policy.maxAttempts := by
  classical
  have hone := x.policy.one_le_maxAttempts
  have hlast : x.Stops idempotent op (x.policy.maxAttempts - 1 + 1) := Or.inr (Or.inl (by omega))
  have hsome : ∃ n, x.Stops idempotent op (n + 1) := ⟨_, hlast⟩
  refine ⟨Nat.find hsome, fun j hj hle hstops => ?_, Nat.find_spec hsome, ?_⟩
  · have hbefore : ¬ x.Stops idempotent op (j - 1 + 1) := Nat.find_min hsome (by omega)
    exact hbefore (by rwa [Nat.sub_add_cancel hj])
  · have := Nat.find_min' hsome hlast
    omega

/-- The attempt at which a run stops first is the least one at which it stops. -/
theorem isLeast_stops {n : Nat} (hgo : ∀ j, 1 ≤ j → j ≤ n → ¬ x.Stops idempotent op j)
    (hstop : x.Stops idempotent op (n + 1)) :
    IsLeast {k | 1 ≤ k ∧ x.Stops idempotent op k} (n + 1) := by
  refine ⟨⟨Nat.succ_pos n, hstop⟩, fun k ⟨hk, hstops⟩ => ?_⟩
  by_contra hlt
  exact hgo k hk (by omega) hstops

/-- The attempts that have a record are those that failed. -/
theorem attempts_filterMap_record? (x : Executor) (idempotent : Bool) (op : Nat → Reply ε α)
    (g : Generator) (numbers : List Nat) :
    (numbers.filterMap (x.record? idempotent op g)).map (·.attempt) =
      numbers.filter fun i => !(op (i - 1)).result.isOk := by
  have hone : ∀ i, (x.record? idempotent op g i).map (·.attempt) =
      Option.guard (fun i => !(op (i - 1)).result.isOk) i := by
    intro i
    cases hresult : (op (i - 1)).result with
    | ok v => simp [record?, hresult, Option.guard, Except.isOk, Except.toBool]
    | error e => simp [record?, hresult, Option.guard, Except.isOk, Except.toBool]
  rw [List.map_filterMap, funext hone, List.filterMap_eq_filter]

/-- A run that nobody cancels makes attempts up to the first one at which it stops, of which there is one
within the number that the policy allows, and ends with its result unchanged.  It makes one record for
each attempt that failed, which tells its number and its class, and a delay unless it was the last one.
The clock shows how long the attempts worked and how long the delays were waited for: each is rounded up
to whole milliseconds, and none is waited for longer than anything waits.  An operation that must not be
repeated is not called again after a failure whose outcome is unknown. -/
theorem run_ends_at_first_stop (x : Executor) (idempotent : Bool) (op : Nat → Reply ε α)
    (g : Generator) (hcalm : ∀ i, (op i).cancels = false) :
    ∃ k, IsLeast {k | 1 ≤ k ∧ x.Stops idempotent op k} k ∧ k ≤ x.policy.maxAttempts ∧
      let run := x.run idempotent op (.atStart false none none) g
      run.calls = k ∧ run.result = (op (k - 1)).result ∧
      run.records.map (·.attempt) = (List.range' 1 k).filter (fun i => !(op (i - 1)).result.isOk) ∧
      (∀ r ∈ run.records, (r.delay.isSome = true ↔ r.attempt < k) ∧
        ∃ e, (op (r.attempt - 1)).result = .error e ∧
          r.failure = x.classifier.classify (CallError.toFault e)) ∧
      run.elapsed = ((List.range k).map fun i => min (op i).work longestWait).sum +
        ((run.records.filterMap AttemptRecord.delay).map fun d => min d.ceilMillis longestWait).sum ∧
      (idempotent = false → ∀ i e, (op i).result = .error e → x.classOf e = .undetermined →
        run.calls ≤ i + 1) := by
  -- everything is read off the closed form of a run that is known to stop at a given attempt
  obtain ⟨n, hgo, hstop, hmax⟩ := x.exists_first_stop idempotent op
  have hleast := isLeast_stops hgo hstop
  obtain ⟨hcalls, hresult, hrecords, helapsed⟩ := run_eq_of_stops (g := g) hcalm hgo hstop
  refine ⟨n + 1, hleast, hmax, hcalls, by rw [hresult, Nat.add_sub_cancel], ?_, ?_, ?_, ?_⟩
  · rw [hrecords, firstRecords, attempts_filterMap_record?]
  · intro r hr
    rw [hrecords] at hr
    obtain ⟨i, hi, hrecord⟩ := List.mem_filterMap.mp hr
    obtain ⟨hle, hlt⟩ := List.mem_range'_1.mp hi
    obtain ⟨i, rfl⟩ : ∃ j, i = j + 1 := ⟨i - 1, by omega⟩
    cases hanswer : (op i).result with
    | ok v =>
      rw [record?_of_ok hanswer] at hrecord
      cases hrecord
    | error e =>
      rw [record?_of_error hanswer, Option.some.injEq] at hrecord
      subst hrecord
      refine ⟨?_, e, hanswer, rfl⟩
      rw [delay_isSome_iff_of_error hanswer, assess_attempt]
      show ¬ x.Stops idempotent op (i + 1) ↔ i + 1 < n + 1
      constructor
      · intro hgoes
        by_contra hle
        have hlast : i = n := by omega
        exact hgoes (hlast ▸ hstop)
      · intro hbefore
        exact hgo (i + 1) (Nat.succ_pos i) (by omega)
  · rw [helapsed, hrecords, delays_of_stops hstop, startMillis, List.range_succ, List.map_append,
      List.sum_append, List.map_cons, List.map_nil, List.sum_singleton]
    exact Nat.add_right_comm _ _ _
  · intro hunsafe i e hanswer hclass
    -- such a failure is one at which the loop stops, and it stops at the first one
    have hstops : x.Stops idempotent op (i + 1) := Or.inr (Or.inr ⟨e, hanswer, Or.inr ⟨hclass, hunsafe⟩⟩)
    rw [hcalls]
    exact hleast.2 ⟨Nat.succ_pos i, hstops⟩

/-- An operation that works at its third attempt. -/
def flaky (n : Nat) : Reply DriverError Int :=
  ⟨false, 0, if n < 2 then .error (.rpc (.status .unavailable "down")) else .ok 1⟩

theorem run_ends_at_first_stop_of_flaky :
    (∀ i, (flaky i).cancels = false) ∧
      IsLeast {k | 1 ≤ k ∧ (⟨.ofConfig {}, .standard⟩ : Executor).Stops false flaky k} 3 := by
  refine ⟨fun _ => rfl, ?_⟩
  obtain ⟨k, hleast, -, hcalls, -⟩ :=
    run_ends_at_first_stop ⟨.ofConfig {}, .standard⟩ false flaky ⟨1⟩ fun _ => rfl
  have hthree : ((⟨.ofConfig {}, .standard⟩ : Executor).run false flaky
      (.atStart false none none) ⟨1⟩).calls = 3 := by decide +kernel
  rwa [← hcalls, hthree] at hleast

/-- A policy whose delays are longer than anything waits. -/
def patient : Policy :=
  .ofBackoffs ⟨.ofMillis 4000000000000, .ofMillis 4000000000000⟩
    ⟨.ofMillis 4000000000000, .ofMillis 4000000000000⟩ 3

/-- Between its attempts a run does not always wait for the whole of a delay: none is waited for longer
than thirty years. -/
theorem elapsed_ne_sum_of_patient :
    let run := (⟨patient, .standard⟩ : Executor).run false flaky (.atStart false none none) ⟨6⟩
    run.calls = 3 ∧ run.elapsed = 2 * longestWait ∧
      run.elapsed ≠ ((run.records.filterMap AttemptRecord.delay).map Span.ceilMillis).sum := by
  decide +kernel

end Executor

end PooledSessions
