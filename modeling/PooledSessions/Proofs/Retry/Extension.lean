import PooledSessions.Proofs.Retry.Cancellation
/-!
# Runs that are extended

Two runs of the retry loop on one operation are compared, where the second one may make more attempts and
may repeat what the first one must not repeat (`Executor.Outlasts`, `Attempt.Permits`).  Both draw the same
delays from the same generator: a generator is spawned for each decision, whatever is decided.  So the second
run goes as the first one does, as long as that goes on, and may go on where it ends (`Run.Extends`).

The flag decides nothing but about failures whose outcome is unknown.  Without one of them, it cannot be told
from the run (`Executor.run_silent_eq`).
-/

namespace PooledSessions

variable {ε α : Type}

/-! ## Decisions -/

/-- The executor `x'` draws delays as `x` does, and allows no fewer attempts. -/
structure Executor.Outlasts (x x' : Executor) : Prop where
  /-- Both classify faults alike. -/
  classifier : x'.classifier = x.classifier
  /-- Both draw fast delays alike. -/
  fast : x'.policy.fast = x.policy.fast
  /-- Both draw slow delays alike. -/
  slow : x'.policy.slow = x.policy.slow
  /-- There may be more attempts. -/
  maxAttempts : x.policy.maxAttempts ≤ x'.policy.maxAttempts

/-- The attempt `a'` has the number of `a`, and may be repeated if `a` may. -/
structure Attempt.Permits (a a' : Attempt) : Prop where
  /-- Both are counted alike. -/
  number : a'.number = a.number
  /-- What could be repeated still can. -/
  idempotent : a.idempotent = true → a'.idempotent = true

theorem Attempt.Permits.next {a a' : Attempt} (h : a.Permits a') : a.next.Permits a'.next where
  number := by rw [next_number, next_number, h.number]
  idempotent := h.idempotent

/-- The record `r'` differs from `r` at most in a delay that `r` does not give. -/
structure AttemptRecord.Extends (r r' : AttemptRecord) : Prop where
  /-- They are of one attempt. -/
  attempt : r'.attempt = r.attempt
  /-- It has failed in one way. -/
  failure : r'.failure = r.failure
  /-- The delay may be missing in the first one only. -/
  delay : r.delay = r'.delay ∨ r.delay = none

protected theorem AttemptRecord.Extends.rfl {r : AttemptRecord} : r.Extends r := ⟨rfl, rfl, Or.inl rfl⟩

theorem AttemptRecord.eq_of_parts {r r' : AttemptRecord} (hattempt : r'.attempt = r.attempt)
    (hfailure : r'.failure = r.failure) (hdelay : r'.delay = r.delay) : r' = r := by
  cases r
  cases r'
  cases hattempt
  cases hfailure
  cases hdelay
  rfl

/-- If the shorter run goes on after a failure, then both do, and after the same delay. -/
theorem Policy.decideFresh_extended {p p' : Policy} (hfast : p'.fast = p.fast) (hslow : p'.slow = p.slow)
    (hmax : p.maxAttempts ≤ p'.maxAttempts) {a a' : Attempt} (ha : a.Permits a') (f : Failure)
    (g : Generator) :
    (p.decideFresh f a g).1 = (p'.decideFresh f a' g).1 ∨ (p.decideFresh f a g).1 = none := by
  rw [decideFresh_eq, decideFresh_eq]
  unfold decideWith
  by_cases hlast : p.maxAttempts ≤ a.number
  · exact Or.inr (by rw [if_pos hlast])
  · rw [if_neg hlast, if_neg (by rw [ha.number]; omega)]
    cases f.failureClass with
    | undetermined =>
      cases hidempotent : a.idempotent with
      | false => exact Or.inr (by simp [delayFor, hidempotent])
      | true => exact Or.inl (by simp [delayFor, hidempotent, ha.idempotent hidempotent, hfast, ha.number])
    | _ => exact Or.inl (by simp [delayFor, hfast, hslow, ha.number])

/-- Whether an attempt may be repeated matters only for failures whose outcome is unknown. -/
theorem Policy.decideFresh_of_determined (p : Policy) {a a' : Attempt} (hnumber : a'.number = a.number)
    {f : Failure} (hf : f.failureClass ≠ .undetermined) (g : Generator) :
    p.decideFresh f a' g = p.decideFresh f a g := by
  rw [decideFresh_eq, decideFresh_eq]
  unfold decideWith
  rw [hnumber]
  cases hclass : f.failureClass with
  | undetermined => exact absurd hclass hf
  | _ => simp only [delayFor, hnumber]

namespace Executor

variable {x x' : Executor} {a a' : Attempt}

theorem assess_delay (x : Executor) (f : Fault) (a : Attempt) (g : Generator) :
    (x.assess f a g).record.delay = (x.policy.decideFresh (x.classifier.classify f) a g).1 := rfl

/-- An assessment costs one spawning, whatever it comes to. -/
theorem assess_generator (x : Executor) (f : Fault) (a : Attempt) (g : Generator) :
    (x.assess f a g).generator = g.spawn.2 := rfl

theorem assess_events (x : Executor) (f : Fault) (a : Attempt) (g : Generator) :
    (x.assess f a g).events =
      x.classifier.classifyEvents f ++ [attemptEvent f a (x.assess f a g).record] := rfl

theorem Outlasts.assess (hx : x.Outlasts x') (ha : a.Permits a') (f : Fault) (g : Generator) :
    (x.assess f a g).record.Extends (x'.assess f a' g).record where
  attempt := ha.number
  failure := by rw [assess_failure, assess_failure, hx.classifier]
  delay := by
    rw [assess_delay, assess_delay, hx.classifier]
    exact Policy.decideFresh_extended hx.fast hx.slow hx.maxAttempts ha (x.classifier.classify f) g

theorem assess_of_determined (x : Executor) (hnumber : a'.number = a.number) {f : Fault}
    (hf : (x.classifier.classify f).failureClass ≠ .undetermined) (g : Generator) :
    (x.assess f a' g).record = (x.assess f a g).record := by
  refine AttemptRecord.eq_of_parts hnumber rfl ?_
  rw [assess_delay, assess_delay, x.policy.decideFresh_of_determined hnumber hf g]

end Executor

/-! ## Runs -/

/-- The run `r'` goes as `r` does and may go on where `r` ends; `n` attempts were made before both. -/
structure Run.Extends (n : Nat) (r r' : Run ε α) : Prop where
  /-- Some attempts were made before. -/
  begun : n ≤ r.calls
  /-- The second run makes no fewer attempts. -/
  calls : r.calls ≤ r'.calls
  /-- The attempts of the first run but the last one have the same records in both. -/
  records : ∀ i, n + i + 1 < r.calls → ∃ record, r.records[i]? = some record ∧ r'.records[i]? = some record
  /-- If the last attempt of the first run has a record, its record in the second run may give a delay. -/
  last : ∀ i record, n + i + 1 = r.calls → r.records[i]? = some record →
    ∃ record', r'.records[i]? = some record' ∧ record.Extends record'
  /-- A first run that succeeds is the second one. -/
  ok : ∀ v, r.result = .ok v → r'.result = .ok v ∧ r'.calls = r.calls ∧ r'.records = r.records ∧
    r'.elapsed = r.elapsed

/-- A run without the events that it reports. -/
def Run.silent (r : Run ε α) : Run ε α := { r with events := [] }

namespace Run.Extends

variable {n : Nat} {r r' : Run ε α}

theorem refl_of_calls (hbegun : n ≤ r.calls) (hcalls : r.calls ≤ n + 1) : r.Extends n r where
  begun := hbegun
  calls := Nat.le_refl _
  records := fun i hi => by omega
  last := fun i record _ hrecord => ⟨record, hrecord, .rfl⟩
  ok := fun v hv => ⟨hv, rfl, rfl, rfl⟩

/-- The first run ends with the failure of its next attempt. -/
theorem of_failed {record record' : AttemptRecord} {rest : List AttemptRecord} {error : ε}
    (hresult : r.result = .error error) (hcalls : r.calls = n + 1) (hcalls' : n + 1 ≤ r'.calls)
    (hrecords : r.records = [record]) (hrecords' : r'.records = record' :: rest)
    (hextends : record.Extends record') : r.Extends n r' where
  begun := by omega
  calls := by omega
  records := fun i hi => by omega
  last := fun i found hi hfound => by
    obtain rfl : i = 0 := by omega
    rw [hrecords] at hfound
    cases hfound
    exact ⟨record', by rw [hrecords']; rfl, hextends⟩
  ok := fun v hv => by rw [hresult] at hv; cases hv

/-- Both runs go on after a failure that was assessed alike. -/
theorem after (h : r.Extends (n + 1) r') {assessed assessed' : Assessment}
    (hrecord : assessed'.record = assessed.record) : (r.after assessed).Extends n (r'.after assessed') where
  begun := by have := h.begun; show n ≤ r.calls; omega
  calls := h.calls
  records := fun i hi => by
    cases i with
    | zero => exact ⟨assessed.record, rfl, congrArg some hrecord⟩
    | succ i => exact h.records i (by show n + 1 + i + 1 < r.calls; have : n + (i + 1) + 1 < r.calls := hi; omega)
  last := fun i record hi hfound => by
    cases i with
    | zero =>
      cases hfound
      exact ⟨_, congrArg some hrecord, .rfl⟩
    | succ i => exact h.last i record (by have : n + (i + 1) + 1 = r.calls := hi; omega) hfound
  ok := fun v hv => by
    obtain ⟨hresult, hcalls, hrecords, helapsed⟩ := h.ok v hv
    exact ⟨hresult, hcalls, congrArg₂ List.cons hrecord hrecords, helapsed⟩

end Run.Extends

namespace Executor

variable [CallError ε] {x x' : Executor} {op : Nat → Reply ε α} {a a' : Attempt} {s : Surroundings}
  {g : Generator} {n fuel fuel' : Nat}

/-! ### What a run has to show -/

theorem le_calls (x : Executor) (op : Nat → Reply ε α) (fuel : Nat) (a : Attempt) (n : Nat)
    (s : Surroundings) (g : Generator) : n ≤ (x.runFrom op fuel a n s g).calls := by
  induction fuel generalizing a n s g with
  | zero => exact Nat.le_refl _
  | succ fuel ih =>
    cases hgone : s.cancelled with
    | true => rw [runFrom_of_cancelled hgone]
    | false =>
      rw [runFrom_succ hgone]
      cases x.round (op n) a s g with
      | ended result s' assessed => exact Nat.le_succ n
      | again a' s' assessed => exact (Nat.le_succ n).trans (ih a' (n + 1) s' assessed.generator)

/-- A run that goes on from a round. -/
def goesOn (x : Executor) (op : Nat → Reply ε α) (fuel n : Nat) (g : Generator) (round : Round ε α) :
    Run ε α :=
  match round with
  | .ended result s assessed =>
    ⟨result, n + 1, (assessed.map (·.record)).toList, s.now, (assessed.map (·.events)).getD [],
      (assessed.map (·.generator)).getD g⟩
  | .again a s assessed => (x.runFrom op fuel a (n + 1) s assessed.generator).after assessed

theorem runFrom_eq_goesOn (hgo : s.cancelled = false) :
    x.runFrom op (fuel + 1) a n s g = x.goesOn op fuel n g (x.round (op n) a s g) :=
  runFrom_succ hgo

/-- After a failure, the next attempt follows if there is a delay before it and nobody has cancelled the
call. -/
theorem afterError_eq (x : Executor) (e : ε) (a : Attempt) (s : Surroundings) (g : Generator) :
    (x.afterError e a s g : Round ε α) =
      match (x.assess (CallError.toFault e) a g).record.delay with
      | none => .ended (.error e) s.observe (some (x.assess (CallError.toFault e) a g))
      | some d =>
        if s.observe.cancelled then
          .ended (.error CallError.cancelled) s.observe (some (x.assess (CallError.toFault e) a g))
        else
          .again a.next
            (if d.isZero then s.observe else s.observe.wait (s.observe.now + d.waitMillis))
            (x.assess (CallError.toFault e) a g) := by
  unfold afterError
  dsimp only
  cases (x.assess (CallError.toFault e) a g).record.delay with
  | none => rfl
  | some d =>
    by_cases hgone : s.observe.cancelled = true <;> by_cases hzero : d.isZero = true <;>
      simp [Loop.afterFailure, hgone, hzero]

/-- The record of a failed attempt is the first one that the run has to show. -/
theorem goesOn_afterError (x : Executor) (op : Nat → Reply ε α) (fuel n : Nat) (g g' : Generator) (e : ε)
    (a : Attempt) (s : Surroundings) :
    n + 1 ≤ (x.goesOn op fuel n g (x.afterError e a s g')).calls ∧
      ∃ rest, (x.goesOn op fuel n g (x.afterError e a s g')).records =
        (x.assess (CallError.toFault e) a g').record :: rest := by
  rw [afterError_eq]
  split
  · exact ⟨Nat.le_refl _, [], rfl⟩
  · split
    · exact ⟨Nat.le_refl _, [], rfl⟩
    · exact ⟨le_calls x op fuel a.next (n + 1) _ _, _, rfl⟩

/-! ### Runs side by side -/

/-- A run that is given more attempts, or may repeat more, extends the one that is not. -/
theorem runFrom_extends (hx : x.Outlasts x') (ha : a.Permits a') (hfuel : fuel ≤ fuel') :
    (x.runFrom op fuel a n s g).Extends n (x'.runFrom op fuel' a' n s g) := by
  induction fuel generalizing fuel' a a' n s g with
  | zero =>
    exact ⟨Nat.le_refl n, le_calls x' op fuel' a' n s g, fun i hi => absurd hi (by simp [runFrom]; omega),
      fun i record hi => absurd hi (by simp [runFrom]; omega), fun v hv => by cases hv⟩
  | succ fuel ih =>
    obtain ⟨fuel', rfl⟩ : ∃ k, fuel' = k + 1 := ⟨fuel' - 1, by omega⟩
    cases hgo : s.cancelled with
    | true =>
      rw [runFrom_of_cancelled hgo, runFrom_of_cancelled hgo]
      exact .refl_of_calls (Nat.le_refl n) (Nat.le_succ n)
    | false =>
      rw [runFrom_eq_goesOn hgo, runFrom_eq_goesOn hgo]
      by_cases hgone : (op n).work ≠ 0 ∧ (s.through (op n)).cancelled = true
      · rw [round_of_none hgone, round_of_none hgone]
        exact .refl_of_calls (Nat.le_succ n) (Nat.le_refl _)
      · rw [round_of_some hgone, round_of_some hgone]
        cases (op n).result with
        | ok v => exact .refl_of_calls (Nat.le_succ n) (Nat.le_refl _)
        | error e =>
          dsimp only
          have hextends := hx.assess ha (CallError.toFault e) g
          obtain ⟨hcalls, rest, hrecords⟩ :=
            goesOn_afterError (α := α) x' op fuel' n g g e a' (s.through (op n))
          -- whatever the second run does, it has a record of the attempt with which the first one ends
          have hlast : ∀ error s₁, (x.goesOn op fuel n g (.ended (.error error) s₁
              (some (x.assess (CallError.toFault e) a g)))).Extends n
                (x'.goesOn op fuel' n g (x'.afterError e a' (s.through (op n)) g)) :=
            fun error s₁ => .of_failed rfl rfl hcalls rfl hrecords hextends
          rw [afterError_eq]
          cases hdelay : (x.assess (CallError.toFault e) a g).record.delay with
          | none => exact hlast _ _
          | some d =>
            dsimp only
            by_cases hcancelled : (s.through (op n)).observe.cancelled = true
            · rw [if_pos hcancelled]
              exact hlast _ _
            · -- the first run goes on after a delay, which is that of the second run
              have hsame : (x'.assess (CallError.toFault e) a' g).record.delay = some d := by
                rcases hextends.delay with heq | hnone
                · rw [← heq, hdelay]
                · rw [hdelay] at hnone
                  cases hnone
              rw [if_neg hcancelled, afterError_eq, hsame]
              dsimp only
              rw [if_neg hcancelled]
              refine Run.Extends.after ?_
                (AttemptRecord.eq_of_parts hextends.attempt hextends.failure (hsame.trans hdelay.symm))
              rw [assess_generator, assess_generator]
              exact ih ha.next (Nat.le_of_succ_le_succ hfuel)

omit [CallError ε] in
theorem silent_after {r r' : Run ε α} (h : r'.silent = r.silent) {assessed assessed' : Assessment}
    (hrecord : assessed'.record = assessed.record) :
    (r'.after assessed').silent = (r.after assessed).silent := by
  unfold Run.silent at h
  rw [Run.mk.injEq] at h
  obtain ⟨hresult, hcalls, hrecords, helapsed, -, hgenerator⟩ := h
  unfold Run.silent Run.after
  dsimp only
  rw [hresult, hcalls, hrecords, helapsed, hgenerator, hrecord]

/-- A run in which the outcome of no failure is unknown does not depend on whether its attempts may be
repeated. -/
theorem runFrom_silent (hnumber : a'.number = a.number)
    (hrecords : ∀ r ∈ (x.runFrom op fuel a n s g).records, r.failureClass ≠ .undetermined) :
    (x.runFrom op fuel a' n s g).silent = (x.runFrom op fuel a n s g).silent := by
  induction fuel generalizing a a' n s g with
  | zero => rfl
  | succ fuel ih =>
    cases hgo : s.cancelled with
    | true => rw [runFrom_of_cancelled hgo, runFrom_of_cancelled hgo]
    | false =>
      rw [runFrom_eq_goesOn hgo] at hrecords ⊢
      rw [runFrom_eq_goesOn hgo]
      by_cases hgone : (op n).work ≠ 0 ∧ (s.through (op n)).cancelled = true
      · rw [round_of_none hgone, round_of_none hgone]
      · rw [round_of_some hgone] at hrecords ⊢
        rw [round_of_some hgone]
        cases hresult : (op n).result with
        | ok v => rfl
        | error e =>
          rw [hresult] at hrecords
          dsimp only at hrecords ⊢
          -- the record of this failure is the first one of the run
          have hclass : (x.classifier.classify (CallError.toFault e)).failureClass ≠ .undetermined := by
            obtain ⟨-, rest, heq⟩ := goesOn_afterError (α := α) x op fuel n g g e a (s.through (op n))
            rw [heq] at hrecords
            exact hrecords _ List.mem_cons_self
          have hrecord := x.assess_of_determined hnumber hclass g
          -- if the run ends here, the two runs differ at most in what they say of repeating
          have hended : ∀ error s₁, (x.goesOn op fuel n g (.ended (.error error) s₁
              (some (x.assess (CallError.toFault e) a' g)))).silent =
                (x.goesOn op fuel n g (.ended (.error error) s₁
                  (some (x.assess (CallError.toFault e) a g))) : Run ε α).silent := by
            intro error s₁
            unfold Run.silent goesOn
            simp only [Option.map_some, Option.getD_some, hrecord, assess_generator]
          rw [afterError_eq] at hrecords ⊢
          rw [afterError_eq, hrecord]
          cases hdelay : (x.assess (CallError.toFault e) a g).record.delay with
          | none => exact hended _ _
          | some d =>
            rw [hdelay] at hrecords
            dsimp only at hrecords ⊢
            by_cases hcancelled : (s.through (op n)).observe.cancelled = true
            · rw [if_pos hcancelled, if_pos hcancelled]
              exact hended _ _
            · rw [if_neg hcancelled] at hrecords ⊢
              rw [if_neg hcancelled]
              refine silent_after ?_ hrecord
              rw [assess_generator, assess_generator]
              refine ih ?_ fun r hr => hrecords r (List.mem_cons_of_mem _ hr)
              rw [Attempt.next_number, Attempt.next_number, hnumber]

end Executor

end PooledSessions
