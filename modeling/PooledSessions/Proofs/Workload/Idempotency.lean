import PooledSessions.Workload.Run
import PooledSessions.Proofs.Retry.Extension
import PooledSessions.Proofs.Simulation.Declarations
/-!
# What a declaration changes

An operation that is declared safe to repeat, or that may be attempted more often, is attempted at least
as often, and as far as both runs go they are the same.  The declaration matters only where it is unknown
what became of an attempt (`declaring_extends`).  No operation of a workload ends like that, so a workload
whose operations are declared safe ends with the counts of one whose operations are not
(`Workload.run_asSafe`).
-/

namespace PooledSessions

namespace Workload

/-- A workload in which everything is declared safe. -/
def asSafe (w : Workload) : Workload := { w with world := w.world.asSafe, idempotent := true }

/-- The workload's operations cannot leave their outcome unknown. -/
def Tame (w : Workload) : Prop := w.world.Tame

variable {w : Workload}

/-! ## Workers -/

theorem asSafe_fail (w : Workload) (n left : Nat) (e : DriverError) :
    (w.fail n left e).asSafe = w.asSafe.fail n left e := by
  simp [fail, asSafe, setWorker, World.asSafe, failedEvent, Event.asSafe]

/-- A worker rests, as long as was drawn, after its operation was refused a session. -/
def rest (w : Workload) (n left : Nat) (drawn : Nat × Generator) : Workload :=
  { w with
    tally.rejected := w.tally.rejected + 1
    world.engine.generator := drawn.2 }.setWorker n ⟨left, .resting (w.world.now + 1 + drawn.1)⟩

theorem asSafe_rest (w : Workload) (n left : Nat) (drawn : Nat × Generator) :
    (w.rest n left drawn).asSafe = w.asSafe.rest n left drawn := rfl

/-- The world of a workload in which a worker rests. -/
theorem world_rest (w : Workload) (n left : Nat) (drawn : Nat × Generator) :
    (w.rest n left drawn).world =
      { w.world with engine := { w.world.engine with generator := drawn.2 } } := rfl

theorem conclude_exhausted (w : Workload) (n left : Nat) {p : PoolError}
    (hp : p.isResourceExhausted = true) : w.conclude n left (some (.error (.pool p))) =
      w.rest n left (w.world.engine.generator.below 64 longestRest) := by
  unfold conclude
  -- the rest is only named here: it must not be drawn
  generalize w.world.engine.generator.below 64 longestRest = drawn
  obtain ⟨draw, g⟩ := drawn
  exact if_pos hp

theorem conclude_refused (w : Workload) (n left : Nat) {p : PoolError}
    (hp : ¬ p.isResourceExhausted = true) : w.conclude n left (some (.error (.pool p))) =
      w.fail n left (.pool p) := by
  unfold conclude
  generalize w.world.engine.generator.below 64 longestRest = drawn
  exact if_neg hp

/-- A worker takes note of a result as in the workload itself. -/
theorem asSafe_conclude (w : Workload) (n left : Nat) (result : Option (Except DriverError Int)) :
    (w.conclude n left result).asSafe = w.asSafe.conclude n left result := by
  rcases result with _ | ⟨error | p | _⟩ | v
  · rfl
  · exact asSafe_fail w n left (.rpc error)
  · by_cases hp : p.isResourceExhausted = true
    · rw [conclude_exhausted w n left hp, conclude_exhausted w.asSafe n left hp, asSafe_rest,
        show w.asSafe.world.engine.generator = w.world.engine.generator from rfl]
    · rw [conclude_refused w n left hp, conclude_refused w.asSafe n left hp]
      exact asSafe_fail w n left (.pool p)
  · rfl
  · rfl

/-- All that happens to the world is that something is reported and drawn. -/
theorem world_conclude (w : Workload) (n left : Nat) (result : Option (Except DriverError Int)) :
    ∃ events g, (w.conclude n left result).world =
      { w.world with events := events, engine := { w.world.engine with generator := g } } := by
  rcases result with _ | ⟨error | p | _⟩ | v
  · exact ⟨w.world.events, w.world.engine.generator, rfl⟩
  · exact ⟨w.world.events ++ [failedEvent (.rpc error)], w.world.engine.generator, rfl⟩
  · by_cases hp : p.isResourceExhausted = true
    · rw [conclude_exhausted w n left hp]
      exact ⟨w.world.events, _, world_rest w n left _⟩
    · rw [conclude_refused w n left hp]
      exact ⟨w.world.events ++ [failedEvent (.pool p)], w.world.engine.generator, rfl⟩
  · exact ⟨w.world.events, w.world.engine.generator, rfl⟩
  · exact ⟨w.world.events, w.world.engine.generator, rfl⟩

theorem Tame.conclude (h : w.Tame) (n left : Nat) (result : Option (Except DriverError Int)) :
    (w.conclude n left result).Tame := by
  obtain ⟨events, g, hworld⟩ := world_conclude w n left result
  rw [Tame, hworld]
  exact { h with creates := h.creates }

/-- A turn of the world is a turn of the workload. -/
theorem turn_mirrored (no : TaskNo) :
    Mirrored Tame asSafe fun w : Workload => (w.world.turn no).map ({ w with world := · }) where
  image := fun w h => by
    show (w.world.asSafe.turn no).map _ = _
    rw [World.turn_asSafe h, Option.map_map, Option.map_map]
    rfl
  keeps := fun w w' h hturn => by
    obtain ⟨world, hworld, rfl⟩ := Option.map_eq_some_iff.mp hturn
    exact World.Tame.turn h hworld

/-- A worker sets up its next operation. -/
def setOut (w : Workload) (n left : Nat) : Workload :=
  let (no, world) := w.world.setUp (.operation w.idempotent) (.unnamed w.world.engine.nextNo) PoolScene.noDeeds
  { w with world := world }.setWorker n ⟨left, .executing no⟩

/-- A worker takes the result of its operation. -/
def takeResult (w : Workload) (n left : Nat) (no : TaskNo) : Workload :=
  { w with
    world.executed := w.world.executed.filter (·.1 ≠ no)
    world.visits := w.world.visits.filter (·.1 ≠ no) }.conclude n left (w.world.executed.lookup no)

theorem asSafe_setOut (h : w.Tame) (n left : Nat) :
    (w.setOut n left).Tame ∧ w.asSafe.setOut n left = (w.setOut n left).asSafe := by
  have hdeeds : ∀ i, (PoolScene.noDeeds i).result = none := fun _ => rfl
  obtain ⟨htame, hset⟩ := World.setUp_asSafe h (.operation w.idempotent)
    (.unnamed w.world.engine.nextNo) hdeeds
  refine ⟨htame, ?_⟩
  unfold setOut
  rw [show w.asSafe.world.setUp (.operation w.asSafe.idempotent) (.unnamed w.asSafe.world.engine.nextNo)
    PoolScene.noDeeds = _ from hset]
  rfl

theorem asSafe_takeResult (w : Workload) (n left : Nat) (no : TaskNo) :
    (w.takeResult n left no).asSafe = w.asSafe.takeResult n left no :=
  asSafe_conclude _ n left _

theorem Tame.takeResult (h : w.Tame) (n left : Nat) (no : TaskNo) : (w.takeResult n left no).Tame :=
  Tame.conclude (w := { w with
    world.executed := w.world.executed.filter (·.1 ≠ no)
    world.visits := w.world.visits.filter (·.1 ≠ no) }) { h with creates := h.creates } n left _

theorem worker_mirrored (n : Nat) : Mirrored Tame asSafe (Workload.moveWorker · n) := by
  refine .of_forall fun w h => ?_
  unfold moveWorker
  rw [show w.asSafe.workers = w.workers from rfl]
  cases w.workers[n]? with
  | none => exact ⟨rfl, fun _ hnone => nomatch hnone⟩
  | some worker =>
    obtain ⟨left, activity⟩ := worker
    cases activity with
    | finished => exact ⟨rfl, fun _ hnone => nomatch hnone⟩
    | resting wake =>
      refine ⟨?_, ?_⟩
      · show (if wake ≤ w.world.now then some (w.asSafe.setWorker n ⟨left, .ready⟩) else none) =
          (if wake ≤ w.world.now then some (w.setWorker n ⟨left, .ready⟩) else none).map asSafe
        split <;> rfl
      · intro w' hmove
        obtain ⟨-, hset⟩ := Option.ite_none_right_eq_some.mp hmove
        exact Option.some.inj hset ▸ h
    | ready =>
      cases left with
      | zero => exact ⟨rfl, fun w' hmove => Option.some.inj hmove ▸ h⟩
      | succ left =>
        obtain ⟨htame, hset⟩ := asSafe_setOut h n left
        exact ⟨congrArg some hset, fun w' hmove => Option.some.inj hmove ▸ htame⟩
    | executing no =>
      show (if w.world.asSafe.isRunning no then _ else some (w.asSafe.takeResult n left no)) =
          Option.map asSafe (if w.world.isRunning no then _ else some (w.takeResult n left no)) ∧
        ∀ w', (if w.world.isRunning no then _ else some (w.takeResult n left no)) = some w' → w'.Tame
      -- whether the call still runs does not depend on what the operation declares
      rw [World.isRunning_asSafe]
      cases w.world.isRunning no with
      | true => exact ⟨(turn_mirrored no).image w h, fun w' => (turn_mirrored no).keeps w w' h⟩
      | false =>
        exact ⟨congrArg some (asSafe_takeResult w n left no).symm,
          fun w' hmove => Option.some.inj hmove ▸ h.takeResult n left no⟩

/-! ## The run -/

theorem tasks_mirrored : tasks.Mirrored Tame asSafe where
  now := fun _ => rfl
  background := fun w => by
    show (List.range w.workers.length).map Actor.worker ++
      ((w.world.asSafe.backgroundTasks.filter fun no => !w.world.asSafe.isRunning no).map Actor.task) = _
    rw [World.backgroundTasks_asSafe]
    simp only [World.isRunning_asSafe]
    rfl
  dues := fun w => congrArg (· ++ w.wakes) (World.dues_asSafe w.world)
  setClock := fun due w h => by
    have hclock := World.tryMove_asSafe h (m := .advance (due - w.world.now)) trivial
    exact congrArg (fun world => ({ w.asSafe with world := world } : Workload)) hclock
  clocked := fun due w h => World.Tame.tryMove h (.advance (due - w.world.now))
  moves := fun x => by
    cases x with
    | worker n => exact worker_mirrored n
    | task no => exact turn_mirrored no

theorem allFinished_mirrored : allFinished.Mirrored Tame asSafe where
  moves := mirrored_none
  reached := fun _ => rfl
  dues := fun _ => rfl

theorem start_tame (c : Config) (o : WorkloadOptions) (g : Generator) : (start c o g).Tame where
  classifier := rfl
  script := rfl
  deeds := fun _ _ => rfl
  detached := rfl
  creates := fun _ hk => absurd hk List.not_mem_nil

/-- A report in which everything is declared safe. -/
def Report.asSafe (r : Report) : Report := { r with events := r.events.map Event.asSafe }

/-- What is reported of a workload that has come to its end, if it can be closed. -/
def report? (w : Workload) : Except WorkloadError Report :=
  let (no, world) := w.world.makeCall .closing (.unnamed w.world.engine.nextNo) PoolScene.noDeeds longestWait
  if world.closings.contains no then
    .ok ⟨w.tally, w.world.engine.stats w.world.setup, world.server.cluster, world.events⟩
  else .error .endless

theorem report?_asSafe (h : w.Tame) : w.asSafe.report? = w.report?.map Report.asSafe := by
  have hdeeds : ∀ i, (PoolScene.noDeeds i).result = none := fun _ => rfl
  have hclose := World.makeCall_asSafe h .closing (.unnamed w.world.engine.nextNo) hdeeds longestWait
  unfold report?
  rw [show w.asSafe.world.makeCall .closing (.unnamed w.asSafe.world.engine.nextNo) PoolScene.noDeeds
    longestWait = _ from hclose]
  generalize w.world.makeCall .closing (.unnamed w.world.engine.nextNo) PoolScene.noDeeds longestWait = made
  obtain ⟨no, world⟩ := made
  dsimp only
  rw [show world.asSafe.closings = world.closings from rfl]
  split <;> rfl

/-- A workload that may be run is driven until all of its workers have finished, and closed then. -/
theorem run_eq (c : Config) (o : WorkloadOptions) (g : Generator) :
    run c o g =
      if o.failureRate.isFraction = false then .error (.failureRate o.failureRate)
      else if o.workers = 0 then .error .noWorkers
      else
        match tasks.drive allFinished (start c o g) with
        | none => .error .endless
        | some w => w.report? := by
  unfold run
  cases hrate : o.failureRate.isFraction with
  | false => rfl
  | true =>
    by_cases hnone : o.workers = 0
    · simp only [hnone, if_true]
      rfl
    · simp only [hnone, if_false]
      -- both sides look at how the driving ends
      show (match tasks.drive allFinished (start c o g) with
        | none => _
        | some w => _) = _
      cases tasks.drive allFinished (start c o g) with
      | none => rfl
      | some w =>
        dsimp only
        unfold report?
        generalize w.world.makeCall .closing (.unnamed w.world.engine.nextNo) PoolScene.noDeeds longestWait = made
        obtain ⟨no, world⟩ := made
        dsimp only
        cases world.closings.contains no <;> rfl

/-- A workload whose operations are declared safe to repeat goes as the one whose operations are not. -/
theorem run_asSafe (c : Config) (o : WorkloadOptions) (g : Generator) :
    run c { o with idempotent := true } g = (run c o g).map Report.asSafe := by
  have hstart : start c { o with idempotent := true } g = (start c o g).asSafe := rfl
  rw [run_eq, run_eq]
  dsimp only
  split
  · rfl
  · split
    · rfl
    · have hdrive := tasks_mirrored.drive allFinished_mirrored
      rw [hstart, hdrive.image _ (start_tame c o g)]
      cases hdriven : tasks.drive allFinished (start c o g) with
      | none => rfl
      | some w => exact report?_asSafe (hdrive.keeps _ w (start_tame c o g) hdriven)

end Workload

/-! ## Declarations and budgets -/

/-- A call that is declared safe to repeat, or may be attempted more often, extends the one that is not: its
attempts go the same way as far as that has any, and where that one succeeds it cannot be told from it.  The
declaration alone changes nothing for a call none of whose failures leaves its outcome unknown, and nothing
for a workload but what is told of the declaration. -/
theorem declaring_extends {ε α : Type} [CallError ε] {x x' : Executor} (hx : x.Outlasts x')
    {idempotent idempotent' : Bool} (hdeclared : idempotent = true → idempotent' = true)
    (op : Nat → Reply ε α) (s : Surroundings) (g : Generator) (c : Config) (o : WorkloadOptions)
    (g' : Generator) :
    (x.run idempotent op s g).Extends 0 (x'.run idempotent' op s g) ∧
      ((∀ r ∈ (x.run idempotent op s g).records, r.failureClass ≠ .undetermined) →
        (x.run idempotent' op s g).silent = (x.run idempotent op s g).silent) ∧
      Workload.run c { o with idempotent := true } g' =
        (Workload.run c { o with idempotent := false } g').map Workload.Report.asSafe :=
  ⟨Executor.runFrom_extends hx ⟨rfl, hdeclared⟩ hx.maxAttempts, Executor.runFrom_silent rfl,
    Workload.run_asSafe c { o with idempotent := false } g'⟩

/-- An operation that is lost twice before it works. -/
def lostTwice (n : Nat) : Reply DriverError Int :=
  ⟨false, 0, if n < 2 then .error (.rpc (.status .undetermined "lost")) else .ok 1⟩

/-- Declared unsafe the operation is called once, and declared safe, with more attempts, until it works. -/
theorem declaring_extends_of_lostTwice :
    let briefly : Executor := ⟨(Policy.ofConfig {}).withMaxAttempts 2, .standard⟩
    let longer : Executor := ⟨.ofConfig {}, .standard⟩
    let first := briefly.run false lostTwice (.calm 0) ⟨1⟩
    let second := longer.run true lostTwice (.calm 0) ⟨1⟩
    first.Extends 0 second ∧ first.calls = 1 ∧ second.calls = 3 := by
  intro briefly longer first second
  have houtlasts : briefly.Outlasts longer := ⟨rfl, rfl, rfl, by decide +kernel⟩
  have hdeclared : false = true → true = true := fun _ => rfl
  exact ⟨(declaring_extends houtlasts hdeclared lostTwice (.calm 0) ⟨1⟩ {} {} ⟨1⟩).1, by decide +kernel,
    by decide +kernel⟩

end PooledSessions
