import Mathlib
import PooledSessions.Proofs.Simulation.Accounts
import PooledSessions.Proofs.Simulation.Service
import PooledSessions.Proofs.Workload.Idempotency
/-!
# Workloads in any order

The workers of a workload, and the monitors and deletions of its pool, may be given turns in any order, and
time may pass in between (`Workload.giveAll`).  Whatever the order, the books are kept
(`Workload.Consistent`): each execution that was begun is still under way, or its result waits for
its worker, or the worker has taken it, and the successful ones have the numbers under which the server has
counted them.
-/

namespace PooledSessions

/-- The call that a worker waits for. -/
def Worker.call? (k : Worker) : Option TaskNo :=
  match k.activity with
  | .executing no => some no
  | _ => none

/-- A bound on the moves of a worker, beside those of its calls, if each operation that it begins counts for
`cost`. -/
def Worker.effort (cost : Nat) (k : Worker) : Nat :=
  match k.activity with
  | .ready => k.left * cost + 1
  | .resting _ => k.left * cost + 2
  | .executing _ => k.left * cost + 3
  | .finished => 0

namespace Workload

/-- Something that happens while a workload is run. -/
inductive Turn
  /-- Somebody is given a turn. -/
  | move (a : Actor)
  /-- Time passes. -/
  | pass (millis : Nat)

/-- Whether somebody is given a turn. -/
def Turn.isMove : Turn → Bool
  | move _ => true
  | pass _ => false

/-- What becomes of a workload in a turn, if it can be taken. -/
def give (w : Workload) : Turn → Option Workload
  | .move a => tasks.move w a
  | .pass millis => some { w with world := w.world.tryMove (.advance millis) }

/-- What becomes of a workload in a number of turns, if they can be taken. -/
def giveAll (w : Workload) : List Turn → Option Workload
  | [] => some w
  | x :: xs => (w.give x).bind fun w => w.giveAll xs

/-- The call whose result a worker takes in a turn, with the result. -/
def taken? (w : Workload) : Turn → Option (TaskNo × Except DriverError Int)
  | .move (.worker n) => do
    let worker ← w.workers[n]?
    let no ← worker.call?
    if w.world.isRunning no then none else (w.world.executed.lookup no).map (no, ·)
  | _ => none

/-- The calls whose results the workers take in a number of turns, with the results. -/
def taken (w : Workload) : List Turn → List (TaskNo × Except DriverError Int)
  | [] => []
  | x :: xs =>
    match w.give x with
    | some w' => (w.taken? x).toList ++ taken w' xs
    | none => []

/-- What an execution has answered that has succeeded. -/
def answer? (x : TaskNo × Except DriverError Int) : Option Int :=
  match x.2 with
  | .ok v => some v
  | .error _ => none

/-! ## Results -/

/-- A result that an execution can have: it fails only if operations are made to fail, and is turned away only
if there are more workers than sessions. -/
inductive Expected (rate : Binary64) (limit workers : Nat) : Except DriverError Int → Prop
  /-- The operation has succeeded. -/
  | succeeded (v : Int) : Expected rate limit workers (.ok v)
  /-- The operation has failed. -/
  | failed (e : RpcError) (hrate : Binary64.zero.lt rate = true) : Expected rate limit workers (.error (.rpc e))
  /-- There was no session for the operation. -/
  | rejected (active pending most : Nat) (hcrowded : limit < workers) :
      Expected rate limit workers (.error (.pool (.exhausted active pending most)))

/-- How a result is counted. -/
inductive Tallies (t : Tally) : Except DriverError Int → Tally → Prop
  /-- The operation has succeeded. -/
  | ok (v : Int) : Tallies t (.ok v) { t with ok := t.ok + 1 }
  /-- The operation has failed. -/
  | failed (e : RpcError) : Tallies t (.error (.rpc e)) { t with failed := t.failed + 1 }
  /-- There was no session for the operation. -/
  | rejected (active pending most : Nat) :
      Tallies t (.error (.pool (.exhausted active pending most))) { t with rejected := t.rejected + 1 }

/-- The counts are those of the results that were taken. -/
structure Counts (rate : Binary64) (limit workers : Nat) (results : List (TaskNo × Except DriverError Int))
    (t : Tally) : Prop where
  /-- The successful ones are counted. -/
  ok : t.ok = (results.filterMap answer?).length
  /-- Each result is counted once. -/
  total : t.ok + t.rejected + t.failed = results.length
  /-- None is turned away unless there are more workers than sessions. -/
  rejected : t.rejected = 0 ∨ limit < workers
  /-- None fails unless operations are made to fail. -/
  failed : t.failed = 0 ∨ Binary64.zero.lt rate = true

variable {rate : Binary64} {limit workers : Nat} {results : List (TaskNo × Except DriverError Int)}

theorem Counts.take {t t' : Tally} (h : Counts rate limit workers results t) {no : TaskNo}
    {result : Except DriverError Int} (htallies : Tallies t result t')
    (hexpected : Expected rate limit workers result) :
    Counts rate limit workers (results ++ [(no, result)]) t' := by
  obtain ⟨hok, htotal, hrejected, hfailed⟩ := h
  cases htallies with
  | ok v => exact ⟨by simp [answer?, hok], by simp; omega, hrejected, hfailed⟩
  | failed e =>
    cases hexpected with
    | failed e hrate => exact ⟨by simp [answer?, hok], by simp; omega, hrejected, Or.inr hrate⟩
  | rejected active pending most =>
    cases hexpected with
    | rejected _ _ _ hcrowded => exact ⟨by simp [answer?, hok], by simp; omega, Or.inr hcrowded, hfailed⟩

/-! ## Moves of the workers -/

/-- The calls that the workers wait for. -/
def waited (w : Workload) : List TaskNo := w.workers.filterMap Worker.call?

/-- How many operations have not been begun. -/
def left (w : Workload) : Nat := (w.workers.map (·.left)).sum

variable {w w' : Workload} {n : Nat}

/-- What a worker does in a move. -/
inductive Works (w : Workload) (n : Nat) : Worker → Workload → Prop
  /-- It has rested. -/
  | wakes (left wake : Nat) : Works w n ⟨left, .resting wake⟩ (w.setWorker n ⟨left, .ready⟩)
  /-- It has nothing left to do. -/
  | finishes : Works w n ⟨0, .ready⟩ (w.setWorker n ⟨0, .finished⟩)
  /-- It begins its next operation. -/
  | begins (left : Nat) : Works w n ⟨left + 1, .ready⟩ (w.setOut n left)
  /-- Its operation goes on. -/
  | goesOn (left : Nat) (no : TaskNo) (hrunning : w.world.isRunning no = true) (world : World)
      (hturn : w.world.turn no = some world) :
      Works w n ⟨left, .executing no⟩ { w with world := world }
  /-- It takes the result of its operation. -/
  | takes (left : Nat) (no : TaskNo) (hended : w.world.isRunning no = false) :
      Works w n ⟨left, .executing no⟩ (w.takeResult n left no)

theorem works_of_move (hmove : w.moveWorker n = some w') : ∃ k, w.workers[n]? = some k ∧ Works w n k w' := by
  unfold moveWorker at hmove
  cases hk : w.workers[n]? with
  | none => rw [hk] at hmove; cases hmove
  | some k =>
    rw [hk] at hmove
    refine ⟨k, rfl, ?_⟩
    obtain ⟨left, activity⟩ := k
    cases activity with
    | finished => cases hmove
    | resting wake =>
      obtain ⟨-, hset⟩ := Option.ite_none_right_eq_some.mp hmove
      exact Option.some.inj hset ▸ .wakes left wake
    | ready =>
      cases left with
      | zero => exact Option.some.inj hmove ▸ .finishes
      | succ left => exact Option.some.inj hmove ▸ .begins left
    | executing no =>
      -- a worker moves its call on as long as it runs, and takes its result then
      replace hmove : (if w.world.isRunning no then (w.world.turn no).map ({ w with world := · })
        else some (w.takeResult n left no)) = some w' := hmove
      cases hrunning : w.world.isRunning no with
      | true =>
        rw [hrunning, if_pos rfl] at hmove
        obtain ⟨world, hturn, rfl⟩ := Option.map_eq_some_iff.mp hmove
        exact .goesOn left no hrunning world hturn
      | false =>
        rw [hrunning, if_neg Bool.false_ne_true] at hmove
        exact Option.some.inj hmove ▸ .takes left no hrunning

/-- The others do not change when one worker does. -/
theorem exists_others {k : Worker} (hk : w.workers[n]? = some k) (k' : Worker) :
    ∃ others, w.workers.Perm (k :: others) ∧ (w.setWorker n k').workers.Perm (k' :: others) := by
  obtain ⟨hlt, rfl⟩ := List.getElem?_eq_some_iff.mp hk
  exact ⟨w.workers.eraseIdx n, (List.getElem_cons_eraseIdx_perm hlt).symm, List.set_perm_cons_eraseIdx hlt k'⟩

/-- What changes about a sum over the workers when one of them changes. -/
theorem sum_setWorker {k : Worker} (hk : w.workers[n]? = some k) (k' : Worker) (f : Worker → Nat) :
    ∃ s, (w.workers.map f).sum = f k + s ∧ ((w.setWorker n k').workers.map f).sum = f k' + s := by
  obtain ⟨others, hworkers, hworkers'⟩ := exists_others hk k'
  refine ⟨(others.map f).sum, ?_, ?_⟩
  · rw [(hworkers.map f).sum_eq, List.map_cons, List.sum_cons]
  · rw [(hworkers'.map f).sum_eq, List.map_cons, List.sum_cons]

/-- What changes about the calls that are waited for and the operations that are left, when one worker
changes. -/
theorem waited_setWorker {k : Worker} (hk : w.workers[n]? = some k) (k' : Worker) :
    ∃ rest m, w.waited.Perm (k.call?.toList ++ rest) ∧ (w.setWorker n k').waited.Perm (k'.call?.toList ++ rest) ∧
      w.left = k.left + m ∧ (w.setWorker n k').left = k'.left + m := by
  obtain ⟨others, hworkers, hworkers'⟩ := exists_others hk k'
  obtain ⟨m, hleft, hleft'⟩ := sum_setWorker hk k' (·.left)
  have hcons : ∀ j : Worker, (j :: others).filterMap Worker.call? =
      j.call?.toList ++ others.filterMap Worker.call? := by
    intro j
    rw [List.filterMap_cons]
    cases j.call? <;> rfl
  exact ⟨others.filterMap Worker.call?, m, hcons k ▸ hworkers.filterMap _, hcons k' ▸ hworkers'.filterMap _,
    hleft, hleft'⟩

theorem setOut_eq (h : w.world.Undisturbed rate) (n left : Nat) :
    w.setOut n left =
      { w with
        world := w.world.withCall (.operation w.idempotent) (.unnamed w.world.engine.nextNo)
      }.setWorker n ⟨left, .executing w.world.engine.nextNo⟩ := by
  unfold setOut
  rw [h.setUp_eq]

/-- A worker that takes a result counts it, and goes on or rests. -/
theorem takeResult_eq {no : TaskNo} {result : Except DriverError Int}
    (hresult : w.world.executed.lookup no = some result) (hexpected : Expected rate limit workers result)
    (n left : Nat) : ∃ events g t activity, w.takeResult n left no =
        { w with
          tally := t
          world :=
            w.world.noting events (w.world.visits.filter (·.1 ≠ no)) (w.world.executed.filter (·.1 ≠ no)) g
        }.setWorker n ⟨left, activity⟩ ∧
      Tallies w.tally result t ∧ (activity = .ready ∨ ∃ wake, activity = .resting wake) := by
  unfold takeResult
  rw [hresult]
  cases hexpected with
  | succeeded v => exact ⟨w.world.events, w.world.engine.generator, _, .ready, rfl, .ok v, Or.inl rfl⟩
  | failed e =>
    exact ⟨w.world.events ++ [failedEvent (.rpc e)], w.world.engine.generator, _, .ready, rfl, .failed e, Or.inl rfl⟩
  | rejected active pending most =>
    rw [conclude_exhausted _ n left (p := .exhausted active pending most) rfl]
    generalize Generator.below 64 longestRest _ = drawn
    exact ⟨w.world.events, drawn.2, _, .resting (w.world.now + 1 + drawn.1), rfl, .rejected .., Or.inr ⟨_, rfl⟩⟩

/-! ## The books -/

/-- The answers of the first operations that succeed. -/
def answersUpTo (operations : Nat) : List Int := (List.range operations).map fun k => ((k + 1 : Nat) : Int)

/-- The books of a workload of `total` operations are kept, whose workers have taken the given results. -/
structure Consistent (rate : Binary64) (total : Nat) (results : List (TaskNo × Except DriverError Int))
    (w : Workload) : Prop where
  /-- Nobody disturbs the pool and its server. -/
  undisturbed : w.world.Undisturbed rate
  /-- The pool executes operations. -/
  executing : w.world.engine.Executing
  /-- Each call that is under way, or has ended, is waited for by one worker. -/
  calls : w.waited.Perm (w.world.engine.numbers ++ w.world.executed.map (·.1))
  /-- No call has two results. -/
  nodup : (w.world.engine.numbers ++ (results ++ w.world.executed).map (·.1)).Nodup
  /-- The next number is that of no call. -/
  no_lt : ∀ x ∈ results ++ w.world.executed, x.1 < w.world.engine.nextNo
  /-- The results are as can be expected. -/
  expected : ∀ x ∈ results ++ w.world.executed, Expected rate w.world.setup.limit w.workers.length x.2
  /-- The server has counted the operations that succeeded. -/
  answers : ((results ++ w.world.executed).filterMap answer?).Perm
    (answersUpTo w.world.server.cluster.operations)
  /-- The workers have counted the results. -/
  counts : Counts rate w.world.setup.limit w.workers.length results w.tally
  /-- No operation is lost. -/
  conserved : results.length + w.waited.length + w.left = total
  /-- Workers finish when nothing is left. -/
  finished : ∀ k ∈ w.workers, k.activity = .finished → k.left = 0

/-- A call that has a result is found with it. -/
theorem perm_of_lookup {no : TaskNo} {result : Except DriverError Int}
    (hnd : (results.map (·.1)).Nodup) (h : results.lookup no = some result) :
    results.Perm ((no, result) :: results.filter (·.1 ≠ no)) := by
  obtain ⟨before, after, rfl, hbefore⟩ := List.lookup_eq_some_iff.mp h
  rw [List.map_append, List.map_cons] at hnd
  have hnot := (List.nodup_middle.mp hnd).notMem
  have hothers : ∀ x ∈ before ++ after, decide (x.1 ≠ no) = true := by
    intro x hx
    refine decide_eq_true fun hsame => hnot ?_
    rw [← List.map_append]
    exact List.mem_map.mpr ⟨x, hx, hsame⟩
  have hbefore := List.filter_eq_self.mpr fun x hx => hothers x (List.mem_append_left _ hx)
  have hafter := List.filter_eq_self.mpr fun x hx => hothers x (List.mem_append_right _ hx)
  rw [List.filter_append, List.filter_cons_of_neg (by simp), hbefore, hafter]
  exact List.perm_middle

theorem isRunning_iff {w : World} {no : TaskNo} : w.isRunning no = true ↔ no ∈ w.engine.numbers := by
  simp [World.isRunning, Engine.call?, Engine.numbers, List.find?_isSome]

/-- A call that ends is among the ended ones then. -/
theorem numbers_perm {numbers : List TaskNo} {no : TaskNo} (hnd : numbers.Nodup) (hin : no ∈ numbers)
    (ended : List TaskNo) : (numbers ++ ended).Perm (numbers.filter (· ≠ no) ++ (ended ++ [no])) := by
  have herase : numbers.erase no = numbers.filter (· ≠ no) := by
    rw [hnd.erase_eq_filter]
    exact List.filter_congr fun x _ => by rw [bne, beq_eq_decide, decide_not]
  have hmoved : (numbers ++ ended).Perm (no :: (numbers.filter (· ≠ no) ++ ended)) :=
    (herase ▸ List.perm_cons_erase hin).append_right ended
  rw [← List.append_assoc]
  exact hmoved.trans (List.perm_append_singleton no _).symm

namespace Consistent

variable {total : Nat}

theorem awaited (h : w.Consistent rate total results) : w.world.awaited = [] :=
  h.undisturbed.awaited_of_executing h.executing

/-- There are no more calls under way than workers. -/
theorem numbers_le (h : w.Consistent rate total results) : w.world.engine.numbers.length ≤ w.workers.length := by
  have hle := List.length_filterMap_le Worker.call? w.workers
  have hcalls := h.calls.length_eq
  rw [List.length_append] at hcalls
  exact (Nat.le_add_right _ _).trans (hcalls.symm.le.trans hle)

/-- The books are kept when somebody takes a turn. -/
theorem turn (h : w.Consistent rate total results) {no : TaskNo} {world : World}
    (hturn : w.world.turn no = some world) : Consistent rate total results { w with world := world } := by
  have hundisturbed := h.undisturbed.turn (fun _ k hk => by rw [h.awaited] at hk; cases hk) hturn
  obtain ⟨hsetup, hnextNo, hexecuting⟩ := h.undisturbed.keeps_of_turn hturn
  cases h.undisturbed.accounts_of_turn h.executing hturn with
  | goesOn hnumbers hexecuted hoperations =>
    exact
      { h with
        undisturbed := hundisturbed
        executing := hexecuting h.executing
        calls := by rw [hnumbers, hexecuted]; exact h.calls
        nodup := by rw [hnumbers, hexecuted]; exact h.nodup
        no_lt := by rw [hexecuted]; exact fun x hx => (h.no_lt x hx).trans_le hnextNo
        expected := by rw [hexecuted, hsetup]; exact h.expected
        answers := by rw [hexecuted, hoperations]; exact h.answers
        counts := by rw [hsetup]; exact h.counts }
  | ends result hin hnumbers hexecuted hearns =>
    -- the call goes from the running ones to the ended ones, which only permutes the books
    have hmoved := numbers_perm (List.nodup_append.mp h.nodup).1 hin
    have hmore : results ++ world.executed = (results ++ w.world.executed) ++ [(no, result)] := by
      rw [hexecuted, List.append_assoc]
    have hlt : no < w.world.engine.nextNo := by
      obtain ⟨call, hcall, rfl⟩ := List.mem_map.mp hin
      exact h.undisturbed.orderly.no_lt call hcall
    -- only an operation that succeeds adds an answer, which is the next one of the server
    have hresult : Expected rate w.world.setup.limit w.workers.length result ∧
        (((results ++ world.executed).filterMap answer?).Perm (answersUpTo world.server.cluster.operations)) := by
      rw [hmore, List.filterMap_append]
      cases hearns with
      | succeeded hoperations =>
        refine ⟨.succeeded _, ?_⟩
        rw [hoperations, answersUpTo, List.range_succ, List.map_append]
        exact h.answers.append_right _
      | failed e hoperations hrate =>
        rw [hoperations]
        exact ⟨.failed e hrate, (List.append_nil _).symm ▸ h.answers⟩
      | rejected active pending limit hoperations hlimit =>
        rw [hoperations]
        exact ⟨.rejected _ _ _ (hlimit.trans_le h.numbers_le), (List.append_nil _).symm ▸ h.answers⟩
    exact
      { h with
        undisturbed := hundisturbed
        executing := hexecuting h.executing
        calls := by
          rw [hnumbers, hexecuted, List.map_append]
          exact h.calls.trans (hmoved _)
        nodup := by
          rw [hnumbers, hmore, List.map_append]
          exact (hmoved _).nodup_iff.mp h.nodup
        no_lt := by
          rw [hmore]
          refine fun x hx => ((List.mem_append.mp hx).elim (h.no_lt x) fun hx => ?_).trans_le hnextNo
          rw [List.mem_singleton.mp hx]
          exact hlt
        expected := by
          rw [hmore, hsetup]
          refine fun x hx => (List.mem_append.mp hx).elim (h.expected x) fun hx => ?_
          rw [List.mem_singleton.mp hx]
          exact hresult.1
        answers := hresult.2
        counts := by rw [hsetup]; exact h.counts }

/-- Time passes. -/
theorem after (h : w.Consistent rate total results) (millis : Nat) :
    Consistent rate total results { w with world := w.world.after millis } :=
  { h with
    undisturbed := h.undisturbed.after millis
    executing := { h.executing with } }

/-- Those who have finished are not changed by the others. -/
theorem finished_setWorker (h : w.Consistent rate total results) {k : Worker}
    (hk : k.activity = .finished → k.left = 0) (n : Nat) :
    ∀ j ∈ (w.setWorker n k).workers, j.activity = .finished → j.left = 0 := by
  intro j hj
  rcases List.mem_or_eq_of_mem_set hj with hin | rfl
  · exact h.finished j hin
  · exact hk

/-- A worker that waits for no call, before or after, leaves the books alone if it does not lose count. -/
theorem setWorker (h : w.Consistent rate total results) {k k' : Worker} (hk : w.workers[n]? = some k)
    (hcall : k.call? = none) (hcall' : k'.call? = none) (hleft : k'.left = k.left)
    (hfinished : k'.activity = .finished → k'.left = 0) : (w.setWorker n k').Consistent rate total results := by
  obtain ⟨rest, m, hwaited, hwaited', hbefore, hafter⟩ := waited_setWorker hk k'
  rw [hcall, Option.toList_none, List.nil_append] at hwaited
  rw [hcall', Option.toList_none, List.nil_append] at hwaited'
  have hlength : (w.setWorker n k').workers.length = w.workers.length := List.length_set
  have hconserved := h.conserved
  exact
    { h with
      calls := (hwaited'.trans hwaited.symm).trans h.calls
      expected := by rw [hlength]; exact h.expected
      counts := by rw [hlength]; exact h.counts
      conserved := by rw [hwaited'.length_eq, ← hwaited.length_eq, hafter, hleft, ← hbefore, hconserved]
      finished := h.finished_setWorker hfinished n }

/-- A worker begins its next operation. -/
theorem setOut (h : w.Consistent rate total results) {m : Nat} (hk : w.workers[n]? = some ⟨m + 1, .ready⟩) :
    (w.setOut n m).Consistent rate total results := by
  have hpurpose : Purpose.operation w.idempotent ≠ .lease := fun hpurpose => by cases hpurpose
  have hundisturbed := h.undisturbed.withCall h.awaited hpurpose (.unnamed w.world.engine.nextNo)
  rw [setOut_eq h.undisturbed]
  -- the new call takes the next number, and nobody in the books has had it
  let no := w.world.engine.nextNo
  have hnumbers : (w.world.withCall (.operation w.idempotent) (.unnamed no)).engine.numbers =
      w.world.engine.numbers ++ [no] := List.map_append
  have hfresh : no ∉ w.world.engine.numbers ++ (results ++ w.world.executed).map (·.1) := by
    intro hin
    rcases List.mem_append.mp hin with hin | hin
    · obtain ⟨call, hcall, hno⟩ := List.mem_map.mp hin
      exact absurd (h.undisturbed.orderly.no_lt call hcall) (hno ▸ Nat.lt_irrefl _)
    · obtain ⟨x, hx, hno⟩ := List.mem_map.mp hin
      exact absurd (h.no_lt x hx) (hno ▸ Nat.lt_irrefl _)
  obtain ⟨rest, l, hwaited, hwaited', hbefore, hafter⟩ := waited_setWorker hk ⟨m, .executing no⟩
  have hlength : (w.setWorker n ⟨m, .executing no⟩).workers.length = w.workers.length := List.length_set
  have hconserved := h.conserved
  refine
    { h with
      undisturbed := hundisturbed
      executing := h.executing.addCall _ _
      calls := ?_
      nodup := ?_
      no_lt := fun x hx => Nat.lt_succ_of_lt (h.no_lt x hx)
      expected := hlength.symm ▸ h.expected
      counts := hlength.symm ▸ h.counts
      conserved := ?_
      finished := h.finished_setWorker (fun hactivity => by cases hactivity) n }
  · have hothers : (no :: rest).Perm (no :: (w.world.engine.numbers ++ w.world.executed.map (·.1))) :=
      (hwaited.symm.trans h.calls).cons no
    show (w.setWorker n ⟨m, .executing no⟩).waited.Perm
      ((w.world.withCall _ _).engine.numbers ++ w.world.executed.map (·.1))
    rw [hnumbers, List.append_assoc]
    exact (hwaited'.trans hothers).trans List.perm_middle.symm
  · show ((w.world.withCall _ _).engine.numbers ++ (results ++ w.world.executed).map (·.1)).Nodup
    rw [hnumbers, List.append_assoc]
    exact List.nodup_middle.mpr (List.nodup_cons.mpr ⟨hfresh, h.nodup⟩)
  -- one operation less is left, and one more is waited for
  · have hmore : (w.setWorker n ⟨m, .executing no⟩).waited.length = w.waited.length + 1 := by
      rw [hwaited'.length_eq, hwaited.length_eq]
      exact List.length_cons
    show results.length + (w.setWorker n ⟨m, .executing no⟩).waited.length +
      (w.setWorker n ⟨m, .executing no⟩).left = total
    rw [hmore, hafter]
    rw [hbefore] at hconserved
    dsimp only at hconserved ⊢
    omega

/-- A call that has ended, and for which a worker waits, has a result. -/
theorem exists_result (h : w.Consistent rate total results) {m : Nat} {no : TaskNo}
    (hk : w.workers[n]? = some ⟨m, .executing no⟩) (hended : w.world.isRunning no = false) :
    ∃ result, w.world.executed.lookup no = some result ∧
      Expected rate w.world.setup.limit w.workers.length result := by
  have hwaits : no ∈ w.waited := List.mem_filterMap.mpr ⟨_, List.mem_of_getElem? hk, rfl⟩
  have hgone : no ∉ w.world.engine.numbers := fun hin => by
    rw [isRunning_iff.mpr hin] at hended
    cases hended
  rcases List.mem_append.mp (h.calls.subset hwaits) with hin | hin
  · exact absurd hin hgone
  · obtain ⟨x, hx, rfl⟩ := List.mem_map.mp hin
    cases hlookup : w.world.executed.lookup x.1 with
    | none =>
      have hnone := List.lookup_eq_none_iff.mp hlookup x hx
      rw [bne_self_eq_false] at hnone
      cases hnone
    | some result =>
      exact ⟨result, rfl, h.expected _ (List.mem_append_right _ (Pool.mem_of_lookup hlookup))⟩

/-- A worker takes the result of its operation. -/
theorem takeResult (h : w.Consistent rate total results) {m : Nat} {no : TaskNo}
    (hk : w.workers[n]? = some ⟨m, .executing no⟩) (hended : w.world.isRunning no = false) :
    ∃ result, w.world.executed.lookup no = some result ∧
      (w.takeResult n m no).Consistent rate total (results ++ [(no, result)]) := by
  obtain ⟨result, hresult, hexpected⟩ := h.exists_result hk hended
  obtain ⟨events, g, t, activity, heq, htallies, hactivity⟩ := takeResult_eq hresult hexpected n m
  refine ⟨result, hresult, ?_⟩
  rw [heq]
  let kept := w.world.executed.filter (·.1 ≠ no)
  have hundisturbed := h.undisturbed.noting events (w.world.visits.filter (·.1 ≠ no)) kept g
  -- no two results have one number, so only the one that is looked up is taken out
  have hkeys : (w.world.executed.map (·.1)).Nodup := by
    have hnd := (List.nodup_append.mp h.nodup).2.1
    rw [List.map_append] at hnd
    exact (List.nodup_append.mp hnd).2.1
  have hfound := perm_of_lookup hkeys hresult
  have hmoved : (results ++ w.world.executed).Perm ((results ++ [(no, result)]) ++ kept) := by
    rw [List.append_assoc]
    exact hfound.append_left results
  have hcall : (⟨m, activity⟩ : Worker).call? = none := by
    rcases hactivity with rfl | ⟨wake, rfl⟩ <;> rfl
  obtain ⟨rest, l, hwaited, hwaited', hbefore, hafter⟩ := waited_setWorker hk ⟨m, activity⟩
  rw [hcall, Option.toList_none, List.nil_append] at hwaited'
  have hlength : (w.setWorker n ⟨m, activity⟩).workers.length = w.workers.length := List.length_set
  have hconserved := h.conserved
  refine
    { undisturbed := hundisturbed
      executing := { h.executing with }
      calls := ?_
      nodup := ?_
      no_lt := fun x hx => h.no_lt x (hmoved.symm.subset hx)
      expected := hlength.symm ▸ fun x hx => h.expected x (hmoved.symm.subset hx)
      answers := (hmoved.filterMap answer?).symm.trans h.answers
      counts := hlength.symm ▸ h.counts.take htallies hexpected
      conserved := ?_
      finished := h.finished_setWorker (fun hfinished => ?_) n }
  · have hmore : (no :: rest).Perm (no :: (w.world.engine.numbers ++ kept.map (·.1))) :=
      hwaited.symm.trans ((h.calls.trans ((hfound.map (·.1)).append_left _)).trans List.perm_middle)
    exact hwaited'.trans hmore.cons_inv
  · exact ((hmoved.map (·.1)).append_left w.world.engine.numbers).nodup_iff.mp h.nodup
  · show (results ++ [(no, result)]).length + (w.setWorker n ⟨m, activity⟩).waited.length +
      (w.setWorker n ⟨m, activity⟩).left = total
    -- one operation less is waited for, and one more has been taken
    have hfewer : w.waited.length = rest.length + 1 := hwaited.length_eq
    rw [hwaited'.length_eq, hafter, List.length_append, List.length_singleton]
    rw [hfewer, hbefore] at hconserved
    dsimp only at hconserved ⊢
    omega
  · rcases hactivity with rfl | ⟨wake, rfl⟩ <;> cases hfinished

/-! ### Turns -/

/-- The books are kept in every turn, and a result that is taken is noted. -/
theorem give (h : w.Consistent rate total results) {x : Turn} (hgive : w.give x = some w') :
    w'.Consistent rate total (results ++ (w.taken? x).toList) := by
  -- only a worker that finds its call ended takes a result
  have hnothing : w.taken? x = none → w'.Consistent rate total results →
      w'.Consistent rate total (results ++ (w.taken? x).toList) := by
    intro hnone h'
    rwa [hnone, Option.toList_none, List.append_nil]
  cases x with
  | pass millis =>
    refine hnothing rfl ?_
    rw [Workload.give, h.undisturbed.tryMove_advance] at hgive
    exact Option.some.inj hgive ▸ h.after millis
  | move a =>
    cases a with
    | task no =>
      obtain ⟨world, hturn, rfl⟩ := Option.map_eq_some_iff.mp hgive
      exact hnothing rfl (h.turn hturn)
    | worker n =>
      obtain ⟨k, hk, hworks⟩ := works_of_move hgive
      cases hworks with
      | wakes left wake =>
        exact hnothing (by simp [taken?, hk, Worker.call?])
          (h.setWorker hk rfl rfl rfl fun hfinished => by cases hfinished)
      | finishes =>
        exact hnothing (by simp [taken?, hk, Worker.call?]) (h.setWorker hk rfl rfl rfl fun _ => rfl)
      | begins left => exact hnothing (by simp [taken?, hk, Worker.call?]) (h.setOut hk)
      | goesOn left no hrunning world hturn =>
        exact hnothing (by simp [taken?, hk, Worker.call?, hrunning]) (h.turn hturn)
      | takes left no hended =>
        obtain ⟨result, hresult, h'⟩ := h.takeResult hk hended
        have htaken : w.taken? (.move (.worker n)) = some (no, result) := by
          simp [taken?, hk, Worker.call?, hended, hresult]
        rwa [htaken]

/-- What does not change in a turn. -/
theorem fixed_of_give (h : w.Consistent rate total results) {x : Turn} (hgive : w.give x = some w') :
    w'.world.setup = w.world.setup ∧ w'.workers.length = w.workers.length ∧ w'.idempotent = w.idempotent := by
  cases x with
  | pass millis =>
    rw [Workload.give, h.undisturbed.tryMove_advance] at hgive
    exact Option.some.inj hgive ▸ ⟨rfl, rfl, rfl⟩
  | move a =>
    cases a with
    | task no =>
      obtain ⟨world, hturn, rfl⟩ := Option.map_eq_some_iff.mp hgive
      exact ⟨(h.undisturbed.keeps_of_turn hturn).1, rfl, rfl⟩
    | worker n =>
      obtain ⟨k, hk, hworks⟩ := works_of_move hgive
      cases hworks with
      | wakes | finishes => exact ⟨rfl, List.length_set, rfl⟩
      | begins left =>
        rw [setOut_eq h.undisturbed]
        exact ⟨rfl, List.length_set, rfl⟩
      | goesOn left no hrunning world hturn => exact ⟨(h.undisturbed.keeps_of_turn hturn).1, rfl, rfl⟩
      | takes left no hended =>
        obtain ⟨result, hresult, hexpected⟩ := h.exists_result hk hended
        obtain ⟨events, g, t, activity, heq, -⟩ := takeResult_eq hresult hexpected n left
        rw [heq]
        exact ⟨rfl, List.length_set, rfl⟩

end Consistent

/-! ## What is left to do -/

/-- What an operation counts for that has not been begun. -/
def cost (w : Workload) : Nat :=
  (Point.fresh (.operation w.idempotent)).effort w.world.setup.operations.policy + 3

/-- The time from which on a worker has a move to make. -/
def ready (w : Workload) (k : Worker) : Nat :=
  match k.activity with
  | .resting wake => wake
  | .executing no => (w.world.engine.call? no).elim 0 (·.point.ready)
  | _ => 0

/-- A bound on the turns that can be given. -/
def effort (w : Workload) : Nat := (w.workers.map (Worker.effort w.cost)).sum + w.world.effort

namespace Consistent

variable {total : Nat}

theorem effort_turn (h : w.Consistent rate total results) {no : TaskNo} {world : World}
    (hturn : w.world.turn no = some world) : ({ w with world := world } : Workload).effort < w.effort := by
  have hsetup := (h.undisturbed.keeps_of_turn hturn).1
  have hcost : ({ w with world := world } : Workload).cost = w.cost := by rw [cost, hsetup, cost]
  have hless := h.undisturbed.effort_turn (fun call hcall hcloses => by
    have hexecutes := h.executing.executes call (Engine.mem_of_call? hcall).1
    cases hpoint : call.point <;> simp [hpoint, Point.executes, Point.closes] at hexecutes hcloses)
    hturn (h.turn hturn).undisturbed
  rw [effort, hcost, effort]
  exact Nat.add_lt_add_left hless _

theorem effort_give (h : w.Consistent rate total results) {x : Turn} (hgive : w.give x = some w') :
    w'.effort + x.isMove.toNat ≤ w.effort := by
  cases x with
  | pass millis =>
    rw [Workload.give, h.undisturbed.tryMove_advance] at hgive
    exact Option.some.inj hgive ▸ Nat.le_refl _
  | move a =>
    cases a with
    | task no =>
      obtain ⟨world, hturn, rfl⟩ := Option.map_eq_some_iff.mp hgive
      exact h.effort_turn hturn
    | worker n =>
      obtain ⟨k, hk, hworks⟩ := works_of_move hgive
      -- every worker that moves has less to do than before, whatever the world has
      have hset : ∀ k', k'.effort w.cost < k.effort w.cost → (w.setWorker n k').effort < w.effort := by
        intro k' hless
        obtain ⟨s, hbefore, hafter⟩ := sum_setWorker hk k' (Worker.effort w.cost)
        show ((w.setWorker n k').workers.map (Worker.effort w.cost)).sum + w.world.effort < _ + w.world.effort
        rw [hbefore, hafter]
        omega
      cases hworks with
      | wakes left wake => exact hset _ (Nat.lt_succ_self _)
      | finishes => exact hset _ (Nat.succ_pos _)
      | begins left =>
        obtain ⟨s, hbefore, hafter⟩ :=
          sum_setWorker hk ⟨left, .executing w.world.engine.nextNo⟩ (Worker.effort w.cost)
        rw [setOut_eq h.undisturbed]
        show ((w.setWorker n ⟨left, .executing w.world.engine.nextNo⟩).workers.map (Worker.effort w.cost)).sum +
          (w.world.withCall _ _).effort < _ + w.world.effort
        rw [hbefore, hafter, World.effort_withCall]
        simp only [Worker.effort, Nat.succ_mul]
        -- each operation that is left is counted at the cost of a whole call, which the new call uses up
        have hcost : (Point.fresh (.operation w.idempotent)).effort w.world.setup.operations.policy + 3 = w.cost :=
          rfl
        omega
      | goesOn left no hrunning world hturn => exact h.effort_turn hturn
      | takes left no hended =>
        obtain ⟨result, hresult, hexpected⟩ := h.exists_result hk hended
        obtain ⟨events, g, t, activity, heq, -, hactivity⟩ := takeResult_eq hresult hexpected n left
        rw [heq]
        refine hset ⟨left, activity⟩ ?_
        rcases hactivity with rfl | ⟨wake, rfl⟩
        · exact Nat.lt_of_succ_lt (Nat.lt_succ_self _)
        · exact Nat.lt_succ_self _

/-- A worker that has not finished has a move to make when its time has come. -/
theorem isSome_moveWorker (h : w.Consistent rate total results) {k : Worker} (hk : w.workers[n]? = some k)
    (hactivity : k.activity ≠ .finished) (hready : w.ready k ≤ w.world.now) : (w.moveWorker n).isSome := by
  unfold moveWorker
  simp only [hk, Option.bind_eq_bind, Option.bind_some]
  obtain ⟨left, activity⟩ := k
  cases activity with
  | finished => exact absurd rfl hactivity
  | ready => cases left <;> rfl
  | resting wake =>
    dsimp only
    rw [if_pos (show wake ≤ w.world.now from hready)]
    rfl
  | executing no =>
    dsimp only
    cases hrunning : w.world.isRunning no with
    | false =>
      rw [if_neg Bool.false_ne_true]
      rfl
    | true =>
      obtain ⟨call, hcall⟩ := Option.isSome_iff_exists.mp hrunning
      have hpoint : call.point.ready ≤ w.world.now := by
        replace hready : (w.world.engine.call? no).elim 0 (·.point.ready) ≤ w.world.now := hready
        rwa [hcall] at hready
      rw [if_pos rfl, Option.isSome_map]
      exact h.undisturbed.isSome_turn hcall (h.executing.executes call (Engine.mem_of_call? hcall).1) hpoint

/-- As long as a worker has not finished, somebody has a move to make sooner or later. -/
theorem exists_move (h : w.Consistent rate total results)
    (hunfinished : ∃ k ∈ w.workers, k.activity ≠ .finished) :
    ∃ millis a, ((w.give (.pass millis)).bind (·.give (.move a))).isSome := by
  obtain ⟨k, hin, hactivity⟩ := hunfinished
  obtain ⟨n, hlt, hk⟩ := List.getElem_of_mem hin
  refine ⟨w.ready k - w.world.now, .worker n, ?_⟩
  rw [Workload.give, h.undisturbed.tryMove_advance, Option.bind_some]
  refine (h.after _).isSome_moveWorker (hk ▸ List.getElem?_eq_getElem hlt) hactivity ?_
  show w.ready k ≤ w.world.now + (w.ready k - w.world.now)
  omega

end Consistent

end Workload

end PooledSessions
