/-!
# Turns and time

Tasks take turns: a task that gets a turn moves on until it waits.  One task stands in the foreground
and has the first turn; then the tasks in the background that have something to do are served in the
order in which they had it, until all of them wait.  Only then the clock moves, to the next time at which
something is due.
-/

namespace PooledSessions

/-- Tasks of a state `σ`, named by `τ`. -/
structure Tasks (σ τ : Type) where
  /-- What the clock shows. -/
  now : σ → Nat
  /-- Sets the clock. -/
  setClock : Nat → σ → σ
  /-- The tasks in the background, in the order in which they were started. -/
  background : σ → List τ
  /-- One move of a task, if it has one to make. -/
  move : σ → τ → Option σ
  /-- The times at which something is due. -/
  dues : σ → List Nat

/-- What is waited for in the foreground. -/
structure Goal (σ : Type) where
  /-- One move of the task in the foreground, if it has one to make. -/
  move : σ → Option σ
  /-- Whether the wait is over. -/
  reached : σ → Bool
  /-- The times at which the wait may be over. -/
  dues : σ → List Nat

/-- How many turns are given at most. -/
def patience : Nat := 1000000000000

/-- Makes moves until there is none to make. -/
def exhaust {σ : Type} (move : σ → Option σ) : Nat → σ → σ
  | 0, s => s
  | fuel + 1, s =>
    match move s with
    | some s => exhaust move fuel s
    | none => s

namespace Tasks

variable {σ τ : Type} [DecidableEq τ]

/-- The line of tasks that wait for a turn: those who stood in it, then those who now have something to
do. -/
def line (t : Tasks σ τ) (s : σ) (standing : List τ) : List τ :=
  standing ++ (t.background s).filter fun x => !standing.contains x && (t.move s x).isSome

/-- Serves the tasks in the background until all of them wait. -/
def settleLine (t : Tasks σ τ) : Nat → List τ → σ → σ
  | 0, _, s => s
  | fuel + 1, standing, s =>
    match t.line s standing with
    | [] => s
    | x :: rest => settleLine t fuel rest (exhaust (t.move · x) patience s)

/-- Serves the tasks in the background until all of them wait. -/
def settle (t : Tasks σ τ) (s : σ) : σ := t.settleLine patience [] s

/-- The next time at which something is due. -/
def nextDue (t : Tasks σ τ) (goal : Goal σ) (s : σ) : Option Nat :=
  ((t.dues s ++ goal.dues s).filter (t.now s < ·)).min?

/-- Waits until a goal is reached.  Nothing is answered if it never is. -/
def driveFor (t : Tasks σ τ) (goal : Goal σ) : Nat → σ → Option σ
  | 0, _ => none
  | fuel + 1, s =>
    let s := exhaust goal.move patience s
    if goal.reached s then some s
    else
      let s := t.settle s
      if goal.reached s || (goal.move s).isSome then driveFor t goal fuel s
      else
        match t.nextDue goal s with
        | some due => driveFor t goal fuel (t.setClock due s)
        | none => none

/-- Waits until a goal is reached.  Nothing is answered if it never is. -/
def drive (t : Tasks σ τ) (goal : Goal σ) (s : σ) : Option σ := t.driveFor goal patience s

end Tasks

end PooledSessions
