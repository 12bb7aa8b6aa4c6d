import PooledSessions.Classifier.Walk
import PooledSessions.Retry.Policy
/-!
# Assessing failed attempts

An executor classifies the fault of a failed attempt and asks its policy what to do.  The assessment
is kept in a record, and told in an event that says whether the operation is tried again.
-/

namespace PooledSessions

/-- What became of a failed attempt. -/
structure AttemptRecord where
  /-- The number of the attempt. -/
  attempt : Nat
  /-- The codes found for its fault. -/
  failure : Failure
  /-- The delay before the next attempt, or nothing if it was the last one. -/
  delay : Option Span
  deriving DecidableEq

namespace AttemptRecord

/-- The class of the failure. -/
def failureClass (r : AttemptRecord) : FailureClass := r.failure.failureClass

/-- Whether the session of the attempt has to be given up. -/
def invalidatesSession (r : AttemptRecord) : Bool := r.failure.invalidatesSession

end AttemptRecord

/-- A classifier and a policy, by which failed attempts are assessed. -/
structure Executor where
  /-- The rules of repetition. -/
  policy : Policy
  /-- Finds the codes of a fault. -/
  classifier : Classifier

/-- A perhaps missing value written with the name of the case. -/
def optionText : Option String → String
  | none => "None"
  | some s => "Some(" ++ s ++ ")"

/-- What the assessment of a failed attempt leads to. -/
structure Assessment where
  /-- The record of the attempt. -/
  record : AttemptRecord
  /-- The generator after the draw of the delay. -/
  generator : Generator
  /-- What is reported. -/
  events : List Event

namespace Executor

/-- The event that tells of a failed attempt. -/
def attemptEvent (f : Fault) (a : Attempt) (r : AttemptRecord) : Event :=
  let rest : List (String × Detail) := [("class", r.failureClass.name),
    ("transport", optionText (r.failure.transport.map (·.title))),
    ("status", optionText (r.failure.status.map (·.title))),
    ("idempotent", toString a.idempotent),
    ("error", f.message)]
  match r.delay with
  | some d =>
    ⟨.repetition, .debug, "attempt failed; retrying",
      ("attempt", toString a.number) :: ("delay_ms", toString d.floorMillis) :: rest⟩
  | none => ⟨.repetition, .warn, "attempt failed; giving up", ("attempt", toString a.number) :: rest⟩

/-- Classifies the fault of a failed attempt and decides whether it is followed by another one. -/
def assess (x : Executor) (f : Fault) (a : Attempt) (g : Generator) : Assessment :=
  let failure := x.classifier.classify f
  let (delay, g) := x.policy.decideFresh failure a g
  let record : AttemptRecord := ⟨a.number, failure, delay⟩
  ⟨record, g, x.classifier.classifyEvents f ++ [attemptEvent f a record]⟩

/-- The executor written with its policy and whether its records are observed. -/
def describe (x : Executor) (observed : Bool) : String :=
  "RetryExecutor \x7b policy: " ++ x.policy.describe ++ ", observer: " ++ toString observed ++ " \x7d"

@[simp] theorem assess_attempt (x : Executor) (f : Fault) (a : Attempt) (g : Generator) :
    (x.assess f a g).record.attempt = a.number := rfl

@[simp] theorem assess_failure (x : Executor) (f : Fault) (a : Attempt) (g : Generator) :
    (x.assess f a g).record.failure = x.classifier.classify f := rfl

end Executor

end PooledSessions
