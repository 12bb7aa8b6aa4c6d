import Mathlib
import PooledSessions.Classifier.Walk
/-!
# The code that decides

The walk of a classifier visits the faults inside a fault in a fixed order: a fault, then all that is inside
its cause, then all that is inside its members one after another (`Classifier.spread`).  No more than 256 of
them are looked at (`Classifier.reached`), and a transport code ends the walk before that.

So one of the codes within these bounds decides on the class of the failure: the first transport code, or
the first status code if there is no transport code (`Classifier.decidingCode`).  All other codes have no
influence, whatever their classes are.
-/

namespace PooledSessions

/-- Whether a code comes from the transport. -/
def Code.isTransport : Code → Bool
  | transport _ => true
  | status _ => false

/-- The class to which a code belongs; without a code nothing is tried again. -/
def FailureClass.ofCode? (code : Option Code) : FailureClass := (code.map ofCode).getD nonRetryable

namespace Classifier

/-- The faults that are found directly inside a fault: its cause, then its members. -/
def inside (c : Classifier) (f : Fault) : List Fault :=
  f.cause.toList ++ ((c.inspect f).getD .blank).members

/-- A fault and all faults inside it down to a depth, in the order in which they are visited. -/
def spread (c : Classifier) : Nat → Fault → List Fault
  | 0, f => [f]
  | depth + 1, f => f :: (c.inside f).flatMap (c.spread depth)

/-- The faults within the bounds of the walk, as if no code ended it. -/
def reached (c : Classifier) (f : Fault) : List Fault := (c.spread maxDepth f).take maxVisited

/-- The code that a fault itself carries. -/
def codeOf (c : Classifier) (f : Fault) : Option Code := (c.inspect f).bind (·.code)

/-- The codes within the bounds of the walk. -/
def codes (c : Classifier) (f : Fault) : List Code := (c.reached f).filterMap c.codeOf

/-- The code that decides on the class of a fault: the first transport code, or else the first code. -/
def decidingCode (c : Classifier) (f : Fault) : Option Code :=
  (c.codes f).find? Code.isTransport <|> (c.codes f).head?

variable (c : Classifier)

/-! ## The walk in order -/

/-- Looks at faults one after another until a transport code is found, with the status code found so far.
Nothing is answered if an adapter crashes. -/
def scan : List Fault → Option StatusCode → Option Failure
  | [], status => some ⟨none, status⟩
  | f :: faults, status =>
    match c.inspect f with
    | none => none
    | some i =>
      match i.code with
      | some (.transport code) => some ⟨some code, status⟩
      | some (.status code) => scan faults (status <|> some code)
      | none => scan faults status

/-- All faults that wait, and those inside them, in the order in which they are visited. -/
def line (waiting : List (Fault × Nat)) : List Fault :=
  waiting.flatMap fun x => c.spread (maxDepth - x.2) x.1

/-- A fault stands in front of those inside it, and these in front of the others that wait. -/
theorem line_cons {f : Fault} {i : Inspection} (hinspect : c.inspect f = some i) (depth : Nat)
    (waiting : List (Fault × Nat)) :
    c.line ((f, depth) :: waiting) = f :: c.line (openings f i depth ++ waiting) := by
  unfold line openings
  rw [List.flatMap_cons, List.flatMap_append]
  by_cases hdeep : maxDepth ≤ depth
  · rw [if_pos hdeep, Nat.sub_eq_zero_of_le hdeep]
    rfl
  · have hmore : maxDepth - depth = maxDepth - (depth + 1) + 1 := by omega
    have hinside : c.inside f = f.cause.toList ++ i.members := by
      rw [inside, hinspect]
      rfl
    rw [if_neg hdeep, hmore, spread, hinside, List.flatMap_map]
    rfl

/-- A crash on a fault is met whatever waits behind it. -/
theorem exists_line_cons (f : Fault) (depth : Nat) (waiting : List (Fault × Nat)) :
    ∃ rest, c.line ((f, depth) :: waiting) = f :: rest := by
  unfold line
  rw [List.flatMap_cons]
  cases maxDepth - depth with
  | zero => exact ⟨_, rfl⟩
  | succ k => exact ⟨_, rfl⟩

/-- The walk looks at the faults one after another in this order. -/
theorem walk_eq_scan (n : Nat) (waiting : List (Fault × Nat)) (status : Option StatusCode) :
    c.walk n waiting status = c.scan ((c.line waiting).take n) status := by
  induction n generalizing waiting status with
  | zero => cases waiting <;> rfl
  | succ n ih =>
    cases waiting with
    | nil => rfl
    | cons x waiting =>
      obtain ⟨f, depth⟩ := x
      cases hinspect : c.inspect f with
      | none =>
        obtain ⟨rest, hline⟩ := c.exists_line_cons f depth waiting
        rw [hline, List.take_succ_cons, walk, scan, hinspect]
      | some i =>
        rw [c.line_cons hinspect, List.take_succ_cons, walk, scan, hinspect]
        dsimp only
        cases i.code with
        | none => exact ih _ _
        | some code =>
          cases code with
          | transport code => rfl
          | status code => exact ih _ _

theorem findCodes_eq_scan (f : Fault) : c.findCodes f = c.scan (c.reached f) none := by
  have hline : c.line [(f, 0)] = c.spread maxDepth f := List.append_nil _
  rw [findCodes, walk_eq_scan, hline, reached]

/-! ## The class -/

/-- The class of the failure that is found depends on one code only. -/
theorem failureClass_of_scan {faults : List Fault} {status : Option StatusCode} {failure : Failure}
    (h : c.scan faults status = some failure) :
    failure.failureClass = FailureClass.ofCode? ((faults.filterMap c.codeOf).find? Code.isTransport <|>
      status.map Code.status <|> (faults.filterMap c.codeOf).head?) := by
  induction faults generalizing status with
  | nil =>
    cases h
    cases status <;> rfl
  | cons f faults ih =>
    rw [scan] at h
    cases hinspect : c.inspect f with
    | none =>
      rw [hinspect] at h
      cases h
    | some i =>
      rw [hinspect] at h
      dsimp only at h
      have hcode : c.codeOf f = i.code := by
        rw [codeOf, hinspect]
        rfl
      cases hcarried : i.code with
      | none =>
        rw [hcarried] at h hcode
        rw [List.filterMap_cons_none hcode]
        exact ih h
      | some code =>
        rw [hcarried] at h hcode
        rw [List.filterMap_cons_some hcode]
        cases code with
        | transport code =>
          cases h
          rfl
        -- a status code counts only if none was found before, and gives way to a transport code behind it
        | status code =>
          rw [ih h, List.find?_cons_of_neg (by simp [Code.isTransport])]
          cases status <;> cases (faults.filterMap c.codeOf).find? Code.isTransport <;> rfl

/-- The class of a fault is that of the deciding code, unless an adapter crashes before that is found. -/
theorem failureClass_classify (f : Fault) :
    c.classify f = .unclassified ∨
      (c.classify f).failureClass = .ofCode? (c.decidingCode f) := by
  cases hfound : c.findCodes f with
  | none => exact Or.inl (by rw [classify, hfound]; rfl)
  | some failure =>
    refine Or.inr ?_
    rw [findCodes_eq_scan] at hfound
    rw [classify, findCodes_eq_scan, hfound]
    exact c.failureClass_of_scan hfound

end Classifier

end PooledSessions
