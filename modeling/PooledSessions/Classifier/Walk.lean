import PooledSessions.Classifier.Adapter
import PooledSessions.Event
/-!
# Classification

A classifier looks for codes in a fault, its causes and the faults inside it.  It walks them depth
first, the cause of a fault before its members.  The first transport code ends the walk; of the status
codes met until then the first one is kept.  The walk goes 32 steps deep and looks at 256 faults.  A
crashing adapter leaves the fault unclassified.
-/

namespace PooledSessions

/-- A list of adapters, asked in turn until one recognises the fault. -/
structure Classifier where
  /-- The adapters, the first one first. -/
  adapters : List Adapter

namespace Classifier

/-- The depth below which faults are looked at but not opened. -/
def maxDepth : Nat := 32

/-- How many faults are looked at. -/
def maxVisited : Nat := 256

/-- The classifier without adapters, which finds no code anywhere. -/
def empty : Classifier := ⟨[]⟩

/-- The classifier for this library's own errors and for input and output errors. -/
def standard : Classifier := ⟨[.rpc, .pool, .io]⟩

/-- The classifier with one more adapter, asked after all others. -/
def register (c : Classifier) (a : Adapter) : Classifier := ⟨c.adapters ++ [a]⟩

/-- What the first of the adapters that recognises the fault says; nothing if an adapter crashes
before that. -/
def inspectWith : List Adapter → Fault → Option Inspection
  | [], _ => some .blank
  | a :: rest, f =>
    match a f with
    | .passes => inspectWith rest f
    | .crashes => none
    | .recognises i => some i

/-- What the classifier learns about one fault; nothing if an adapter crashes. -/
def inspect (c : Classifier) (f : Fault) : Option Inspection := inspectWith c.adapters f

/-- The faults to which the walk goes from a fault at a given depth: its cause, then its members. -/
def openings (f : Fault) (i : Inspection) (depth : Nat) : List (Fault × Nat) :=
  if maxDepth ≤ depth then [] else (f.cause.toList ++ i.members).map (·, depth + 1)

/-- Looks at up to `n` of the waiting faults and of those found inside them, with the status code
found so far.  Nothing is answered if an adapter crashes. -/
def walk (c : Classifier) : Nat → List (Fault × Nat) → Option StatusCode → Option Failure
  | 0, _, status => some ⟨none, status⟩
  | _ + 1, [], status => some ⟨none, status⟩
  | n + 1, (f, depth) :: waiting, status =>
    match c.inspect f with
    | none => none
    | some i =>
      match i.code with
      | some (.transport code) => some ⟨some code, status⟩
      | some (.status code) => walk c n (openings f i depth ++ waiting) (status <|> some code)
      | none => walk c n (openings f i depth ++ waiting) status

/-- The codes found for a fault; nothing if an adapter crashes. -/
def findCodes (c : Classifier) (f : Fault) : Option Failure := c.walk maxVisited [(f, 0)] none

/-- The failure for which a fault is taken. -/
def classify (c : Classifier) (f : Fault) : Failure := (c.findCodes f).getD .unclassified

/-- The event that reports a crash during the classification of a fault. -/
def crashEvent (f : Fault) : Event :=
  ⟨.classification, .warn, "error classifier panicked; treating failure as unclassified",
    [("error", f.message)]⟩

/-- What a classification reports: nothing, unless an adapter crashed. -/
def classifyEvents (c : Classifier) (f : Fault) : List Event :=
  if (c.findCodes f).isNone then [crashEvent f] else []

/-- The classifier written with its number of adapters. -/
def describe (c : Classifier) : String :=
  "Classifier \x7b adapters: " ++ toString c.adapters.length ++ " \x7d"

end Classifier

end PooledSessions
