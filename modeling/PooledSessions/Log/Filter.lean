import PooledSessions.Event
import PooledSessions.Log.Directive

/-!
# What is logged

A filter is a list of directives.  Of those that are for an event the closest one decides: the one that
knows most of the topic's name, then the one that asks for a field, and of two that are equally close the
later.  Directives about spans never decide, because the library opens no spans.
-/

namespace PooledSessions

namespace Directive

/-- Whether a directive is for an event. -/
def caresAbout (d : Directive) (e : Event) : Bool :=
  d.isPlain && d.target.all (e.topic.name.startsWith ·) && d.fieldName?.all (e.fieldNames.contains ·)

/-- How much of a topic's name a directive knows, more than nothing if it names one. -/
def reach (d : Directive) : Nat := (d.target.map fun t => t.utf8ByteSize + 1).getD 0

/-- Whether the first of two directives for an event is closer to it than the second. -/
def isCloser (a b : Directive) : Bool :=
  if a.reach ≠ b.reach then b.reach < a.reach
  else
    match a.fieldName?, b.fieldName? with
    | some x, some y => y < x
    | some _, none => true
    | none, _ => false

end Directive

/-- What is logged. -/
abbrev Filter := List Directive

namespace Filter

/-- The filter of users who say nothing: the library's own work in detail, and what matters of the rest. -/
def standard : Filter := [{ rank := 3 }, { target := some "dbdriver_core", rank := 4 }]

/-- Reads a filter: directives with commas between them.  Without any only errors are logged. -/
def ofText (s : String) : Except DirectiveError Filter :=
  match (s.splitOn ",").filter (!·.isEmpty) with
  | [] => .ok [{ rank := 1 }]
  | parts => parts.mapM Directive.ofText

/-- The filter for what a user says, which counts only if it is a filter.  There is none at all if what
he says is torn. -/
def choose (said : Option String) : Option Filter :=
  match said.map ofText with
  | some (.ok f) => some f
  | some (.error .torn) => none
  | some (.error .malformed) | none => some standard

/-- The directive that decides about an event. -/
def decisive (f : Filter) (e : Event) : Option Directive :=
  (f.filter (·.caresAbout e)).foldl (fun best d =>
    match best with
    | some b => if b.isCloser d then some b else some d
    | none => some d) none

/-- Whether an event is logged. -/
def allows (f : Filter) (e : Event) : Bool := (f.decisive e).any (e.level.rank ≤ ·.rank)

end Filter

end PooledSessions
