import PooledSessions.Error.Fault
import PooledSessions.Failure.Class
/-!
# Adapters

Faults come from layers that do not know each other, so a code is taken from a fault by an adapter
that recognises its kind.  An adapter says what the fault itself carries: its own code, and the
faults inside it that are not its cause.  An adapter is foreign code and may crash.
-/

namespace PooledSessions

/-- What is learned about one fault, its causes left aside. -/
structure Inspection where
  /-- The code the fault itself carries. -/
  code : Option Code
  /-- The faults inside it that are not its cause. -/
  members : List Fault

/-- The inspection of a fault that nobody recognises. -/
def Inspection.blank : Inspection := ⟨none, []⟩

/-- What an adapter says about a fault. -/
inductive Verdict
  /-- The adapter does not know faults of this kind. -/
  | passes
  /-- The adapter crashes. -/
  | crashes
  /-- The adapter knows the fault. -/
  | recognises (inspection : Inspection)

/-- An adapter looks at one fault. -/
abbrev Adapter := Fault → Verdict

/-- The code that an input or output error of some kind stands for. -/
def IoKind.code : IoKind → Option Code
  | .connectionRefused | .connectionReset | .connectionAborted | .notConnected | .brokenPipe
  | .addrNotAvailable => some (.transport .unavailable)
  | .timedOut => some (.transport .deadlineExceeded)
  | .permissionDenied => some (.transport .permissionDenied)
  | _ => none

namespace Adapter

/-- Knows failed calls to the server, which carry their code. -/
def rpc : Adapter
  | .rpc e => .recognises ⟨some e.code, []⟩
  | _ => .passes

/-- Knows the pool's errors, which have no code of their own. -/
def pool : Adapter
  | .pool _ => .recognises .blank
  | _ => .passes

/-- Knows input and output errors: the kind may stand for a code, and the payload is inside. -/
def io : Adapter
  | .io kind payload => .recognises ⟨kind.code, payload.toList⟩
  | _ => .passes

/-- Knows batches, by their own code and their members. -/
def batch : Adapter
  | .batch members code _ => .recognises ⟨code, members⟩
  | _ => .passes

/-- Knows wrapped faults; the text of one may be the name of a status code. -/
def wrapped : Adapter
  | .wrapped text _ => .recognises ⟨(StatusCode.ofName? text).map .status, []⟩
  | _ => .passes

/-- Knows the numbers of the older protocol. -/
def legacy : Adapter
  | .legacy 400050 => .recognises ⟨some (.status .unavailable), []⟩
  | .legacy 400060 => .recognises ⟨some (.status .overloaded), []⟩
  | .legacy 14 => .recognises ⟨some (.transport .unavailable), []⟩
  | .legacy _ => .recognises .blank
  | _ => .passes

/-- Crashes on every fault. -/
def crashing : Adapter := fun _ => .crashes

/-- Crashes on faults of the older protocol only. -/
def crashingOnLegacy : Adapter
  | .legacy _ => .crashes
  | _ => .passes

/-- Claims to know every fault and finds nothing in it. -/
def blank : Adapter := fun _ => .recognises .blank

/-- Takes every failed call to the server for a sign of overload. -/
def rpcAsOverload : Adapter
  | .rpc _ => .recognises ⟨some (.status .overloaded), []⟩
  | _ => .passes

end Adapter

end PooledSessions
