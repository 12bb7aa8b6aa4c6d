/-!
# Events

An event is what the library tells about its work: the part of the library that it comes from, a level,
a message and named values.

The finest level, `TRACE`, is left out, and with it the three events that are told at that level: that an idle
session is used again, that a session is still alive, and that a stream was attached to a session.  Filters
(`Directive`) know the level: one that lets it through lets everything else through as well.
-/

namespace PooledSessions

/-- How much an event matters.  `TRACE`, the finest level, is left out. -/
inductive Level
  | debug | info | warn | error
  deriving DecidableEq, Repr

namespace Level

/-- The level's name in capitals. -/
def name : Level → String
  | debug => "DEBUG"
  | info => "INFO"
  | warn => "WARN"
  | error => "ERROR"

/-- The level's rank: the graver, the smaller. -/
def rank : Level → Nat
  | error => 1
  | warn => 2
  | info => 3
  | debug => 4

end Level

/-- The part of the library that an event comes from. -/
inductive Topic
  | classification | repetition | pool | lease | monitor | settings | log | program | commandLine
  | workload
  deriving DecidableEq, Repr

namespace Topic

/-- The name under which a part of the library can be chosen by a filter. -/
def name : Topic → String
  | classification => "dbdriver_core::retry::classify"
  | repetition => "dbdriver_core::retry::run"
  | pool => "dbdriver_core::session::pool"
  | lease => "dbdriver_core::session::handle"
  | monitor => "dbdriver_core::session::keep_alive"
  | settings => "dbdriver_core::config"
  | log => "dbdriver_core::logging"
  | program => "dbdriver"
  | commandLine => "dbdriver::cli"
  | workload => "dbdriver::cli::commands::stress"

end Topic

/-- A value that belongs to an event. -/
inductive Detail
  /-- Stands on a line of the log as it is. -/
  | plain (text : String)
  /-- Stands between quotes on a line of the log. -/
  | quoted (text : String)
  deriving DecidableEq

namespace Detail

/-- The text of a value. -/
def text : Detail → String
  | plain t => t
  | quoted t => t

instance : Coe String Detail := ⟨plain⟩

end Detail

/-- Something the library reports. -/
structure Event where
  /-- Where it comes from. -/
  topic : Topic
  /-- How much it matters. -/
  level : Level
  /-- What happened. -/
  message : String
  /-- The values that belong to it, each with its name. -/
  fields : List (String × Detail)
  deriving DecidableEq

/-- The names of everything an event says, its message among them. -/
def Event.fieldNames (e : Event) : List String := "message" :: e.fields.map (·.1)

end PooledSessions
