import PooledSessions.Files.Environment
import PooledSessions.Log.Filter
import PooledSessions.Text.Quoted

/-!
# The log

Events that the filter lets through become lines of the user's log file, each of them behind a stamp that
says when it was written.  Controls in a message that could steer a terminal are written by their code
points; values stand as they are.
-/

namespace PooledSessions

/-- A value as it stands on a line of the log. -/
def Detail.written : Detail → String
  | plain t => t
  | quoted t => Text.quote t

namespace Level

/-- The level's name, moved to the right edge of its column. -/
def column (l : Level) : String := String.ofList (List.replicate (5 - l.name.length) ' ') ++ l.name

end Level

namespace Log

/-- One character of a message. -/
def messageChar (c : Char) : List Char :=
  let hex := Nat.toDigits 16 c.toNat
  if c = '\x1b' || c = '\x07' || c = '\x08' || c = '\x0c' || c = '\x7f' then
    ['\\', 'x'] ++ List.replicate (2 - hex.length) '0' ++ hex
  else if 0x80 ≤ c.toNat ∧ c.toNat ≤ 0x9f then ['\\', 'u', '\x7b'] ++ hex ++ ['\x7d']
  else [c]

/-- A message as it stands on a line of the log. -/
def message (s : String) : String := String.ofList (s.toList.flatMap messageChar)

/-- The line of an event that is written at a time. -/
def line (stamp : String) (e : Event) : String :=
  stamp ++ " " ++ e.level.column ++ " " ++ e.topic.name ++ ": " ++ message e.message
    ++ String.join (e.fields.map fun (k, v) => " " ++ k ++ "=" ++ v.written)

end Log

/-- Why there is no log. -/
inductive LogError
  /-- Its directory cannot be made. -/
  | creating (directory : String) (cause : FileError)
  /-- Its file cannot be opened. -/
  | opening (path : String) (cause : FileError)
  /-- The events go somewhere else already. -/
  | installed
  deriving DecidableEq

namespace LogError

/-- What was being done. -/
def context : LogError → String
  | creating directory _ => "creating " ++ directory
  | opening path _ => "opening " ++ path
  | installed =>
    "installing log subscriber: a global default trace dispatcher has already been set"

/-- What is said of a log that cannot be had. -/
def message : LogError → String
  | e@(creating _ c) => e.context ++ ": " ++ c.message
  | e@(opening _ c) => e.context ++ ": " ++ c.message
  | e@installed => e.context

end LogError

namespace Log

/-- Opens the user's log file for lines to be added.  The files are answered too, because directories
may have been made before something failed. -/
def openFile (e : Environment) (f : Files) : Except LogError Unit × Files :=
  match f.makeDirectory e.logDirectory with
  | (.error c, f) => (.error (.creating e.logDirectory c), f)
  | (.ok (), f) =>
    match f.append e.logPath "" with
    | .error c => (.error (.opening e.logPath c), f)
    | .ok f => (.ok (), f)

/-- Opens the user's log file when the events go somewhere else already, which fails in the end. -/
def openSecond (e : Environment) (f : Files) : LogError × Files :=
  match openFile e f with
  | (.error c, f) => (c, f)
  | (.ok (), f) => (.installed, f)

/-- The event with which a log begins. -/
def startEvent (path : String) : Event := ⟨.log, .info, "dbdriver logging to file", [("path", path)]⟩

/-- The lines of the events that a filter lets through, written at a time. -/
def lines (filter : Filter) (stamp : String) (es : List Event) : List String :=
  (es.filter (filter.allows ·)).map (line stamp)

/-- Adds lines to the user's log file. -/
def write (e : Environment) (ls : List String) (f : Files) : Files :=
  match f.append e.logPath (String.join (ls.map (· ++ "\n"))) with
  | .ok f => f
  | .error _ => f

end Log

end PooledSessions
