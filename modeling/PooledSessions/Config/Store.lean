import PooledSessions.Config.Text
import PooledSessions.Event
import PooledSessions.Files.Environment

/-!
# Settings in files

Settings are read from a file that is named, or from the user's own file, which is written with the
defaults when it is read for the first time.
-/

namespace PooledSessions

/-- Why settings cannot be had. -/
inductive LoadError
  /-- The directory of the user's settings cannot be made. -/
  | placing (cause : FileError)
  /-- The file cannot be read. -/
  | reading (path : String) (cause : FileError)
  /-- The file does not hold settings. -/
  | parsing (path : String)
  /-- The defaults cannot be written. -/
  | writing (cause : FileError)
  deriving DecidableEq

namespace LoadError

/-- What was being done with which file. -/
def context : LoadError → Option String
  | placing _ => none
  | reading path _ => some ("reading config " ++ path)
  | parsing path => some ("parsing config " ++ path)
  | writing _ => none

/-- Why the files refused, if they did. -/
def cause : LoadError → Option FileError
  | placing c => some c
  | reading _ c => some c
  | parsing _ => none
  | writing c => some c

/-- What is said of settings that cannot be had. -/
def message (e : LoadError) : String :=
  ": ".intercalate (e.context.toList ++ (e.cause.map (·.message)).toList)

end LoadError

namespace Config

/-- The settings in a file. -/
def load (path : String) (f : Files) : Except LoadError Config :=
  match f.read path with
  | .error e => .error (.reading path e)
  | .ok text =>
    match ofText? text with
    | some c => .ok c
    | none => .error (.parsing path)

/-- Makes the directory of the user's settings, and answers the path of their file.  The files are
answered too, because directories may have been made before something failed. -/
def place (e : Environment) (f : Files) : Except FileError String × Files :=
  let (made, f) := f.makeDirectory e.configDirectory
  (made.map fun () => e.configPath, f)

/-- The event that tells of new settings. -/
def createdEvent (path : String) : Event := ⟨.settings, .info, "created default config at " ++ path, []⟩

/-- The user's settings, with the files after the reading and what is reported.  If there are none yet,
the defaults are written. -/
def loadOrInit (e : Environment) (f : Files) : Except LoadError Config × Files × List Event :=
  match place e f with
  | (.error c, f) => (.error (.placing c), f, [])
  | (.ok path, f) =>
    if f.isThere path then (load path f, f, [])
    else
      match f.write path ((toText? {}).getD "") with
      | .error c => (.error (.writing c), f, [])
      | .ok f => (.ok {}, f, [createdEvent path])

end Config

end PooledSessions
