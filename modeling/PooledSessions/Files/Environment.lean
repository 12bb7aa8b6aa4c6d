import PooledSessions.Files.Tree

/-!
# The user's environment

Where the settings and the log of a user are kept.  A directory that the environment names counts only
if it is named from the root; otherwise it has its usual place below the user's own directory.
-/

namespace PooledSessions

/-- What the environment says. -/
structure Environment where
  /-- The user's own directory. -/
  home : String
  /-- Where settings are kept, if it is said. -/
  configHome : Option String
  /-- Where logs are kept, if it is said. -/
  stateHome : Option String
  /-- What is logged, if it is said. -/
  logFilter : Option String

namespace Environment

/-- The environment that variables describe. -/
def ofVariables (value : String → Option String) : Environment where
  home := (value "HOME").getD "/"
  configHome := value "XDG_CONFIG_HOME"
  stateHome := value "XDG_STATE_HOME"
  logFilter := value "RUST_LOG"

/-- The program's own directory inside one that may be named or has its usual place. -/
def own (e : Environment) (named : Option String) (usual : String) : String :=
  Path.join ((named.filter (Path.isAbsolute ·)).getD (Path.join e.home usual)) "dbdriver"

/-- The directory of the settings. -/
def configDirectory (e : Environment) : String := e.own e.configHome ".config"

/-- The file of the settings. -/
def configPath (e : Environment) : String := Path.join e.configDirectory "config.toml"

/-- The directory of the log. -/
def logDirectory (e : Environment) : String := e.own e.stateHome ".local/state"

/-- The file of the log. -/
def logPath (e : Environment) : String := Path.join e.logDirectory "dbdriver.log"

end Environment

end PooledSessions
