import PooledSessions.CommandLine.Arguments
import PooledSessions.Config.Store
import PooledSessions.Log.File
import PooledSessions.Workload.Run

/-!
# The program

The program opens its log, reads its arguments and the settings, and carries out its command.  Without
a log file the events go to the lines of complaint.  A run is a function of the environment, the files
and the arguments: it answers the files it leaves behind, the lines it writes and its exit code.
-/

namespace PooledSessions

/-- What a run of the program leaves behind. -/
structure Outcome where
  /-- The code with which it ended. -/
  exitCode : Nat
  /-- The lines it wrote. -/
  output : List String
  /-- The lines of complaint. -/
  complaints : List String
  /-- The files. -/
  files : Files

namespace Program

/-- Why a command was not carried out to its end. -/
inductive Failure
  /-- There were no settings. -/
  | settings (e : LoadError)
  /-- The place of the settings could not be made. -/
  | place (e : FileError)
  /-- The settings could not be written. -/
  | unwritable
  /-- The workload was not run. -/
  | workload (e : WorkloadError)

/-- What is said of a command that was not carried out. -/
def Failure.message : Failure → String
  | settings e => e.message
  | place e => e.message
  | unwritable => Config.unwritable
  | workload e => e.message

/-- A command that has been carried out as far as possible. -/
structure Done where
  /-- The files. -/
  files : Files
  /-- What was reported. -/
  events : List Event := []
  /-- The lines that were written. -/
  output : List String := []
  /-- Why it ended too early, if it did. -/
  failure : Option Failure := none

/-- Shows the settings after the path of their file. -/
def showConfig (c : Config) (path : String) : List String × Option Failure :=
  match c.toText? with
  | some text => (("# " ++ path) :: (text.splitOn "\n").dropLast, none)
  | none => (["# " ++ path], some .unwritable)

/-- Shows the settings in effect, those of a named file or the user's own. -/
def runConfig (e : Environment) (f : Files) (c : Config) (named : Option String) : Done :=
  match named with
  | some path =>
    let (output, failure) := showConfig c path
    { files := f, output, failure }
  | none =>
    match Config.place e f with
    | (.error cause, f) => { files := f, failure := some (.place cause) }
    | (.ok path, f) =>
      let (output, failure) := showConfig c path
      { files := f, output, failure }

/-- Runs a workload and writes its report. -/
def runWorkload (f : Files) (c : Config) (o : WorkloadOptions) (g : Generator) : Done :=
  match Workload.run c o g with
  | .error e => { files := f, failure := some (.workload e) }
  | .ok r => { files := f, events := r.events, output := r.lines }

/-- The settings in effect, with the files after the reading and what is reported. -/
def settings (e : Environment) (f : Files) (named : Option String) :
    Except LoadError Config × Files × List Event :=
  match named with
  | some path => (Config.load path f, f, [])
  | none => Config.loadOrInit e f

/-- The event that shows the settings in effect. -/
def loadedEvent (c : Config) : Event := ⟨.commandLine, .debug, "loaded config: " ++ c.describe, []⟩

/-- Carries out what the arguments ask for. -/
def perform (e : Environment) (f : Files) (i : Invocation) (g : Generator) : Done :=
  match settings e f i.configPath with
  | (.error cause, f, events) => { files := f, events, failure := some (.settings cause) }
  | (.ok c, f, events) =>
    let done :=
      match i.command with
      | .config => runConfig e f c i.configPath
      | .stress o => runWorkload f c o g
    { done with events := events ++ loadedEvent c :: done.events }

/-- The event that tells of the lack of a log file. -/
def fallbackEvent (cause : LogError) : Event :=
  ⟨.program, .warn, "file logging unavailable, using stderr: " ++ cause.message, []⟩

/-- The code with which the program ends when it crashes. -/
def crashCode : Nat := 101

/-- Carries out the arguments and reports what is wrong with them. -/
def obey (e : Environment) (f : Files) (args : List String) (g : Generator) : Done × Nat :=
  match Arguments.read args with
  | .error wrong => ({ files := f }, wrong.exitCode)
  | .ok i =>
    let done := perform e f i g
    (done, if done.failure.isSome then 1 else 0)

/-- Runs the program.  Lines of the log are written at the time that `stamp` says.  What the user says is
to be logged can be such that the program crashes over it. -/
def run (e : Environment) (f : Files) (args : List String) (g : Generator) (stamp : String) : Outcome :=
  let (log, f) := Log.openFile e f
  match Filter.choose e.logFilter with
  | none => { exitCode := crashCode, output := [], complaints := [], files := f }
  | some filter =>
    let lines : List Event → List String := Log.lines filter stamp
    let complaint (done : Done) : List String :=
      done.failure.toList.map fun failure => "dbdriver error: " ++ failure.message
    match log with
    | .ok () =>
      let (done, exitCode) := obey e (Log.write e (lines [Log.startEvent e.logPath]) f) args g
      { exitCode, output := done.output, complaints := complaint done
        files := Log.write e (lines done.events) done.files }
    | .error cause =>
      let (done, exitCode) := obey e f args g
      { exitCode, output := done.output
        complaints := lines (fallbackEvent cause :: done.events) ++ complaint done
        files := done.files }

end Program

end PooledSessions
