import PooledSessions.CommandLine.Program
import PooledSessions.Time.Calendar
import Std.Time.DateTime.Timestamp

/-!
# The executable

Looks at the files that a run may touch, runs the program, and brings the changed files back to disk.
-/

namespace PooledSessions

/-- The name that stands for the working directory in front of a place. -/
def workingDirectory : String := "."

/-- The path of a place on disk. -/
def Place.onDisk (p : Place) : String :=
  match p with
  | n :: _ => if n = workingDirectory then "/".intercalate p else "/" ++ "/".intercalate p
  | [] => "/"

/-- The places that a path leads through, its own the last. -/
def Files.passed (f : Files) (path : String) : List Place :=
  ((Path.names path).foldl (fun (done, dir) n => (done ++ [Files.enter dir n], Files.enter dir n))
    (([] : List Place), f.origin path)).1

/-- What stands where a file can be opened. -/
def content (handle : IO.FS.Handle) : IO FileEntry := do
  try
    let bytes ← handle.readBinToEnd
    return ((String.fromUTF8? bytes).map .text).getD (.bytes bytes.size)
  catch _ => return .directory

/-- What stands at a place on disk. -/
def look (p : Place) : IO (Option FileEntry) := do
  try return some (← content (← IO.FS.Handle.mk p.onDisk .read))
  catch _ => return none

/-- Adds what stands along a path on disk. -/
def gather (f : Files) (path : String) : IO Files := do
  let mut f := f
  for p in f.passed path do
    match ← look p with
    | some e => f := f.put p e
    | none => pure ()
  return f

/-- Brings one change to disk. -/
def store (p : Place) (e : FileEntry) : IO Unit :=
  match e with
  | .directory => IO.FS.createDirAll p.onDisk
  | .text s => IO.FS.writeFile p.onDisk s
  | .bytes _ => pure ()

/-- What the clock shows, as lines of the log say it. -/
def stampNow : IO String := do
  let micros := (← Std.Time.Timestamp.now).toNanosecondsSinceUnixEpoch.val.toNat / 1000
  return Calendar.stamp (micros / 1000000) (micros % 1000000)

/-- Runs the program with its arguments and answers the exit code. -/
def runProgram (args : List String) : IO UInt32 := do
  let names := ["HOME", "XDG_CONFIG_HOME", "XDG_STATE_HOME", "RUST_LOG"]
  let values ← names.mapM fun n => return (n, ← IO.getEnv n)
  let e := Environment.ofVariables fun n => (values.lookup n).join
  let named : List String :=
    match Arguments.read args with
    | .ok i => i.configPath.toList
    | .error _ => []
  let mut before : Files := ⟨[workingDirectory], [([workingDirectory], .directory)]⟩
  for path in [e.configPath, e.logPath] ++ named do
    before ← gather before path
  let seed ← IO.rand 0 (UInt64.size - 1)
  let outcome := Program.run e before args (.ofSeed (UInt64.ofNat seed)) (← stampNow)
  for (p, entry) in outcome.files.entries.reverse do
    if before.entry? p ≠ some entry then store p entry
  for line in outcome.output do IO.println line
  for line in outcome.complaints do IO.eprintln line
  return UInt32.ofNat outcome.exitCode

end PooledSessions

/-- Runs the program. -/
def main (args : List String) : IO UInt32 := PooledSessions.runProgram args
