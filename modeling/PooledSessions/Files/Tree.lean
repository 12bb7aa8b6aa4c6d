/-!
# Files

A tree of files is known by what stands at each place, a place being the names that lead to it from the
root.  Paths are texts; they lead to places from the root or from the working directory, and every name
on the way but the last must be that of a directory.
-/

namespace PooledSessions

/-- Why a file cannot be used. -/
inductive FileError
  /-- Nothing is there. -/
  | notFound
  /-- A name on the way is not that of a directory. -/
  | notADirectory
  /-- A directory stands where a file is needed. -/
  | isADirectory
  /-- A file stands where a directory is needed. -/
  | alreadyExists
  /-- The file holds bytes that are no text. -/
  | notText
  /-- A name or a path is longer than names and paths can be. -/
  | nameTooLong
  /-- A path holds a character that no path can hold. -/
  | badName
  deriving DecidableEq, Repr

/-- What is said of a file that cannot be used. -/
def FileError.message : FileError → String
  | notFound => "No such file or directory (os error 2)"
  | notADirectory => "Not a directory (os error 20)"
  | isADirectory => "Is a directory (os error 21)"
  | alreadyExists => "File exists (os error 17)"
  | notText => "stream did not contain valid UTF-8"
  | nameTooLong => "File name too long (os error 36)"
  | badName => "file name contained an unexpected NUL byte"

/-- What stands at a place. -/
inductive FileEntry
  /-- A directory. -/
  | directory
  /-- A file with a text. -/
  | text (content : String)
  /-- A file with bytes that are no text. -/
  | bytes (size : Nat)
  deriving DecidableEq

/-- The names that lead from the root to a place. -/
abbrev Place := List String

namespace Path

/-- Whether a path leads from the root. -/
def isAbsolute (p : String) : Bool := p.startsWith "/"

/-- The path that goes on from a directory. -/
def join (base p : String) : String :=
  if isAbsolute p then p
  else if base.isEmpty || base.endsWith "/" then base ++ p
  else base ++ "/" ++ p

/-- The names on a path.  A path that ends with a slash goes on to the directory itself. -/
def names (p : String) : List String :=
  (p.splitOn "/").filter (· ≠ "") ++ if p.endsWith "/" then ["."] else []

/-- How many bytes a name has at most. -/
def longestName : Nat := 255

/-- How many bytes a path has at most. -/
def longestPath : Nat := 4095

/-- Why a path leads nowhere, whatever the files are. -/
def flaw? (p : String) : Option FileError :=
  if p.contains '\x00' then some .badName
  else if longestPath < p.utf8ByteSize then some .nameTooLong
  else none

end Path

/-- A tree of files. -/
structure Files where
  /-- The working directory. -/
  here : Place
  /-- What stands at each place but the root. -/
  entries : List (Place × FileEntry)
  deriving Inhabited

namespace Files

/-- What stands at a place.  The root is a directory. -/
def entry? (f : Files) (p : Place) : Option FileEntry :=
  if p.isEmpty then some .directory else f.entries.lookup p

/-- Puts something at a place. -/
def put (f : Files) (p : Place) (e : FileEntry) : Files :=
  { f with entries := (p, e) :: f.entries.filter (·.1 ≠ p) }

/-! ## Following paths -/

/-- The place that a name leads to. -/
def enter (dir : Place) (name : String) : Place :=
  if name = "." then dir else if name = ".." then dir.dropLast else dir ++ [name]

/-- The place at which a path starts. -/
def origin (f : Files) (path : String) : Place := if Path.isAbsolute path then [] else f.here

/-- Follows names from a directory.  Nothing needs to stand at the last one. -/
def follow (f : Files) (dir : Place) : List String → Except FileError Place
  | [] => .ok dir
  | n :: ns =>
    if Path.longestName < n.utf8ByteSize then .error .nameTooLong
    else if ns.isEmpty then .ok (enter dir n)
    else
      match f.entry? (enter dir n) with
      | some .directory => follow f (enter dir n) ns
      | some _ => .error .notADirectory
      | none => .error .notFound

/-- The place that a path leads to.  The empty path leads nowhere. -/
def locate (f : Files) (path : String) : Except FileError Place :=
  match Path.flaw? path with
  | some e => .error e
  | none => if path.isEmpty then .error .notFound else f.follow (f.origin path) (Path.names path)

/-- What a path leads to. -/
def find (f : Files) (path : String) : Except FileError FileEntry := do
  match f.entry? (← f.locate path) with
  | none => throw .notFound
  | some e => return e

/-- Whether something stands where a path leads to. -/
def isThere (f : Files) (path : String) : Bool :=
  match f.find path with
  | .ok _ => true
  | .error _ => false

/-- Whether a path leads to a directory. -/
def isDirectory (f : Files) (path : String) : Bool :=
  match f.find path with
  | .ok e => e = .directory
  | .error _ => false

/-- The text of a file. -/
def read (f : Files) (path : String) : Except FileError String := do
  match ← f.find path with
  | .directory => throw .isADirectory
  | .text content => return content
  | .bytes _ => throw .notText

/-- The size of a file. -/
def size? (f : Files) (path : String) : Option Nat :=
  match f.find path with
  | .ok (.text content) => some content.utf8ByteSize
  | .ok (.bytes size) => some size
  | _ => none

/-! ## Changes -/

/-- Makes the directories along names that are missing.  A file in the way is no directory to go through;
but behind a directory that was made just now, or at the end, it is a thing that exists already.  What
has been made before something fails stays. -/
def makeAlong (dir : Place) (made : Bool) : List String → Files → Except FileError Unit × Files
  | [], f => (.ok (), f)
  | n :: ns, f =>
    if Path.longestName < n.utf8ByteSize then (.error .nameTooLong, f)
    else
      match f.entry? (enter dir n) with
      | some .directory => makeAlong (enter dir n) made ns f
      | some _ => (.error (if made || ns.isEmpty then .alreadyExists else .notADirectory), f)
      | none => makeAlong (enter dir n) true ns (f.put (enter dir n) .directory)

/-- Makes a directory with all directories on the way to it, as far as they are missing. -/
def makeDirectory (f : Files) (path : String) : Except FileError Unit × Files :=
  match Path.flaw? path with
  | some e => (.error e, f)
  | none => makeAlong (f.origin path) false (Path.names path) f

/-- Writes a file. -/
def write (f : Files) (path content : String) : Except FileError Files := do
  let place ← f.locate path
  if f.entry? place = some .directory then throw .isADirectory
  else return f.put place (.text content)

/-- Adds a text at the end of a file, which is made if it is missing. -/
def append (f : Files) (path content : String) : Except FileError Files := do
  let place ← f.locate path
  match f.entry? place with
  | none => return f.put place (.text content)
  | some .directory => throw .isADirectory
  | some (.text old) => return f.put place (.text (old ++ content))
  | some (.bytes size) => return f.put place (.bytes (size + content.utf8ByteSize))

end Files

end PooledSessions
