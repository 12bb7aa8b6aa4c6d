import PooledSessions.Number.Word
import PooledSessions.Workload.Options

/-!
# Arguments

The program takes a command and options.  Arguments are read from left to right.  An option that needs a
value takes the next argument, unless that one begins with a minus, and is only taken in when the next
option is met or the arguments end: an argument that nobody knows is reported before a bad value in
front of it.  The options of a command are all taken in before the last option in front of it.
-/

namespace PooledSessions

/-- What is asked for by arguments that name no work, or what is wrong with them. -/
inductive ArgumentError
  /-- Help is asked for. -/
  | help
  /-- Nothing is asked for. -/
  | nothing
  /-- There is no command. -/
  | missingCommand
  /-- The command is not known. -/
  | unknownCommand
  /-- An argument is not known. -/
  | unknownArgument
  /-- A value is missing or empty. -/
  | missingValue
  /-- A value cannot be read. -/
  | badValue
  /-- An option is given twice. -/
  | repeated
  /-- An option that takes no value has one. -/
  | surplusValue
  deriving DecidableEq, Repr

/-- The code with which the program ends. -/
def ArgumentError.exitCode : ArgumentError → Nat
  | help => 0
  | _ => 2

/-- A command. -/
inductive Command
  /-- The settings are shown. -/
  | config
  /-- A workload is run. -/
  | stress (options : WorkloadOptions)
  deriving DecidableEq

/-- What the arguments ask for. -/
structure Invocation where
  /-- The file of the settings, if it is named. -/
  configPath : Option String
  /-- The command. -/
  command : Command
  deriving DecidableEq

namespace Arguments

/-! ## Options -/

/-- Where an option stands: in front of a command, or after it. -/
inductive Scope
  | program | config | stress
  deriving DecidableEq, Repr

/-- The command of a name. -/
def Scope.ofName? : String → Option Scope
  | "config" => some config
  | "stress" => some stress
  | _ => none

/-- An option. -/
inductive OptionName
  | help | config | workers | operations | failureRate | poolSize | seed | nonIdempotent
  deriving DecidableEq, Repr

namespace OptionName

/-- The option of a name, where it may stand. -/
def find? (scope : Scope) (name : String) : Option OptionName :=
  match name with
  | "help" => some help
  | "config" => some config
  | _ =>
    if scope = .stress then
      match name with
      | "workers" => some workers
      | "operations" => some operations
      | "failure-rate" => some failureRate
      | "pool-size" => some poolSize
      | "seed" => some seed
      | "non-idempotent" => some nonIdempotent
      | _ => none
    else none

/-- Whether an option needs a value. -/
def needsValue : OptionName → Bool
  | help | nonIdempotent => false
  | _ => true

end OptionName

/-! ## Values -/

/-- Reads a word. -/
def word64? (s : String) : Option UInt64 := (wordNumber? s.toList).map UInt64.ofNat

/-- The values that have been taken in. -/
structure Given where
  /-- The file of the settings. -/
  config : Option String := none
  /-- How many workers there are. -/
  workers : Option UInt64 := none
  /-- How many operations each worker executes. -/
  operations : Option UInt64 := none
  /-- The part of the operations that fail. -/
  failureRate : Option Binary64 := none
  /-- How many sessions there are at most. -/
  poolSize : Option UInt64 := none
  /-- Seeds the failures. -/
  seed : Option UInt64 := none
  /-- Whether operations are not safe to repeat. -/
  nonIdempotent : Bool := false

/-- Puts a value where there is none yet. -/
def fill {α : Type} (old : Option α) (value : Option α) : Except ArgumentError (Option α) :=
  if old.isSome then .error .repeated
  else
    match value with
    | some v => .ok (some v)
    | none => .error .badValue

/-- Takes in an option with the text of its value. -/
def Given.take (g : Given) (o : OptionName) (text : String) : Except ArgumentError Given :=
  match o with
  | .help => .error .help
  | .config =>
    if g.config.isSome then .error .repeated
    else if text.isEmpty then .error .missingValue
    else .ok { g with config := some text }
  | .workers => (fill g.workers (word64? text)).map fun v => { g with workers := v }
  | .operations => (fill g.operations (word64? text)).map fun v => { g with operations := v }
  | .failureRate =>
    (fill g.failureRate (Binary64.ofText? text)).map fun v => { g with failureRate := v }
  | .poolSize => (fill g.poolSize (word64? text)).map fun v => { g with poolSize := v }
  | .seed => (fill g.seed (word64? text)).map fun v => { g with seed := v }
  | .nonIdempotent =>
    if g.nonIdempotent then .error .repeated else .ok { g with nonIdempotent := true }

/-! ## Reading from left to right -/

/-- What has been read so far. -/
structure Progress where
  /-- What has been taken in. -/
  given : Given := {}
  /-- The option that was met last, with its value if it was met too, before it is taken in. -/
  pending : Option (OptionName × Option String) := none
  /-- Whether two minuses have ended the options. -/
  ended : Bool := false

namespace Progress

/-- Takes in the option that was met last. -/
def resolve (p : Progress) : Except ArgumentError Progress :=
  match p.pending with
  | none => .ok p
  | some (_, none) => .error .missingValue
  | some (o, some text) => (p.given.take o text).map fun g => { p with given := g, pending := none }

/-- Takes in an option at once. -/
def take (p : Progress) (o : OptionName) (text : String) : Except ArgumentError Progress := do
  let p ← p.resolve
  return { p with given := ← p.given.take o text }

/-- The option that waits for its value. -/
def waiting? (p : Progress) : Option OptionName :=
  match p.pending with
  | some (o, none) => some o
  | _ => none

end Progress

/-- The name after two minuses, and what stands after an equals sign. -/
def long? (arg : String) : Option (String × Option String) :=
  match arg.toList with
  | '-' :: '-' :: r =>
    let name := String.ofList (r.takeWhile (· ≠ '='))
    match r.dropWhile (· ≠ '=') with
    | _ :: value => some (name, some (String.ofList value))
    | [] => some (name, none)
  | _ => none

/-- The letters after a single minus. -/
def short? (arg : String) : Option Char :=
  match arg.toList with
  | '-' :: c :: _ => some c
  | _ => none

/-- Reads an option that is written out. -/
def readLong (scope : Scope) (name : String) (attached : Option String) (p : Progress) :
    Except ArgumentError Progress :=
  match OptionName.find? scope name with
  | none => .error .unknownArgument
  | some o =>
    match o.needsValue, attached with
    | true, some text => p.take o text
    | true, none => p.resolve.map fun p => { p with pending := some (o, none) }
    | false, some _ => .error .surplusValue
    | false, none => p.take o ""

/-- What is wrong with an argument that is neither an option nor a value. -/
def stray (scope : Scope) (arg : String) (p : Progress) : ArgumentError :=
  if scope ≠ .program then .unknownArgument
  else if p.ended && ((Scope.ofName? arg).isSome || arg == "help") then .unknownArgument
  else .unknownCommand

/-- Reads one argument that names no command. -/
def readOne (scope : Scope) (arg : String) (p : Progress) : Except ArgumentError Progress :=
  if p.ended then .error (stray scope arg p)
  else if arg = "--" then .ok { p with ended := true }
  else
    match long? arg with
    | some (name, attached) => readLong scope name attached p
    | none =>
      match short? arg with
      | some c => if c = 'h' then p.take .help "" else .error .unknownArgument
      | none =>
        match p.waiting? with
        | some o => .ok { p with pending := some (o, some arg) }
        | none => .error (stray scope arg p)

/-- Reads the arguments after a command. -/
def readAll (scope : Scope) : List String → Progress → Except ArgumentError Progress
  | [], p => p.resolve
  | arg :: args, p => (readOne scope arg p).bind (readAll scope args)

/-- What becomes of the word for help and the names after it. -/
def helpFor : List String → ArgumentError
  | [] => .help
  | [name] => if (Scope.ofName? name).isSome || name == "help" then .help else .unknownCommand
  | _ => .unknownCommand

/-- The work that has been asked for, with the usual values for what was not said. -/
def Given.workload (g : Given) : WorkloadOptions :=
  let usual : WorkloadOptions := {}
  { workers := (g.workers.map (·.toNat)).getD usual.workers
    operations := (g.operations.map (·.toNat)).getD usual.operations
    failureRate := g.failureRate.getD usual.failureRate
    poolSize := g.poolSize
    seed := g.seed
    idempotent := !g.nonIdempotent }

/-- The command with its options. -/
def command (scope : Scope) (g : Given) : Command :=
  match scope with
  | .stress => .stress g.workload
  | _ => .config

/-- Reads the arguments from the first one that has not been read.  What is said after a command counts
more than what is said in front of it. -/
def readFrom : List String → Progress → Except ArgumentError Invocation
  | [], p => do
    let p ← p.resolve
    if p.given.config.isNone then throw .nothing else throw .missingCommand
  | arg :: args, p => do
    let free := !p.ended && p.waiting?.isNone
    if free && arg == "help" then throw (helpFor args)
    match if free then Scope.ofName? arg else none with
    | some scope =>
      let inner ← readAll scope args {}
      let outer ← p.resolve
      return ⟨inner.given.config <|> outer.given.config, command scope inner.given⟩
    | none => readFrom args (← readOne .program arg p)

/-- Reads all arguments. -/
def read (args : List String) : Except ArgumentError Invocation := readFrom args {}

end Arguments

end PooledSessions
