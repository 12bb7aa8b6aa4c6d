import PooledSessions.Log.Pattern
import PooledSessions.Number.Binary64
import PooledSessions.Number.Word
import PooledSessions.Text.Alphanumeric

/-!
# Directives

A directive of a filter sets the least grave level that is logged.  It may be for the topics whose names
begin in a certain way, for what happens inside a span, and for what has a field:
`topic[span\{field=value}]=level`.

A directive is read from left to right, without the blanks at its ends.  Its pieces, however, are cut out
of the directive with its blanks, and are counted in bytes: blanks in front move every piece, and a piece
that would begin or end inside a character tears the directive.
-/

namespace PooledSessions

/-- What a directive asks of the fields. -/
structure FieldRule where
  /-- The field that has to be there. -/
  name : String
  /-- Whether its value matters. -/
  valued : Bool
  deriving DecidableEq

/-- One directive of a filter. -/
structure Directive where
  /-- How the names of its topics begin; the directive is for all topics if it is not said. -/
  target : Option String := none
  /-- The span it is for, if one is named. -/
  span : Option String := none
  /-- The field it asks for. -/
  field : Option FieldRule := none
  /-- The rank of the least grave level that is logged, or zero if nothing is logged. -/
  rank : Nat
  deriving DecidableEq

/-- What is wrong with a directive. -/
inductive DirectiveError
  /-- It is not a directive. -/
  | malformed
  /-- A piece of it is torn out of a character. -/
  | torn
  deriving DecidableEq

namespace Directive

/-! ## Pieces -/

/-- Parts a text after a number of bytes, if a character ends there. -/
def splitBytes : Nat → List Char → Option (List Char × List Char)
  | 0, cs => some ([], cs)
  | _ + 1, [] => none
  | n + 1, c :: r =>
    if c.utf8Size ≤ n + 1 then (splitBytes (n + 1 - c.utf8Size) r).map fun (a, b) => (c :: a, b)
    else none

/-- The piece of a text from one byte on. -/
def cutFrom (whole : List Char) (start : Nat) : Except DirectiveError (List Char) :=
  match splitBytes start whole with
  | some (_, r) => .ok r
  | none => .error .torn

/-- The piece of a text between two bytes. -/
def cut (whole : List Char) (start stop : Nat) : Except DirectiveError (List Char) :=
  (cutFrom whole start).bind fun r =>
    match splitBytes (stop - start) r with
    | some (piece, _) => .ok piece
    | none => .error .torn

/-- The rank of a level by its name, in letters of either case or as a number. -/
def rankOf? (cs : List Char) : Option Nat :=
  match wordNumber? cs with
  | some n => if n ≤ 5 then some n else none
  | none =>
    match String.ofList (cs.map Char.toLower) with
    | "off" => some 0
    | "" | "error" => some 1
    | "warn" => some 2
    | "info" => some 3
    | "debug" => some 4
    | "trace" => some 5
    | _ => none

/-- The rank of a directive that names no level. -/
def everything : Nat := 5

/-- Reads a field with the value that may be asked of it: a truth value, a number or a pattern. -/
def readField (piece : List Char) : Except DirectiveError FieldRule :=
  let name := piece.takeWhile (· ≠ '=')
  match piece.drop name.length with
  | [] => if piece.isEmpty then .error .malformed else .ok ⟨String.ofList name, false⟩
  | _ :: r =>
    let value := r.takeWhile (· ≠ '=')
    let isNumber := (wordNumber? value).isSome || (Binary64.ofText? (String.ofList value)).isSome
    if isNumber || Pattern.isWellFormed value then .ok ⟨String.ofList name, true⟩
    else .error .malformed

/-! ## Reading from left to right -/

/-- Where the reader stands. -/
inductive Phase
  /-- In front of the directive. -/
  | start
  /-- In a word that is a level or a topic, from a byte on. -/
  | word (start : Nat)
  /-- In the name of a span, from a byte on. -/
  | span (start : Nat)
  /-- In a field, from a byte on. -/
  | field (start : Nat)
  /-- Behind a field. -/
  | closing
  /-- Behind the brackets. -/
  | closed
  /-- In a level, from a byte on. -/
  | level (start : Nat)
  deriving DecidableEq

/-- Whether a directive may begin with a character, an opening bracket apart. -/
def isWordStart (c : Char) : Bool := c == '-' || c == ':' || c == '_' || Text.isAlphanumeric c

/-- Reads one character, which stands at a byte. -/
def readChar (whole : List Char) (at_ : Nat) (c : Char) (d : Directive) :
    Phase → Except DirectiveError (Phase × Directive)
  | .start =>
    if c = '[' then .ok (.span (at_ + 1), d)
    else if isWordStart c then .ok (.word at_, d)
    else .error .malformed
  | .word start =>
    if c = '=' || c = '[' then
      (cut whole start at_).map fun piece =>
        (if c = '=' then .level (at_ + 1) else .span (at_ + 1),
          { d with target := some (String.ofList piece) })
    else .ok (.word start, d)
  | .span start =>
    if c = ']' then
      (cut whole start at_).map fun piece => (.closed, { d with span := some (String.ofList piece) })
    else if c = '\x7b' then
      (cut whole start at_).map fun piece =>
        (.field (at_ + 1),
          { d with span := if piece.isEmpty then none else some (String.ofList piece) })
    else .ok (.span start, d)
  | .field start =>
    if c = '\x7d' then do
      let rule ← readField (← cut whole start at_)
      return (.closing, { d with field := some rule })
    else .ok (.field start, d)
  | .closing => if c = ']' then .ok (.closed, d) else .error .malformed
  | .closed => if c = '=' then .ok (.level (at_ + 1), d) else .error .malformed
  | .level start => .ok (.level start, d)

/-- Reads the characters from a byte on. -/
def readAll (whole : List Char) : List Char → Nat → Phase → Directive →
    Except DirectiveError (Phase × Directive)
  | [], _, phase, d => .ok (phase, d)
  | c :: r, at_, phase, d =>
    (readChar whole at_ c d phase).bind fun (phase, d) => readAll whole r (at_ + c.utf8Size) phase d

/-- Ends the reading of a directive. -/
def finish (whole : List Char) (d : Directive) : Phase → Except DirectiveError Directive
  | .word start =>
    (cutFrom whole start).map fun piece =>
      match rankOf? piece with
      | some r => { d with rank := r }
      | none => { d with target := some (String.ofList piece) }
  | .level start => do
    let piece ← cutFrom whole start
    if piece.isEmpty then return d
    match rankOf? piece with
    | some r => return { d with rank := r }
    | none => throw .malformed
  | .closed => .ok d
  | _ => .error .malformed

/-- Reads a directive. -/
def ofText (s : String) : Except DirectiveError Directive :=
  let whole := s.toList
  (readAll whole (Text.trimBlanks whole) 0 .start { rank := everything }).bind
    fun (phase, d) => finish whole d phase

/-! ## What a directive is for -/

/-- Whether a directive says something about what happens outside all spans. -/
def isPlain (d : Directive) : Bool := d.span.isNone && !d.field.any (·.valued)

/-- The name of the field a directive asks for. -/
def fieldName? (d : Directive) : Option String := d.field.map (·.name)

end Directive

end PooledSessions
