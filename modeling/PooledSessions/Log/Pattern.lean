/-!
# Patterns of values

A directive of a filter may ask for a value of a field by a pattern.  The library opens no spans, so no
value is ever held against a pattern; but a pattern that is not well formed spoils its directive.

Patterns are regular expressions without counted repetition: groups with names or with modes, classes
in brackets that may stand inside each other, alternatives, repetition of what stands in front, and
characters after a backslash.  Classes of digits, blanks and words, borders of words and patterns that do
not tell capitals from small letters are not understood.
-/

namespace PooledSessions.Pattern

/-! ## After a backslash -/

/-- The number that hexadecimal digits write. -/
def hexNumber? (ds : List Char) : Option Nat :=
  ds.foldl (fun n c => n.bind fun n =>
    if c.isDigit then some (n * 16 + (c.toNat - '0'.toNat))
    else if 'a' ≤ c.toLower ∧ c.toLower ≤ 'f' then some (n * 16 + (c.toLower.toNat - 'a'.toNat + 10))
    else none) (some 0)

/-- The character whose code point the next `n` digits write, and the rest. -/
def codePoint? (n : Nat) (cs : List Char) : Option (Char × List Char) :=
  if cs.length < n then none
  else
    (hexNumber? (cs.take n)).bind fun v => if v.isValidChar then some (Char.ofNat v, cs.drop n) else none

/-- The marks of the first 128 characters that stand for themselves after a backslash. -/
def isMark (c : Char) : Bool := c.toNat < 128 && !c.isAlphanum && c != '<' && c != '>'

/-- What stands after a backslash: the character it means, or nothing if it means an end of the text, and
the rest. -/
def escape? : List Char → Option (Option Char × List Char)
  | [] => none
  | c :: r =>
    match c with
    | 'x' => (codePoint? 2 r).map fun (c, r) => (some c, r)
    | 'u' => (codePoint? 4 r).map fun (c, r) => (some c, r)
    | 'U' => (codePoint? 8 r).map fun (c, r) => (some c, r)
    | 'a' => some (some '\x07', r)
    | 'f' => some (some '\x0c', r)
    | 't' => some (some '\t', r)
    | 'n' => some (some '\n', r)
    | 'r' => some (some '\r', r)
    | 'v' => some (some '\x0b', r)
    | 'A' | 'z' => some (none, r)
    | _ => if isMark c then some (some c, r) else none

/-! ## Classes -/

/-- The names of the classes that are known inside brackets. -/
def classNames : List String :=
  ["alnum", "alpha", "ascii", "blank", "cntrl", "digit", "graph", "lower", "print", "punct", "space",
    "upper", "word", "xdigit"]

/-- The rest after a named class, if there is one. -/
def namedClass? (cs : List Char) : Option (List Char) :=
  match cs with
  | ':' :: r =>
    let r := if r.head? = some '^' then r.tail else r
    let name := r.takeWhile (· ≠ ':')
    match r.drop name.length with
    | ':' :: ']' :: rest => if classNames.contains (String.ofList name) then some rest else none
    | _ => none
  | _ => none

/-- What follows an opening bracket, without the signs that stand for themselves only there. -/
def enterClass (cs : List Char) : List Char :=
  let r := if cs.head? = some '^' then cs.tail else cs
  let inner := r.dropWhile (· = '-')
  if r.head? = some ']' then r.tail else inner

/-- A character of a class, and the rest. -/
def member? : List Char → Option (Char × List Char)
  | '\\' :: r =>
    match escape? r with
    | some (some c, r) => some (c, r)
    | _ => none
  | c :: r => some (c, r)
  | [] => none

/-- A character of a class or a range of them; answers the rest. -/
def range? (cs : List Char) : Option (List Char) :=
  match member? cs with
  | none => none
  | some (lo, '-' :: r) =>
    if r.head? = some ']' || r.head? = some '-' then some ('-' :: r)
    else
      match member? r with
      | some (hi, r) => if lo ≤ hi then some r else none
      | none => none
  | some (_, r) => some r

/-- The rest after classes of which `level + 1` have been opened. -/
def class? : Nat → Nat → List Char → Option (List Char)
  | 0, _, _ => none
  | fuel + 1, level, cs =>
    match cs with
    | [] => none
    | ']' :: r =>
      match level with
      | 0 => some r
      | level + 1 => class? fuel level r
    | '&' :: '&' :: r => class? fuel level r
    | '-' :: '-' :: r => class? fuel level r
    | '~' :: '~' :: r => class? fuel level r
    | '[' :: r =>
      match namedClass? r with
      | some r => class? fuel level r
      | none => class? fuel (level + 1) (enterClass r)
    | _ => (range? cs).bind (class? fuel level)

/-! ## Groups -/

/-- What an opening parenthesis begins. -/
inductive Opening
  /-- A group. -/
  | group
  /-- Modes for what follows. -/
  | modes
  deriving DecidableEq

/-- Whether a text names a group. -/
def isGroupName (name : List Char) : Bool :=
  match name with
  | [] => false
  | c :: r =>
    let isLetter (c : Char) : Bool := c == '_' || c.isAlpha || 128 ≤ c.toNat
    isLetter c && r.all fun c => isLetter c || c.isDigit || c == '.' || c == '[' || c == ']'

/-- The name of a group up to its closing angle, and the rest. -/
def groupName? (cs : List Char) : Option (List Char) :=
  let name := cs.takeWhile (· ≠ '>')
  match cs.drop name.length with
  | _ :: rest => if isGroupName name then some rest else none
  | [] => none

/-- Modes up to the colon or parenthesis that ends them: letters, of which those after a minus are
switched off.  No letter stands twice, and something stands after the minus. -/
def modes? (seen : List Char) : List Char → Option (Opening × List Char)
  | [] => none
  | ':' :: r => if seen.head? = some '-' then none else some (.group, r)
  | ')' :: r => if seen.isEmpty || seen.head? = some '-' then none else some (.modes, r)
  | c :: r =>
    let known := c == '-' || "msURux".toList.contains c || (c == 'i' && seen.contains '-')
    if known && !seen.contains c then modes? (c :: seen) r else none

/-- What an opening parenthesis begins, and the rest. -/
def opening? (cs : List Char) : Option (Opening × List Char) :=
  match cs with
  | '?' :: 'P' :: '<' :: r => (groupName? r).map (.group, ·)
  | '?' :: '<' :: r => (groupName? r).map (.group, ·)
  | '?' :: r => modes? [] r
  | _ => some (.group, cs)

/-! ## Patterns -/

/-- Whether a text goes on as a pattern inside `level` groups.  Something stands in front that can be
repeated if `repeatable`. -/
def goesOn : Nat → Nat → Bool → List Char → Bool
  | 0, _, _, _ => false
  | fuel + 1, level, repeatable, cs =>
    match cs with
    | [] => level == 0
    | c :: r =>
      match c with
      | '(' =>
        match opening? r with
        | some (.group, r) => goesOn fuel (level + 1) false r
        | some (.modes, r) => goesOn fuel level false r
        | none => false
      | ')' =>
        match level with
        | 0 => false
        | level + 1 => goesOn fuel level true r
      | '|' => goesOn fuel level false r
      | '[' =>
        match class? (r.length + 1) 0 (enterClass r) with
        | some r => goesOn fuel level true r
        | none => false
      | '\\' =>
        match escape? r with
        | some (_, r) => goesOn fuel level true r
        | none => false
      | '\x7b' => false
      | _ =>
        if c = '*' || c = '+' || c = '?' then
          repeatable && goesOn fuel level true (if r.head? = some '?' then r.tail else r)
        else goesOn fuel level true r

/-- Whether a text is a pattern. -/
def isWellFormed (cs : List Char) : Bool := goesOn (cs.length + 1) 0 false cs

end PooledSessions.Pattern
