import PooledSessions.Toml.Item

/-!
# The smallest parts of a settings file

Blanks, comments, keys, texts, numbers and moments.  Every reader takes the characters that are left
and gives what it has read with the rest, or nothing if the characters do not begin as they should.
-/

namespace PooledSessions.Toml

/-! ## Between the values -/

/-- Whether a character is a blank inside a line. -/
def isBlank (c : Char) : Bool := c == ' ' || c == '\t'

/-- Drops the blanks in front. -/
def skipBlanks (cs : List Char) : List Char := cs.dropWhile isBlank

/-- Whether a character may stand in a comment: every one but the controls, and the tabulator. -/
def isPrintable (c : Char) : Bool := c == '\t' || (0x20 ≤ c.toNat && c.toNat != 0x7f)

/-- Drops the rest of a line: blanks, perhaps a comment, and the end of the line or of the text. -/
def lineEnd? (cs : List Char) : Option (List Char) :=
  let cs := skipBlanks cs
  let cs :=
    match cs with
    | '#' :: r => r.dropWhile isPrintable
    | _ => cs
  match cs with
  | [] => some []
  | '\n' :: r => some r
  | '\r' :: '\n' :: r => some r
  | _ => none

/-- Drops blanks, comments and ends of lines in front, as they may stand between the values of an
array.  The first argument bounds the number of lines. -/
def skipLines : Nat → List Char → Option (List Char)
  | 0, cs => some cs
  | n + 1, cs =>
    match skipBlanks cs with
    | [] => some []
    | c :: r =>
      if c = '#' || c = '\n' || c = '\r' then (lineEnd? (c :: r)).bind (skipLines n)
      else some (c :: r)

/-! ## Texts -/

/-- The value of a digit, of either case above nine. -/
def digitValue? (c : Char) : Option Nat :=
  if c.isDigit then some (c.toNat - '0'.toNat)
  else if 'a' ≤ c ∧ c ≤ 'f' then some (c.toNat - 'a'.toNat + 10)
  else if 'A' ≤ c ∧ c ≤ 'F' then some (c.toNat - 'A'.toNat + 10)
  else none

/-- Whether a character is a digit of a base. -/
def isDigitOf (base : Nat) (c : Char) : Bool := (digitValue? c).any (· < base)

/-- The number that digits write. -/
def ofDigits (base : Nat) (ds : List Char) : Nat :=
  ds.foldl (fun n c => n * base + (digitValue? c).getD 0) 0

/-- The character with the code point that hexadecimal digits write. -/
def charOfCode? (ds : List Char) : Option Char :=
  if ds.all (isDigitOf 16) then
    let n := ofDigits 16 ds
    if n.isValidChar then some (Char.ofNat n) else none
  else none

/-- What stands for a character after a backslash, apart from code points. -/
def escaped? : Char → Option Char
  | 'b' => some '\x08'
  | 't' => some '\t'
  | 'n' => some '\n'
  | 'f' => some '\x0c'
  | 'r' => some '\r'
  | '"' => some '"'
  | '\\' => some '\\'
  | _ => none

/-- The character that an escape writes, the backslash already read. -/
def escape? : List Char → Option (Char × List Char)
  | 'u' :: a :: b :: c :: d :: r => (charOfCode? [a, b, c, d]).map (·, r)
  | 'U' :: a :: b :: c :: d :: e :: f :: g :: h :: r =>
    (charOfCode? [a, b, c, d, e, f, g, h]).map (·, r)
  | c :: r => (escaped? c).map (·, r)
  | [] => none

/-- Puts a character in front of a text that has been read. -/
def prepend (c : Char) (t : Option (List Char × List Char)) : Option (List Char × List Char) :=
  t.map fun (s, r) => (c :: s, r)

/-- A text of one line up to its closing double quote.  The first argument bounds its length. -/
def quoted : Nat → List Char → Option (List Char × List Char)
  | 0, _ => none
  | _ + 1, [] => none
  | n + 1, c :: r =>
    if c = '"' then some ([], r)
    else if c = '\\' then (escape? r).bind fun (e, r) => prepend e (quoted n r)
    else if isPrintable c then prepend c (quoted n r)
    else none

/-- A text of one line up to its closing single quote, every character as it stands. -/
def literal : List Char → Option (List Char × List Char)
  | [] => none
  | c :: r =>
    if c = '\'' then some ([], r)
    else if isPrintable c then prepend c (literal r)
    else none

/-- The end of a text of several lines: three quotes, with up to two more that belong to the text. -/
def closing? (quote : Char) (cs : List Char) : Option (List Char × List Char) :=
  let run := (cs.takeWhile (· == quote)).length
  if run < 3 then none
  else
    let own := min (run - 3) 2
    some (List.replicate own quote, cs.drop (own + 3))

/-- Drops blanks and ends of lines in front. -/
def skipGap : List Char → List Char
  | '\r' :: '\n' :: r => skipGap r
  | c :: r => if isBlank c || c == '\n' then skipGap r else c :: r
  | [] => []

/-- A text of several lines up to its closing quotes.  In double quotes there are escapes, and a
backslash at the end of a line joins it to the next character that is neither a blank nor the end of a
line.  The first argument bounds the length. -/
def block (quote : Char) : Nat → List Char → Option (List Char × List Char)
  | 0, _ => none
  | n + 1, cs =>
    match closing? quote cs with
    | some found => some found
    | none =>
      match cs with
      | [] => none
      | '\n' :: r => prepend '\n' (block quote n r)
      | '\r' :: '\n' :: r => prepend '\n' (block quote n r)
      | c :: r =>
        if c = '\\' && quote = '"' then
          match skipBlanks r with
          | '\n' :: r => block quote n (skipGap r)
          | '\r' :: '\n' :: r => block quote n (skipGap r)
          | _ => (escape? r).bind fun (e, r) => prepend e (block quote n r)
        else if isPrintable c then prepend c (block quote n r)
        else none

/-- Drops the end of a line that follows the opening quotes at once. -/
def dropFirstLineEnd : List Char → List Char
  | '\n' :: r => r
  | '\r' :: '\n' :: r => r
  | cs => cs

/-- A text between quotes of any kind. -/
def text? (cs : List Char) : Option (String × List Char) :=
  let found :=
    match cs with
    | '"' :: '"' :: '"' :: r => block '"' (r.length + 1) (dropFirstLineEnd r)
    | '\'' :: '\'' :: '\'' :: r => block '\'' (r.length + 1) (dropFirstLineEnd r)
    | '"' :: r => quoted (r.length + 1) r
    | '\'' :: r => literal r
    | _ => none
  found.map fun (s, r) => (String.ofList s, r)

/-! ## Keys -/

/-- Whether a character may stand in a key without quotes. -/
def isBare (c : Char) : Bool := c.isAlphanum || c == '_' || c == '-'

/-- One part of a key: a text of one line in quotes, or bare characters. -/
def keyPart? (cs : List Char) : Option (String × List Char) :=
  match cs with
  | '"' :: r => (quoted (r.length + 1) r).map fun (s, r) => (String.ofList s, r)
  | '\'' :: r => (literal r).map fun (s, r) => (String.ofList s, r)
  | _ =>
    match cs.takeWhile isBare with
    | [] => none
    | s => some (String.ofList s, cs.dropWhile isBare)

/-- The parts of a key with points between them and blanks around them.  The first argument bounds
their number. -/
def keyParts? : Nat → List Char → Option (List String × List Char)
  | 0, _ => none
  | n + 1, cs =>
    (keyPart? (skipBlanks cs)).bind fun (part, r) =>
      match skipBlanks r with
      | '.' :: r => (keyParts? n r).map fun (parts, r) => (part :: parts, r)
      | r => some ([part], r)

/-- How many parts a key has at most, and how many values may stand inside each other. -/
def depthLimit : Nat := 79

/-- A key. -/
def key? (cs : List Char) : Option (Key × List Char) :=
  (keyParts? depthLimit cs).bind fun (parts, r) => (Key.ofPath? parts).map (·, r)

/-! ## Numbers -/

/-- Digits, each perhaps after one underscore. -/
def moreDigits (base : Nat) : List Char → List Char × List Char
  | [] => ([], [])
  | [c] => if isDigitOf base c then ([c], []) else ([], [c])
  | c :: d :: r =>
    if isDigitOf base c then
      let (ds, r) := moreDigits base (d :: r)
      (c :: ds, r)
    else if c = '_' && isDigitOf base d then
      let (ds, r) := moreDigits base r
      (d :: ds, r)
    else ([], c :: d :: r)

/-- A run of digits that begins with one, single underscores between them. -/
def digits? (base : Nat) : List Char → Option (List Char × List Char)
  | [] => none
  | c :: r =>
    if isDigitOf base c then
      let (ds, r) := moreDigits base r
      some (c :: ds, r)
    else none

/-- A sign that may be missing, and whether it is a minus. -/
def sign : List Char → Bool × List Char
  | '-' :: r => (true, r)
  | '+' :: r => (false, r)
  | cs => (false, cs)

/-- Decimal digits without a needless zero in front. -/
def whole? : List Char → Option (List Char × List Char)
  | '0' :: r => some (['0'], r)
  | cs => digits? 10 cs

/-- An integer, if it fits 64 bits with a sign. -/
def fitting? (n : Int) : Option Int :=
  if Int64.minValue.toInt ≤ n ∧ n ≤ Int64.maxValue.toInt then some n else none

/-- An integer: decimal with a sign, or hexadecimal, octal or binary without one. -/
def integer? (cs : List Char) : Option (Int × List Char) :=
  let unsigned (base : Nat) (cs : List Char) : Option (Int × List Char) := do
    let (ds, r) ← digits? base cs
    return (← fitting? (ofDigits base ds), r)
  match cs with
  | '0' :: 'x' :: r => unsigned 16 r
  | '0' :: 'o' :: r => unsigned 8 r
  | '0' :: 'b' :: r => unsigned 2 r
  | _ => do
    let (negative, r) := sign cs
    let (ds, r) ← whole? r
    let n := (ofDigits 10 ds : Int)
    return (← fitting? (if negative then -n else n), r)

/-- The digits after the point. -/
def fraction? : List Char → Option (List Char × List Char)
  | '.' :: r => digits? 10 r
  | _ => none

/-- The power of ten by which a number is multiplied. -/
def exponent? : List Char → Option (Int × List Char)
  | c :: r =>
    if c = 'e' || c = 'E' then
      let (negative, r) := sign r
      (digits? 10 r).map fun (ds, r) =>
        let n := (ofDigits 10 ds : Int)
        (if negative then -n else n, r)
    else none
  | [] => none

/-- A number with a fraction or an exponent, or one of the words for infinity and for no number.  One
too large to be stored is refused. -/
def float? (cs : List Char) : Option (Binary64 × List Char) :=
  let (negative, r) := sign cs
  match r with
  | 'i' :: 'n' :: 'f' :: r => some (.infinite negative, r)
  | 'n' :: 'a' :: 'n' :: r => some (.nan negative, r)
  | _ => do
    let (ds, r) ← whole? r
    let (fs, e, r) ←
      match fraction? r with
      | some (fs, r) =>
        match exponent? r with
        | some (e, r) => some (fs, e, r)
        | none => some (fs, 0, r)
      | none => (exponent? r).map fun (e, r) => ([], e, r)
    let x := Binary64.ofDecimal negative (ofDigits 10 (ds ++ fs)) (e - fs.length)
    if x = .infinite false then none else some (x, r)

/-! ## Moments -/

/-- A number of exactly so many decimal digits, within bounds. -/
def counted? (count lo hi : Nat) (cs : List Char) : Option (Nat × List Char) :=
  let ds := cs.take count
  let n := ofDigits 10 ds
  if ds.length = count && ds.all Char.isDigit && lo ≤ n && n ≤ hi then some (n, cs.drop count) else none

/-- A given character. -/
def exactly? (c : Char) : List Char → Option (List Char)
  | [] => none
  | d :: r => if d = c then some r else none

/-- How many days a month has. -/
def daysOf (year month : Nat) : Nat :=
  if month = 2 then
    if year % 400 = 0 || (year % 4 = 0 && year % 100 ≠ 0) then 29 else 28
  else if month = 4 || month = 6 || month = 9 || month = 11 then 30
  else 31

/-- Drops a day of the calendar. -/
def date? (cs : List Char) : Option (List Char) := do
  let (year, r) ← counted? 4 0 9999 cs
  let (month, r) ← counted? 2 1 12 (← exactly? '-' r)
  let (_, r) ← counted? 2 1 (daysOf year month) (← exactly? '-' r)
  return r

/-- Drops a time of day, perhaps with a fraction of a second. -/
def timeOfDay? (cs : List Char) : Option (List Char) := do
  let (_, r) ← counted? 2 0 23 cs
  let (_, r) ← counted? 2 0 59 (← exactly? ':' r)
  let (_, r) ← counted? 2 0 60 (← exactly? ':' r)
  match r with
  | '.' :: d :: s => if d.isDigit then some (s.dropWhile Char.isDigit) else none
  | '.' :: [] => none
  | _ => some r

/-- Drops the distance from universal time, if it is given. -/
def zone? (cs : List Char) : Option (List Char) :=
  match cs with
  | [] => some []
  | c :: r =>
    if c = 'Z' || c = 'z' then some r
    else if c = '+' || c = '-' then do
      let (_, r) ← counted? 2 0 23 r
      let (_, r) ← counted? 2 0 59 (← exactly? ':' r)
      return r
    else some cs

/-- Drops a date, a time of day, or both, these perhaps with a zone. -/
def moment? (cs : List Char) : Option (List Char) :=
  match date? cs with
  | none => timeOfDay? cs
  | some r =>
    match r with
    | c :: s =>
      if c = 'T' || c = 't' || c = ' ' then
        match timeOfDay? s with
        | some s => zone? s
        | none => some r
      else some r
    | [] => some r

/-! ## Values that have no parts -/

/-- A moment or a number. -/
def number? (cs : List Char) : Option (Item × List Char) :=
  match moment? cs with
  | some r => some (.moment, r)
  | none =>
    match float? cs with
    | some (x, r) => some (.float x, r)
    | none => (integer? cs).map fun (n, r) => (.integer n, r)

/-- A text, a truth value, a moment or a number. -/
def scalar? (cs : List Char) : Option (Item × List Char) :=
  match cs with
  | 't' :: 'r' :: 'u' :: 'e' :: r => some (.flag true, r)
  | 'f' :: 'a' :: 'l' :: 's' :: 'e' :: r => some (.flag false, r)
  | '"' :: _ | '\'' :: _ => (text? cs).map fun (s, r) => (.text s, r)
  | _ => number? cs

end PooledSessions.Toml
