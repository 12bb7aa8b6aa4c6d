/-!
# Binary fractions of double precision

A finite number of double precision is a sign and a natural number of 2^-1074 parts whose significant
bits fit 53 places.  Everything here is exact arithmetic on natural numbers: a ratio is rounded to the
nearest such number, to the even one of two, and comparison looks at the exact values.
-/

namespace PooledSessions

/-- A number of double precision. -/
inductive Binary64
  /-- No number. -/
  | nan (negative : Bool)
  /-- Beyond all finite numbers. -/
  | infinite (negative : Bool)
  /-- The number `mantissa * 2 ^ scale / 2 ^ 1074` with its sign. -/
  | finite (negative : Bool) (mantissa scale : Nat)
  deriving DecidableEq, Inhabited

namespace Binary64

/-- The number zero. -/
def zero : Binary64 := finite false 0 0

/-- The number one. -/
def one : Binary64 := finite false (1 <<< 52) 1022

/-- The quotient rounded to the nearest natural number, to the even one of two. -/
def roundQuotient (num den : Nat) : Nat :=
  let q := num / den
  let twice := 2 * (num % den)
  if twice > den || (twice == den && q % 2 == 1) then q + 1 else q

/-- The number nearest to the ratio of two natural numbers, the second one not zero. -/
def ofRatio (negative : Bool) (num den : Nat) : Binary64 :=
  let parts := num <<< 1074
  let scale := Nat.log2 (parts / den) - 52
  let m := roundQuotient parts (den <<< scale)
  let (m, scale) := if m = 1 <<< 53 then (1 <<< 52, scale + 1) else (m, scale)
  if 2045 < scale then infinite negative else finite negative m scale

/-- The number nearest to `digits * 10 ^ exponent`. -/
def ofDecimal (negative : Bool) (digits : Nat) (exponent : Int) : Binary64 :=
  if digits = 0 then finite negative 0 0
  else
    let size := (Nat.toDigits 10 digits).length
    if exponent + size > 400 then infinite negative
    else if exponent + size < -400 then finite negative 0 0
    else if 0 ≤ exponent then ofRatio negative (digits * Nat.pow 10 exponent.toNat) 1
    else ofRatio negative digits (Nat.pow 10 (-exponent).toNat)

/-- The size of a number in 2^-1074 parts, if it is finite. -/
def parts? : Binary64 → Option Int
  | finite negative m s => some (if negative then -(m <<< s : Nat) else (m <<< s : Nat))
  | _ => none

/-- Whether one number is below another.  Nothing is below or above what is no number. -/
def lt : Binary64 → Binary64 → Bool
  | nan _, _ | _, nan _ => false
  | infinite a, infinite b => a && !b
  | infinite a, finite .. => a
  | finite .., infinite b => !b
  | a@(finite ..), b@(finite ..) => (a.parts?.getD 0) < (b.parts?.getD 0)

/-- Whether a number lies between zero and one. -/
def isFraction (x : Binary64) : Bool :=
  match x with
  | nan _ => false
  | _ => !x.lt zero && !one.lt x

/-- The number brought between zero and one. -/
def clampFraction (x : Binary64) : Binary64 :=
  if x.lt zero then zero else if one.lt x then one else x

/-- The 64 bits by which the number is stored. -/
def bits : Binary64 → Nat
  | nan negative => sign negative + 0x7ff8000000000000
  | infinite negative => sign negative + 0x7ff0000000000000
  | finite negative m s =>
    sign negative + (if m < 1 <<< 52 then m else ((s + 1) <<< 52) + (m - (1 <<< 52)))
where
  /-- The bit of the sign. -/
  sign (negative : Bool) : Nat := if negative then 1 <<< 63 else 0

/-! ## Reading -/

/-- The leading decimal digits of a text, as a number and by their count, and the rest. -/
def readDigits (cs : List Char) : Nat × Nat × List Char :=
  let ds := cs.takeWhile Char.isDigit
  (ds.foldl (fun n c => n * 10 + (c.toNat - '0'.toNat)) 0, ds.length, cs.drop ds.length)

/-- A decimal exponent with its sign; nothing but it may be left. -/
def readExponent (cs : List Char) : Option Int :=
  let (negative, cs) :=
    match cs with
    | '-' :: r => (true, r)
    | '+' :: r => (false, r)
    | _ => (false, cs)
  match readDigits cs with
  | (_, 0, _) => none
  | (n, _, []) => some (if negative then -(n : Int) else n)
  | _ => none

/-- An unsigned decimal number: digits with a point among them or beside them, perhaps an exponent. -/
def readUnsigned (negative : Bool) (cs : List Char) : Option Binary64 :=
  let (whole, wholeCount, cs) := readDigits cs
  let (fraction, fractionCount, cs) :=
    match cs with
    | '.' :: r => readDigits r
    | _ => (0, 0, cs)
  if wholeCount + fractionCount = 0 then none
  else
    let value (e : Int) : Binary64 :=
      ofDecimal negative (whole * Nat.pow 10 fractionCount + fraction) (e - fractionCount)
    match cs with
    | [] => some (value 0)
    | c :: r => if c = 'e' || c = 'E' then (readExponent r).map value else none

/-- Reads a number: a sign, then decimal digits or one of the words for infinity and for no number. -/
def ofText? (s : String) : Option Binary64 :=
  let (negative, cs) :=
    match s.toList with
    | '-' :: r => (true, r)
    | '+' :: r => (false, r)
    | cs => (false, cs)
  match String.ofList (cs.map Char.toLower) with
  | "inf" | "infinity" => some (infinite negative)
  | "nan" => some (nan negative)
  | _ => readUnsigned negative cs

/-! ## Writing -/

/-- The point of a decimal grid nearest to a value, if one of the two around the value reads back as
the number.  The value is `num / den`, the grid's unit `up / down`, and the numbers that read back lie
between `lo / den` and `hi / den`, these two included if `closed`. -/
def gridPoint? (num den lo hi : Nat) (closed : Bool) (up down : Nat) : Option Nat :=
  let k := num * down / (den * up)
  let readsBack (k : Nat) : Bool :=
    let x := k * up * den
    let inside := lo * down < x && x < hi * down
    inside || (closed && (x == lo * down || x == hi * down))
  let below := readsBack k
  let above := readsBack (k + 1)
  if below && above then
    if 2 * (num * down % (den * up)) ≤ den * up then some k else some (k + 1)
  else if below then some k
  else if above then some (k + 1)
  else none

/-- The fewest decimal digits that read back as `mantissa * 2 ^ scale / 2 ^ 1074`, a positive number,
with the power of ten of the last one. -/
def shortest (m s : Nat) : Nat × Int :=
  let den := 4 <<< 1074
  let num := (4 * m) <<< s
  let hi := num + (2 <<< s)
  let lo := num - (if m = 1 <<< 52 && 0 < s then 1 <<< s else 2 <<< s)
  let closed := m % 2 == 0
  let lead : Int :=
    if den ≤ num then ((Nat.toDigits 10 (num / den)).length : Int)
    else -(((Nat.toDigits 10 (den / num)).length : Int) - 1)
  let found := (List.range 19).findSome? fun n =>
    let e : Int := lead - (n + 1 : Nat)
    let (up, down) := if 0 ≤ e then (Nat.pow 10 e.toNat, 1) else (1, Nat.pow 10 (-e).toNat)
    (gridPoint? num den lo hi closed up down).bind fun k => if k = 0 then none else some (k, e)
  let (k, e) := found.getD (0, 0)
  let zeros := ((Nat.toDigits 10 k).reverse.takeWhile (· == '0')).length
  (k / Nat.pow 10 zeros, e + zeros)

/-- Digits written without an exponent. -/
def positional (digits : Nat) (exponent : Int) : String :=
  let ds := Nat.toDigits 10 digits
  if 0 ≤ exponent then String.ofList (ds ++ List.replicate exponent.toNat '0')
  else
    let places := (-exponent).toNat
    let padded := List.replicate (places + 1 - ds.length) '0' ++ ds
    String.ofList (padded.take (padded.length - places) ++ '.' :: padded.drop (padded.length - places))

/-- The number written with the fewest digits that read back, never with an exponent. -/
def text : Binary64 → String
  | nan _ => "NaN"
  | infinite negative => if negative then "-inf" else "inf"
  | finite negative m s =>
    let sign := if negative then "-" else ""
    if m = 0 then sign ++ "0"
    else
      let (digits, exponent) := shortest m s
      sign ++ positional digits exponent

end Binary64

end PooledSessions
