/-!
# Words

A word is a natural number below 2^64.
-/

namespace PooledSessions

/-- Reads a word: decimal digits, perhaps after a plus. -/
def wordNumber? (cs : List Char) : Option Nat :=
  let ds :=
    match cs with
    | '+' :: r => r
    | cs => cs
  if ds.isEmpty || !ds.all Char.isDigit then none
  else
    let n := ds.foldl (fun n c => n * 10 + (c.toNat - '0'.toNat)) 0
    if n < UInt64.size then some n else none

end PooledSessions
