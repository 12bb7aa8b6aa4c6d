import PooledSessions.Text.Shapeless

/-!
# Quoted text

Text inside the description of a value stands between double quotes.  A quote, a backslash and
the common controls are written with a backslash, every other character that has no shape of its
own is written by its code point, and all else stands as it is.
-/

namespace PooledSessions.Text

/-- One character of quoted text. -/
def quoteChar (c : Char) : List Char :=
  if c = '\x00' then ['\\', '0']
  else if c = '\t' then ['\\', 't']
  else if c = '\r' then ['\\', 'r']
  else if c = '\n' then ['\\', 'n']
  else if c = '"' then ['\\', '"']
  else if c = '\\' then ['\\', '\\']
  else if hasShape c then [c]
  else ['\\', 'u', '\x7b'] ++ Nat.toDigits 16 c.toNat ++ ['\x7d']

/-- The text between double quotes. -/
def quote (s : String) : String := String.ofList ('"' :: s.toList.flatMap quoteChar ++ ['"'])

end PooledSessions.Text
