import PooledSessions.Number.Binary64

/-!
# The contents of a settings file

A settings file in the format TOML is a tree of tables.  A table knows where it comes from, because
that decides what may still be added to it: a table that has a header of its own takes no dotted keys
from outside, a table that dotted keys made takes no header, and an inline table is finished.
-/

namespace PooledSessions.Toml

/-- Where a table comes from. -/
inductive Origin
  /-- A header of its own. -/
  | header
  /-- The header of a table inside it. -/
  | implied
  /-- A dotted key. -/
  | dotted
  /-- Braces. -/
  | inline
  deriving DecidableEq, Repr

/-- What stands under a key. -/
inductive Item
  /-- A text. -/
  | text (s : String)
  /-- An integer. -/
  | integer (n : Int)
  /-- A number that is not an integer. -/
  | float (x : Binary64)
  /-- A truth value. -/
  | flag (b : Bool)
  /-- A date, a time of day, or both. -/
  | moment
  /-- Values between square brackets. -/
  | array (items : List Item)
  /-- Values under keys. -/
  | table (origin : Origin) (entries : List (String × Item))
  /-- The tables of a header that may be repeated, in order. -/
  | tables (elements : List (List (String × Item)))
  deriving Inhabited

/-- The keys of a table in the order of their appearance, each with what stands under it. -/
abbrev Entries := List (String × Item)

/-- A dotted key: the tables that lead to it and its last part. -/
structure Key where
  /-- The parts before the last one. -/
  parents : List String
  /-- The last part. -/
  name : String
  deriving DecidableEq

namespace Key

/-- All parts of the key. -/
def path (k : Key) : List String := k.parents ++ [k.name]

/-- The key that has these parts, if there are any. -/
def ofPath? (parts : List String) : Option Key := parts.getLast?.map fun name => ⟨parts.dropLast, name⟩

end Key

namespace Entries

/-- Replaces what stands under a key that is there. -/
def put (es : Entries) (k : String) (item : Item) : Entries :=
  es.map fun e => if e.1 = k then (k, item) else e

/-- Changes the table that a part of a header leads to.  A missing one is made, of repeated tables
the last one is meant, and there is no way through a value. -/
def descend (k : String) (change : Entries → Option Entries) (es : Entries) : Option Entries :=
  match es.lookup k with
  | none => (change []).map fun inner => es ++ [(k, .table .implied inner)]
  | some (.table .inline _) => none
  | some (.table origin inner) => (change inner).map fun inner => es.put k (.table origin inner)
  | some (.tables ts) => do
    let last ← change (← ts.getLast?)
    return es.put k (.tables (ts.dropLast ++ [last]))
  | some _ => none

/-- Changes the table at the end of a path. -/
def within (change : Entries → Option Entries) : List String → Entries → Option Entries
  | [], es => change es
  | k :: path, es => es.descend k (within change path)

/-- Opens a table by its header.  It must be new, or known only as the parent of other tables. -/
def openTable (name : String) (es : Entries) : Option Entries :=
  match es.lookup name with
  | none => some (es ++ [(name, .table .header [])])
  | some (.table .implied inner) => some (es.put name (.table .header inner))
  | some _ => none

/-- Opens one more of the tables of a header that may be repeated. -/
def openElement (name : String) (es : Entries) : Option Entries :=
  match es.lookup name with
  | none => some (es ++ [(name, .tables [[]])])
  | some (.tables ts) => some (es.put name (.tables (ts ++ [[]])))
  | some _ => none

/-- Puts a value under a dotted key.  No key is given twice, the tables on the way have no header of
their own, and the one that takes the value was made by dotted keys. -/
def assign (name : String) (item : Item) : List String → Entries → Option Entries
  | [], es => if (es.lookup name).isSome then none else some (es ++ [(name, item)])
  | k :: path, es =>
    match es.lookup k with
    | none => (assign name item path []).map fun inner => es ++ [(k, .table .dotted inner)]
    | some (.table .dotted inner) =>
      (assign name item path inner).map fun inner => es.put k (.table .dotted inner)
    | some (.table .implied inner) =>
      if path.isEmpty then none
      else (assign name item path inner).map fun inner => es.put k (.table .implied inner)
    | some (.tables ts) =>
      if path.isEmpty then none
      else do
        let last ← assign name item path (← ts.getLast?)
        return es.put k (.tables (ts.dropLast ++ [last]))
    | some _ => none

end Entries

end PooledSessions.Toml
