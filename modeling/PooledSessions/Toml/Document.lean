import PooledSessions.Toml.Scalar

/-!
# Settings files

A settings file is a sequence of statements, each on lines of its own: a header opens a table and every
value that follows goes into it.  Reading a file has two steps.  The text is cut into statements, and
the statements are carried out one after the other on the tree of tables.
-/

namespace PooledSessions.Toml

/-! ## Values -/

/-- Items with commas between them and lines around them, up to the closing bracket.  A comma may
follow the last one.  The first argument bounds their number. -/
def elements (item : List Char → Option (Item × List Char)) :
    Nat → List Char → Option (List Item × List Char)
  | 0, _ => none
  | n + 1, cs => do
    match ← skipLines (cs.length + 1) cs with
    | ']' :: r => return ([], r)
    | cs =>
      let (first, r) ← item cs
      match ← skipLines (r.length + 1) r with
      | ']' :: r => return ([first], r)
      | ',' :: r =>
        let (others, r) ← elements item n r
        return (first :: others, r)
      | _ => none

/-- Keys with their values, with commas between them, up to the closing brace.  The first argument
bounds their number. -/
def members (item : List Char → Option (Item × List Char)) :
    Nat → List Char → Option (List (Key × Item) × List Char)
  | 0, _ => none
  | n + 1, cs => do
    let (k, r) ← key? cs
    let (v, r) ← item (skipBlanks (← exactly? '=' r))
    match skipBlanks r with
    | '\x7d' :: r => return ([(k, v)], r)
    | ',' :: r =>
      let (others, r) ← members item n r
      return ((k, v) :: others, r)
    | _ => none

/-- The table that keys with their values make. -/
def inlineTable? (ms : List (Key × Item)) : Option Item :=
  (ms.foldlM (fun es m => Entries.assign m.1.name m.2 m.1.parents es) []).map (.table .inline ·)

/-- A value, with at most so many arrays and inline tables inside each other. -/
def value? : Nat → List Char → Option (Item × List Char)
  | 0, cs => scalar? cs
  | depth + 1, cs =>
    match cs with
    | '[' :: r => (elements (value? depth) (r.length + 1) r).map fun (items, r) => (.array items, r)
    | '\x7b' :: r =>
      match skipBlanks r with
      | '\x7d' :: r => some (.table .inline [], r)
      | r => do
        let (ms, r) ← members (value? depth) (r.length + 1) r
        return (← inlineTable? ms, r)
    | _ => scalar? cs

/-! ## Statements -/

/-- One statement of a settings file. -/
inductive Statement
  /-- The header of a table. -/
  | header (key : Key)
  /-- The header of one of several tables. -/
  | element (key : Key)
  /-- A value under its key. -/
  | entry (key : Key) (item : Item)

/-- A statement without the end of its line. -/
def statement? (cs : List Char) : Option (Statement × List Char) :=
  match cs with
  | '[' :: '[' :: r => do
    let (k, r) ← key? r
    return (.element k, ← exactly? ']' (← exactly? ']' r))
  | '[' :: r => do
    let (k, r) ← key? r
    return (.header k, ← exactly? ']' r)
  | _ => do
    let (k, r) ← key? cs
    let (v, r) ← value? depthLimit (skipBlanks (← exactly? '=' r))
    return (.entry k v, r)

/-- The statements of a text.  The first argument bounds the number of lines. -/
def statements : Nat → List Char → Option (List Statement)
  | 0, _ => none
  | n + 1, cs =>
    match skipBlanks cs with
    | [] => some []
    | c :: r =>
      if c = '#' || c = '\n' || c = '\r' then (lineEnd? (c :: r)).bind (statements n)
      else do
        let (s, r) ← statement? (c :: r)
        let others ← statements n (← lineEnd? r)
        return s :: others

/-! ## Tables -/

/-- A settings file up to a statement: the tree of tables, and the path of the table that is open. -/
structure Document where
  /-- The outermost table. -/
  root : Entries
  /-- The header of the open table. -/
  current : List String

namespace Document

/-- A file without statements. -/
def empty : Document := ⟨[], []⟩

/-- Carries out a statement, unless it gives a key twice or extends what is finished. -/
def perform (d : Document) : Statement → Option Document
  | .header k => (Entries.within (Entries.openTable k.name) k.parents d.root).map (⟨·, k.path⟩)
  | .element k => (Entries.within (Entries.openElement k.name) k.parents d.root).map (⟨·, k.path⟩)
  | .entry k v =>
    (Entries.within (Entries.assign k.name v k.parents) d.current d.root).map (⟨·, d.current⟩)

/-- The tree of tables that a settings file writes.  A mark of the byte order in front is dropped. -/
def ofText? (s : String) : Option Entries := do
  let cs :=
    match s.toList with
    | '\ufeff' :: r => r
    | cs => cs
  let d ← (← statements (cs.length + 1) cs).foldlM perform empty
  return d.root

end Document

end PooledSessions.Toml
