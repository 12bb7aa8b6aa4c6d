import PooledSessions.Proofs.Toml.Lines

/-!
# Settings files written line by line

A sheet is a settings file as people write it: lines for the outermost table, then tables one after the
other, each a header with its lines.  If no name is used twice in a table, the text of a sheet is read as
the tree of what its lines give.  A single integer that does not fit makes the text unreadable.
-/

namespace PooledSessions.Toml

/-- A settings file written line by line. -/
structure Sheet where
  /-- The lines in front of the first header. -/
  top : List Line
  /-- The names of the tables with their lines. -/
  tables : List (String × List Line)

namespace Sheet

/-! ## Texts and trees -/

/-- The text of a table. -/
def tableText (t : String × List Line) : String :=
  "[" ++ t.1 ++ "]\n" ++ String.join (t.2.map Line.text)

/-- The text of a sheet. -/
def text (d : Sheet) : String :=
  String.join (d.top.map Line.text) ++ String.join (d.tables.map tableText)

/-- All lines but the headers. -/
def lines (d : Sheet) : List Line := d.top ++ d.tables.flatMap (·.2)

/-- The tree of a table. -/
def tableEntry (t : String × List Line) : String × Item :=
  (t.1, .table .header (t.2.filterMap Line.given?))

/-- The tree of a sheet. -/
def entries (d : Sheet) : Entries := d.top.filterMap Line.given? ++ d.tables.map tableEntry

/-- The statements of a table. -/
def tableStatements (t : String × List Line) : List Statement :=
  .header ⟨[], t.1⟩ :: t.2.flatMap Line.statements

/-- A sheet whose lines are what they seem to be and that uses no name twice. -/
structure IsSound (d : Sheet) : Prop where
  /-- Every line is what it seems to be. -/
  lines : ∀ l ∈ d.lines, l.IsSound
  /-- The names of tables need no quotes. -/
  names : ∀ t ∈ d.tables, IsBareKey t.1
  /-- Tables and the keys in front of them have different names. -/
  distinct : (d.entries.map (·.1)).Nodup
  /-- The keys of a table are different. -/
  distinctKeys : ∀ t ∈ d.tables, ((t.2.filterMap Line.given?).map (·.1)).Nodup

/-- Whether every integer of a sheet fits 64 bits with a sign. -/
def Fits (d : Sheet) : Prop := ∀ l ∈ d.lines, l.Fits

instance (d : Sheet) : Decidable d.Fits := inferInstanceAs (Decidable (∀ l ∈ d.lines, l.Fits))

/-! ## Cutting -/

theorem says_table {t : String × List Line} (hname : IsBareKey t.1) (h : ∀ l ∈ t.2, l.IsSound) :
    Says (tableText t).toList
      (if ∀ l ∈ t.2, l.Fits then some (tableStatements t) else none) := by
  have header : Says ("[" ++ t.1 ++ "]\n").toList
      (if True then some [.header ⟨[], t.1⟩] else none) := by
    simpa using says_header hname
  unfold tableText
  rw [String.toList_append]
  exact header.append_if (Line.says_join t.2 h) (by simp)

theorem says_tables {ts : List (String × List Line)} (hnames : ∀ t ∈ ts, IsBareKey t.1)
    (h : ∀ t ∈ ts, ∀ l ∈ t.2, l.IsSound) :
    Says (String.join (ts.map tableText)).toList
      (if ∀ t ∈ ts, ∀ l ∈ t.2, l.Fits then some (ts.flatMap tableStatements) else none) := by
  induction ts with
  | nil => simpa using Says.nil
  | cons t ts ih =>
    have hothers := ih (fun u hu => hnames u (by simp [hu])) fun u hu => h u (by simp [hu])
    rw [List.map_cons, String.join_cons, String.toList_append, List.flatMap_cons]
    exact (says_table (hnames t (by simp)) (h t (by simp))).append_if hothers List.forall_mem_cons

/-- A sheet is cut into the statements of its lines, unless an integer does not fit. -/
theorem says_sheet {d : Sheet} (h : d.IsSound) :
    Says d.text.toList (if d.Fits then
      some (d.top.flatMap Line.statements ++ d.tables.flatMap tableStatements) else none) := by
  have htop := Line.says_join d.top fun l hl => h.lines l (by simp [lines, hl])
  have htables := says_tables h.names fun t ht l hl => h.lines l (by
    simp only [lines, List.mem_append, List.mem_flatMap]
    exact .inr ⟨t, ht, hl⟩)
  unfold text
  rw [String.toList_append]
  exact htop.append_if htables (by
    simp only [Fits, lines, List.forall_mem_append, List.forall_mem_flatMap])

end Sheet

/-! ## Carrying out -/

namespace Entries

variable {front es : Entries} {k : String} {item new : Item}

theorem lookup_eq_none (h : k ∉ es.map (·.1)) : es.lookup k = none := by
  rw [List.lookup_eq_none_iff]
  intro e he
  rw [bne_iff_ne]
  rintro rfl
  exact h (List.mem_map_of_mem he)

theorem lookup_concat (h : k ∉ front.map (·.1)) : (front ++ [(k, item)]).lookup k = some item := by
  rw [List.lookup_append, lookup_eq_none h]
  simp

theorem put_concat (h : k ∉ front.map (·.1)) : put (front ++ [(k, item)]) k new = front ++ [(k, new)] := by
  have hkept : front.map (fun e => if e.1 = k then (k, new) else e) = front := by
    have hsame : ∀ e ∈ front, (if e.1 = k then (k, new) else e) = id e := by
      intro e he
      rw [if_neg]
      · rfl
      · rintro rfl
        exact h (List.mem_map_of_mem he)
    rw [List.map_congr_left hsame, List.map_id]
  simp [put, hkept]

theorem assign_new (h : k ∉ es.map (·.1)) : assign k item [] es = some (es ++ [(k, item)]) := by
  simp [assign, lookup_eq_none h]

end Entries

namespace Document

open Entries

/-- Lines in front of the first header put what they give into the outermost table. -/
theorem perform_top (es root : Entries) (hdistinct : ((root ++ es).map (·.1)).Nodup) :
    (es.map Line.assignment).foldlM perform ⟨root, []⟩ = some ⟨root ++ es, []⟩ := by
  induction es generalizing root with
  | nil => simp
  | cons e es ih =>
    have hnew : e.1 ∉ root.map (·.1) := by
      rw [List.map_append, List.map_cons, List.nodup_append] at hdistinct
      exact fun h => hdistinct.2.2 e.1 h e.1 (by simp) rfl
    have hstep : perform ⟨root, []⟩ (Line.assignment e) = some ⟨root ++ [e], []⟩ := by
      simp [perform, Line.assignment, within, assign_new hnew]
    have hothers := ih (root ++ [e]) (by simpa using hdistinct)
    rw [List.map_cons, List.foldlM_cons, hstep]
    simpa using hothers

/-- Lines below a header put what they give into its table. -/
theorem perform_table {front : Entries} {name : String} (hapart : name ∉ front.map (·.1))
    (es inner : Entries) (hdistinct : ((inner ++ es).map (·.1)).Nodup) :
    (es.map Line.assignment).foldlM perform ⟨front ++ [(name, .table .header inner)], [name]⟩
      = some ⟨front ++ [(name, .table .header (inner ++ es))], [name]⟩ := by
  induction es generalizing inner with
  | nil => simp
  | cons e es ih =>
    have hnew : e.1 ∉ inner.map (·.1) := by
      rw [List.map_append, List.map_cons, List.nodup_append] at hdistinct
      exact fun h => hdistinct.2.2 e.1 h e.1 (by simp) rfl
    have hstep : perform ⟨front ++ [(name, .table .header inner)], [name]⟩ (Line.assignment e)
        = some ⟨front ++ [(name, .table .header (inner ++ [e]))], [name]⟩ := by
      simp [perform, Line.assignment, within, descend, lookup_concat hapart, assign_new hnew,
        put_concat hapart]
    have hothers := ih (inner ++ [e]) (by simpa using hdistinct)
    rw [List.map_cons, List.foldlM_cons, hstep]
    simpa using hothers

/-- Tables are added to the outermost table in order. -/
theorem perform_tables (ts : List (String × List Line)) (d : Document)
    (hdistinct : ((d.root ++ ts.map Sheet.tableEntry).map (·.1)).Nodup)
    (hkeys : ∀ t ∈ ts, ((t.2.filterMap Line.given?).map (·.1)).Nodup) :
    ((ts.flatMap Sheet.tableStatements).foldlM perform d).map (·.root)
      = some (d.root ++ ts.map Sheet.tableEntry) := by
  -- Which table is open changes with every header, so only the outermost table is followed.
  induction ts generalizing d with
  | nil => simp
  | cons t ts ih =>
    have hnew : t.1 ∉ d.root.map (·.1) := by
      rw [List.map_append, List.map_cons, List.map_cons, List.nodup_append] at hdistinct
      exact fun h => hdistinct.2.2 t.1 h t.1 (by simp [Sheet.tableEntry]) rfl
    have hopened : perform d (.header ⟨[], t.1⟩)
        = some ⟨d.root ++ [(t.1, .table .header [])], [t.1]⟩ := by
      simp [perform, within, openTable, Entries.lookup_eq_none hnew, Key.path]
    have hfilled := perform_table hnew (t.2.filterMap Line.given?) [] (hkeys t (by simp))
    have hothers := ih ⟨d.root ++ [Sheet.tableEntry t], [t.1]⟩ (by simpa using hdistinct)
      fun u hu => hkeys u (by simp [hu])
    rw [List.flatMap_cons, Sheet.tableStatements, Line.flatMap_statements, List.cons_append,
      List.foldlM_cons, hopened]
    simp only [Option.bind_eq_bind, Option.bind_some, List.foldlM_append]
    rw [hfilled]
    simpa [Sheet.tableEntry] using hothers

end Document

/-- Sheets are read back.  The text of a sheet is read as the tree of what its lines give, unless an
integer does not fit; then it is not read at all. -/
theorem Sheet.ofText?_text {d : Sheet} (h : d.IsSound) :
    Document.ofText? d.text = if d.Fits then some d.entries else none := by
  rw [(Sheet.says_sheet h).ofText?_eq]
  by_cases hfits : d.Fits
  · have htop := Document.perform_top (d.top.filterMap Line.given?) [] (by
      have := h.distinct
      rw [entries, List.map_append, List.nodup_append] at this
      simpa using this.1)
    have htables := Document.perform_tables d.tables ⟨d.top.filterMap Line.given?, []⟩
      h.distinct h.distinctKeys
    rw [if_pos hfits, if_pos hfits, Option.bind_some, List.foldlM_append, Line.flatMap_statements]
    simp only [Document.empty, List.nil_append] at htop ⊢
    rw [htop]
    exact htables
  · rw [if_neg hfits, if_neg hfits, Option.bind_none]

end PooledSessions.Toml
