import PooledSessions.Proofs.Config.Overlay

/-!
# Settings written and read back

The text that is written for a configuration is a sheet: a table for each group, with a line for each
setting.  It gives every setting its own value, so reading it replaces all defaults and yields the same
configuration again.  Remarks in front of it change nothing.
-/

namespace PooledSessions

open Toml (Item Entries Line Sheet)

namespace Config

/-! ## The sheet of a configuration -/

/-- Lines for settings. -/
def numberLines (fields : List (String × Nat)) : List Line := fields.map fun (k, n) => .number k n

/-- The sheet of a configuration, with remarks in front. -/
def sheet (remarks : List String) (c : Config) : Sheet where
  top := remarks.map .remark
  tables := [("pool", numberLines (poolFields c.pool) ++ [.remark ""]),
    ("retry", numberLines (retryFields c.retry))]

theorem join_numberLines (fields : List (String × Nat)) :
    String.join ((numberLines fields).map Line.text)
      = String.join (fields.map fun (k, n) => k ++ " = " ++ toString n ++ "\n") := by
  rw [numberLines, List.map_map]
  rfl

/-- What is written for a configuration is the text of its sheet. -/
theorem text_sheet {c : Config} {text : String} (h : c.toText? = some text) (remarks : List String) :
    (sheet remarks c).text = String.join (remarks.map (· ++ "\n")) ++ text := by
  unfold toText? at h
  split at h
  next =>
    cases h
    have htop : (remarks.map Line.remark).map Line.text = remarks.map (· ++ "\n") := by
      rw [List.map_map]
      rfl
    simp only [Sheet.text, sheet, htop, List.map_cons, List.map_nil, Sheet.tableText, List.map_append,
      String.join_append, join_numberLines, String.join_cons, String.join_nil]
    simp [groupText, Line.text, String.append_assoc]
  next => cases h

/-- The tree of a group. -/
def numberEntries (fields : List (String × Nat)) : Entries :=
  fields.map fun (k, n) => (k, .integer n)

theorem filterMap_remarks (remarks : List String) :
    (remarks.map Line.remark).filterMap Line.given? = [] := by
  simp [List.filterMap_map, Function.comp_def, Line.given?]

theorem filterMap_numberLines (fields : List (String × Nat)) :
    (numberLines fields).filterMap Line.given? = numberEntries fields := by
  simp [numberLines, numberEntries, List.filterMap_map, Function.comp_def, Line.given?]

/-- The blank line behind the first group gives nothing. -/
theorem filterMap_poolLines (fields : List (String × Nat)) :
    (numberLines fields ++ [Line.remark ""]).filterMap Line.given? = numberEntries fields := by
  rw [List.filterMap_append, filterMap_numberLines, ← List.map_singleton, filterMap_remarks,
    List.append_nil]

/-- The sheet of a configuration gives two tables. -/
theorem entries_sheet (remarks : List String) (c : Config) :
    (sheet remarks c).entries = [("pool", .table .header (numberEntries (poolFields c.pool))),
      ("retry", .table .header (numberEntries (retryFields c.retry)))] := by
  simp only [Sheet.entries, sheet, Sheet.tableEntry, List.map_cons, List.map_nil, filterMap_remarks,
    filterMap_poolLines, filterMap_numberLines, List.nil_append]

/-- Every line of the sheet is a remark or states a setting. -/
theorem mem_lines_sheet {remarks : List String} {c : Config} {l : Line}
    (h : l ∈ (sheet remarks c).lines) :
    (∃ t, l = .remark t ∧ (t ∈ remarks ∨ t = "")) ∨ ∃ s : Setting, l = .number s.name (c.value s) := by
  simp only [Sheet.lines, sheet, numberLines, poolFields, retryFields, List.map_cons, List.map_nil,
    List.flatMap_cons, List.flatMap_nil, List.mem_append, List.mem_map, List.mem_cons,
    List.not_mem_nil, or_false] at h
  rcases h with ⟨t, ht, rfl⟩ | ((rfl | rfl | rfl | rfl) | rfl) | (rfl | rfl | rfl | rfl | rfl)
  · exact .inl ⟨t, rfl, .inl ht⟩
  · exact .inr ⟨.sizeLimit, rfl⟩
  · exact .inr ⟨.creationMaxAttempts, rfl⟩
  · exact .inr ⟨.createTimeoutMs, rfl⟩
  · exact .inr ⟨.deleteTimeoutMs, rfl⟩
  · exact .inl ⟨"", rfl, .inr rfl⟩
  · exact .inr ⟨.maxAttempts, rfl⟩
  · exact .inr ⟨.fastBaseMs, rfl⟩
  · exact .inr ⟨.fastCapMs, rfl⟩
  · exact .inr ⟨.slowBaseMs, rfl⟩
  · exact .inr ⟨.slowCapMs, rfl⟩

theorem isBareKey_name (s : Setting) : Toml.IsBareKey s.name := by
  cases s <;> decide

/-- The sheet of a configuration is sound, if the remarks in front are remarks. -/
theorem isSound_sheet (c : Config) {remarks : List String}
    (h : ∀ t ∈ remarks, Toml.IsRemark t) : (sheet remarks c).IsSound where
  lines l hl := by
    rcases mem_lines_sheet hl with ⟨t, rfl, hmem | rfl⟩ | ⟨s, rfl⟩
    · exact h t hmem
    · exact (by decide : Toml.IsRemark "")
    · exact isBareKey_name s
  names t ht := by
    have htwo : t.1 = "pool" ∨ t.1 = "retry" := by
      simp only [sheet, List.mem_cons, List.not_mem_nil, or_false] at ht
      rcases ht with rfl | rfl <;> simp
    rcases htwo with hname | hname <;> rw [hname] <;> decide
  distinct := by
    rw [entries_sheet]
    simp
  distinctKeys t ht := by
    simp only [sheet, List.mem_cons, List.not_mem_nil, or_false] at ht
    rcases ht with rfl | rfl
    · rw [filterMap_poolLines]
      simp [numberEntries, poolFields]
    · rw [filterMap_numberLines]
      simp [numberEntries, retryFields]

/-! ## Numbers that can be written -/

theorem isWritable_iff {c : Config} : c.isWritable ↔ ∀ s, c.value s ≤ largest := by
  have hlimit : Int64.maxValue.toInt = (largest : Int) := by decide
  simp only [isWritable, poolFields, retryFields, List.cons_append, List.nil_append, List.all_cons,
    List.all_nil, hlimit, Bool.and_eq_true, decide_eq_true_eq, Int.ofNat_le, and_true]
  constructor
  · rintro ⟨h1, h2, h3, h4, h5, h6, h7, h8, h9⟩ s
    cases s <;> assumption
  · intro h
    exact ⟨h .sizeLimit, h .creationMaxAttempts, h .createTimeoutMs, h .deleteTimeoutMs,
      h .maxAttempts, h .fastBaseMs, h .fastCapMs, h .slowBaseMs, h .slowCapMs⟩

theorem fits_sheet {c : Config} (remarks : List String) (h : ∀ s, c.value s ≤ largest) :
    (sheet remarks c).Fits := by
  intro l hl
  rcases mem_lines_sheet hl with ⟨t, rfl, -⟩ | ⟨s, rfl⟩
  · trivial
  · have hsmall := h s
    have hlow : Int64.minValue.toInt ≤ 0 := by decide
    have hhigh : Int64.maxValue.toInt = (largest : Int) := by decide
    exact ⟨by omega, by omega⟩

/-! ## The round trip -/

/-- The sheet of a configuration gives every setting its value. -/
theorem gives_sheet (remarks : List String) (c : Config) :
    Gives (sheet remarks c).entries fun s => some (c.value s) where
  tabled s item hthere := by
    rw [entries_sheet] at hthere
    cases s <;> cases hthere <;> exact ⟨_, _, rfl⟩
  given s := by
    rw [entries_sheet]
    cases s <;> rfl
  fits s n hsame := by
    cases hsame
    exact value_lt_bound c s

/-- Replacing every default by the value of a configuration makes the configuration. -/
theorem overlay_value (c : Config) : overlay (fun s => some (c.value s)) = c := by
  apply ext_value
  intro s
  rw [value_overlay]
  · rfl
  · intro s n hsame
    cases hsame
    exact value_lt_bound c s

/-- What is written is read back, with any remarks in front. -/
theorem ofText?_toText? {c : Config} {text : String} (h : c.toText? = some text)
    (remarks : List String) (hsound : ∀ t ∈ remarks, Toml.IsRemark t) :
    ofText? (String.join (remarks.map (· ++ "\n")) ++ text) = some c := by
  have hwritable : c.isWritable := by
    unfold toText? at h
    split at h
    · assumption
    · cases h
  rw [← text_sheet h remarks, ofText?_sheet (isSound_sheet c hsound),
    if_pos (fits_sheet remarks (isWritable_iff.mp hwritable)), ofEntries?_eq_overlay (gives_sheet remarks c),
    overlay_value]

end Config

end PooledSessions
