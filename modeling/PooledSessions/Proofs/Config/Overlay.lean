import Mathlib
import PooledSessions.Proofs.Config.Settings
import PooledSessions.Proofs.Toml.Integers
import PooledSessions.Proofs.Toml.Sheets

/-!
# What a settings file changes

A settings file whose groups are tables gives some settings under their names and leaves out the others.
Reading it replaces exactly the given ones in the default configuration, whatever else the file holds and
in whatever order.  A given value that its setting cannot take spoils the whole file.
-/

namespace PooledSessions

open Toml (Item Entries)

namespace Config

/-! ## What a tree gives -/

/-- What stands in a table under a name. -/
def inTable (name : String) : Option Item → Option Item
  | some (.table _ inner) => inner.lookup name
  | _ => none

/-- What a tree gives for a setting. -/
def given (es : Entries) (s : Setting) : Option Item := inTable s.name (es.lookup s.table)

/-- A tree in which every group is a table, or missing. -/
def Tabled (es : Entries) : Prop :=
  ∀ s : Setting, ∀ item ∈ es.lookup s.table, ∃ origin inner, item = .table origin inner

/-- A tree gives these values, each of which its setting can take, and no others. -/
structure Gives (es : Entries) (v : Setting → Option Nat) : Prop where
  /-- The groups are tables. -/
  tabled : Tabled es
  /-- What is given is a number, and every number has been given. -/
  given : ∀ s, given es s = (v s).map fun n => .integer n
  /-- The numbers fit. -/
  fits : ∀ s n, v s = some n → n < s.bound

/-- In a table, a setting is found by its name. -/
theorem said?_table {names : List String} {x : Option Item}
    (h : ∀ item ∈ x, ∃ origin inner, item = .table origin inner) :
    said? names x = some fun name => inTable name x := by
  cases x with
  | none => rfl
  | some item =>
    obtain ⟨origin, inner, rfl⟩ := h item rfl
    rfl

/-- Where the groups are tables, what is found is what is given. -/
theorem found?_eq_given {es : Entries} (h : Tabled es) : found? es = some (given es) := by
  have hpool : ∀ item ∈ es.lookup "pool", ∃ origin inner, item = .table origin inner := h .sizeLimit
  have hretry : ∀ item ∈ es.lookup "retry", ∃ origin inner, item = .table origin inner := h .maxAttempts
  simp only [found?, said?_table hpool, said?_table hretry, Option.bind_eq_bind, Option.bind_some,
    Option.pure_def, Option.some.injEq]
  funext s
  cases s <;> rfl

/-- What is given is found, whatever the other group is. -/
theorem found_of_given {es : Entries} {found : Setting → Option Item} {s : Setting} {item : Item}
    (h : found? es = some found) (hgiven : given es s = some item) : found s = some item := by
  simp only [found?, Option.bind_eq_bind, Option.bind_eq_some_iff, Option.pure_def,
    Option.some.injEq] at h
  obtain ⟨pool, hsaidPool, retry, hsaidRetry, rfl⟩ := h
  unfold given inTable at hgiven
  split at hgiven
  next origin inner hthere =>
    cases hown : s.isOfPool with
    | true =>
      rw [Setting.table, hown, if_pos rfl] at hthere
      rw [hthere] at hsaidPool
      cases hsaidPool
      simpa [hown] using hgiven
    | false =>
      rw [Setting.table, hown, if_neg (by decide)] at hthere
      rw [hthere] at hsaidRetry
      cases hsaidRetry
      simpa [hown] using hgiven
  next => cases hgiven

/-- The given values replace the defaults. -/
theorem ofEntries?_eq_overlay {es : Entries} {v : Setting → Option Nat} (h : Gives es v) :
    ofEntries? es = some (overlay v) := by
  rw [ofEntries?_eq_some_iff]
  refine ⟨given es, found?_eq_given h.tabled, fun s => ?_⟩
  rw [h.given s, value_overlay h.fits]
  cases hthere : v s with
  | none => rfl
  | some n => exact natBelow?_eq_some_iff.mpr ⟨h.fits s n hthere, rfl⟩

/-- A value that does not fit spoils the file. -/
theorem ofEntries?_eq_none {es : Entries} {s : Setting} {item : Item} (hgiven : given es s = some item)
    (hunfit : ¬ s.Takes item) : ofEntries? es = none := by
  rw [Option.eq_none_iff_forall_ne_some]
  intro c hread
  -- A configuration that is read has what is given for its value.
  obtain ⟨found, hgathered, hvalues⟩ := ofEntries?_eq_some_iff.mp hread
  have htaken := hvalues s
  rw [found_of_given hgathered hgiven] at htaken
  obtain ⟨hsmall, hsame⟩ := natBelow?_eq_some_iff.mp htaken
  exact hunfit ⟨_, hsmall, hsame⟩

/-! ## What is read can be written -/

theorem stored_of_group? {names : List String} {item : Item} {named : String → Option Item}
    (h : item.Stored) (hread : group? names item = some named) :
    ∀ name, ∀ i ∈ named name, i.Stored := by
  intro name i hi
  -- In an array the settings stand in order, so a name is looked up beside the items.
  have hzipped {items : List Item} (hsmall : ∀ i ∈ items, i.Stored)
      (hfound : (names.zip items).lookup name = some i) : i.Stored := by
    obtain ⟨front, back, hshape, -⟩ := List.lookup_eq_some_iff.mp hfound
    have hpair : (name, i) ∈ names.zip items := by simp [hshape]
    exact hsmall i (List.of_mem_zip hpair).2
  cases h with
  | table hinside =>
    cases hread
    exact Entries.Stored.lookup hinside hi
  | array hinside =>
    cases hread
    exact hzipped hinside hi
  | tables hinside =>
    cases hread
    refine hzipped ?_ hi
    intro j hj
    obtain ⟨es, hes, rfl⟩ := List.mem_map.mp hj
    exact .table (hinside es hes)
  | moment =>
    cases hread
    cases hi
  | _ => cases hread

theorem stored_of_found? {es : Entries} {found : Setting → Option Item} (h : es.Stored)
    (hgathered : found? es = some found) (s : Setting) : ∀ item ∈ found s, item.Stored := by
  have hsaid {names : List String} {group : String} {named : String → Option Item}
      (hread : said? names (es.lookup group) = some named) (name : String) :
      ∀ item ∈ named name, item.Stored := by
    cases hthere : es.lookup group with
    | none =>
      rw [hthere] at hread
      cases hread
      intro item hnone
      cases hnone
    | some item =>
      rw [hthere] at hread
      exact stored_of_group? (h.lookup hthere) hread name
  simp only [found?, Option.bind_eq_bind, Option.bind_eq_some_iff, Option.pure_def,
    Option.some.injEq] at hgathered
  obtain ⟨pool, hsaidPool, retry, hsaidRetry, rfl⟩ := hgathered
  cases hown : s.isOfPool with
  | true => simpa [hown] using hsaid hsaidPool s.name
  | false => simpa [hown] using hsaid hsaidRetry s.name

/-- The largest number that can be written. -/
def largest : Nat := 2 ^ 63 - 1

theorem default_le_largest (s : Setting) : value {} s ≤ largest := by
  cases s <;> decide

/-- What is read from a text can be written. -/
theorem value_le_largest_of_ofText? {text : String} {c : Config} (h : ofText? text = some c)
    (s : Setting) : c.value s ≤ largest := by
  obtain ⟨es, htree, hread⟩ := Option.bind_eq_some_iff.mp h
  obtain ⟨found, hgathered, hvalues⟩ := ofEntries?_eq_some_iff.mp hread
  have hvalue := hvalues s
  cases hthere : found s with
  | none =>
    rw [hthere] at hvalue
    exact (Option.some.inj hvalue) ▸ default_le_largest s
  | some item =>
    have hstored := stored_of_found? (Toml.Document.stored_of_ofText? htree) hgathered s item hthere
    rw [hthere] at hvalue
    obtain ⟨-, rfl⟩ := natBelow?_eq_some_iff.mp hvalue
    cases hstored with
    | integer hfits =>
      have : Int64.maxValue.toInt = 2 ^ 63 - 1 := by decide
      unfold largest
      omega

/-! ## Texts -/

/-- A text that is read as a tree gives what the tree gives. -/
theorem ofText?_eq {text : String} {es : Entries} (h : Toml.Document.ofText? text = some es) :
    ofText? text = ofEntries? es := by
  rw [ofText?, h, Option.bind_some]

/-- The text of a sheet gives what its lines give, unless an integer does not fit. -/
theorem ofText?_sheet {d : Toml.Sheet} (h : d.IsSound) :
    ofText? d.text = if d.Fits then ofEntries? d.entries else none := by
  rw [ofText?, Toml.Sheet.ofText?_text h]
  split <;> rfl

end Config

end PooledSessions
